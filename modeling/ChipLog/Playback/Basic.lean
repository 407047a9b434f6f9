/-
# Following the command stream

A player stands at a position of the command stream and takes one command at a time.  The
command that ends the stream leaves the player at its end until a seek takes it back.  A fault
stops the player for good: the step that meets it changes nothing else, and every later step
reports that the session is over.

Main statement: a step that waits began inside the image and moved on
(`Playback.step_wait_progress`).
-/
import ChipLog.Command.Parse
import ChipLog.Playback.Deck

namespace ChipLog

/-- What a player has to do before its next step. -/
inductive Step
  /-- Let the engines make some frames. -/
  | wait (frames : Nat)
  /-- Nothing more: the stream has ended. -/
  | endOfStream
  deriving DecidableEq, Repr

/-- A player on its way through a command stream. -/
structure Playback (σ : Type) where
  deck : Deck σ
  /-- Where the next command begins. -/
  position : Nat
  /-- Whether the stream has ended. -/
  ended : Bool := false
  /-- Whether a fault has stopped the player. -/
  terminated : Bool := false
  deriving DecidableEq

namespace Playback

variable {σ : Type} [ChipEngine σ]

/-! ## 1. Steps and seeks -/

/-- The player with which a log begins. -/
def ofHeader (engines : Factory σ) (header : Header) : Logged Site (Playback σ) := do
  let deck ← Deck.ofHeader engines header
  pure { deck, position := header.dataStart }

/-- Take the next command. -/
def step (engines : Factory σ) (image : ByteArray) (playback : Playback σ) :
    Logged Site (Except Fault Step × Playback σ) :=
  if playback.terminated then pure (.error .terminated, playback)
  else if playback.ended then pure (.ok .endOfStream, playback)
  else
    match Command.parse image playback.position with
    | .error fault => do
      Logged.note (.stopping fault)
      pure (.error fault, { playback with terminated := true })
    | .ok (.endOfData, length) => do
      Logged.note (.endOfStream playback.position)
      pure (.ok .endOfStream,
        { playback with position := playback.position + length, ended := true })
    | .ok (command, length) => do
      let deck ← playback.deck.execute engines command
      pure (.ok (.wait command.duration),
        { playback with deck, position := playback.position + length })

/-- Go to a position.  Going back from the end of the stream starts it again; going forward
does not. -/
def seek (position : Nat) (playback : Playback σ) : Playback σ :=
  { playback with
    position
    ended := playback.ended && !(position < playback.position) }

/-- Let the engines make `count` frames, put behind the `frames` so far. -/
def render (frames : Array StereoFrame) (count : Nat) (playback : Playback σ) :
    Array StereoFrame × Playback σ :=
  let (frames, deck) := playback.deck.render frames count
  (frames, { playback with deck })

/-- Switch a chip on or off in the mix. -/
def setAudible (site : Site) (audible : Bool) (playback : Playback σ) : Playback σ :=
  { playback with
    deck := { playback.deck with board := playback.deck.board.setAudible site audible } }

/-! ## 2. Progress -/

/-- A step that waits began inside the image and moved on. -/
theorem step_wait_progress {engines : Factory σ} {image : ByteArray} {playback next : Playback σ}
    {frames : Nat} (h : (playback.step engines image).value = (.ok (.wait frames), next)) :
    playback.position < image.size ∧ playback.position < next.position := by
  unfold step at h
  split at h
  · cases h
  split at h
  · cases h
  split at h
  case h_1 => cases h
  case h_2 => cases h
  case h_3 command length hne hparse =>
    obtain ⟨hstart, hlength⟩ := Command.parse_progress hparse
    cases h
    exact ⟨hstart, by simp only; omega⟩

@[simp] theorem position_render (frames : Array StereoFrame) (count : Nat)
    (playback : Playback σ) : (playback.render frames count).2.position = playback.position := rfl

end Playback

end ChipLog
