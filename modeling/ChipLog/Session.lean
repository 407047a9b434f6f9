/-
# Sessions

A session is an opened log: its image, its header, a player at the start of its command
stream, and its tag, which is read when it is first asked for.  Whoever holds a session takes
steps and lets frames be made between them, in any order.
-/
import ChipLog.Playback.Run
import ChipLog.Psg.Bundled
import ChipLog.Tag.Cache

namespace ChipLog

/-- Read the header of an image, and report its version. -/
def Header.read {ι : Type} (image : ByteArray) : Logged ι (Except Fault Header) :=
  match Header.parse image with
  | .ok header => do
    Logged.note (.version header.version)
    pure (.ok header)
  | .error fault => pure (.error fault)

/-- An opened log. -/
structure Session (σ : Type) where
  image : ByteArray
  header : Header
  engines : Factory σ
  playback : Playback σ
  cache : TagCache := {}

namespace Session

variable {σ : Type} [ChipEngine σ]

/-! ## 1. Opening -/

/-- Open an image. -/
def load (engines : Factory σ) (image : ByteArray) : Logged Site (Except Fault (Session σ)) := do
  match ← Header.read image with
  | .ok header =>
    let playback ← Playback.ofHeader engines header
    pure (.ok { image, header, engines, playback })
  | .error fault => pure (.error fault)

/-! ## 2. Playing -/

/-- Take the next command. -/
def step (session : Session σ) : Logged Site (Except Fault Step × Session σ) := do
  let (result, playback) ← session.playback.step session.engines session.image
  pure (result, { session with playback })

/-- Let the engines make `count` frames, put behind the `frames` so far. -/
def render (frames : Array StereoFrame) (count : Nat) (session : Session σ) :
    Array StereoFrame × Session σ :=
  let (frames, playback) := session.playback.render frames count
  (frames, { session with playback })

/-- Let the engines make one frame. -/
def tick (session : Session σ) : StereoFrame × Session σ :=
  let deck := session.playback.deck
  let (frame, board) := deck.board.tick
  (frame, { session with playback := { session.playback with deck := { deck with board } } })

/-- Go to a position of the command stream. -/
def seek (position : Nat) (session : Session σ) : Session σ :=
  { session with playback := session.playback.seek position }

/-- Switch a chip on or off in the mix. -/
def setAudible (site : Site) (audible : Bool) (session : Session σ) : Session σ :=
  { session with playback := session.playback.setAudible site audible }

/-- Play on, going back to the loop point up to `loops` times, until `limit` frames are made. -/
def play (loops : Nat) (limit : Option Nat) (session : Session σ) : Ending × Run σ :=
  Run.play session.engines session.image session.header.loopOffset limit loops
    { playback := session.playback }

/-! ## 3. Looking -/

/-- All chips with an engine, and their clocks. -/
def chips (session : Session σ) : List (Site × UInt32) := session.playback.deck.board.activeChips

/-- The tag, read when it is first asked for. -/
def tag (session : Session σ) : Logged Site (Except Fault (Option Tag) × Session σ) := do
  let (answer, cache) ← session.cache.get session.image session.header.tagOffset
  pure (answer, { session with cache })

end Session

end ChipLog
