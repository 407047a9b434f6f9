/-
# Playing a log to its end

A run takes step after step and lets the engines make the frames between them.  When the
stream ends it goes back to the loop point, as often as it may.  It stops at the end of the
stream, at a limit of frames, or at a fault.

Every run comes to an end.  Between two seeks each step moves on inside the image, and each
seek uses up one of the loops: the pair of loops left and bytes left falls in lexicographic
order, and the recursion below is well founded on that ground.
-/
import ChipLog.Playback.Basic

namespace ChipLog

/-- Why a run has stopped. -/
inductive Ending
  | endOfStream
  | limit
  | fault (fault : Fault)
  deriving DecidableEq

/-- What a run has brought so far. -/
structure Run (σ : Type) where
  playback : Playback σ
  frames : Array StereoFrame := #[]
  events : Array (Event Site) := #[]
  steps : Nat := 0

namespace Run

variable {σ : Type} [ChipEngine σ]

/-- How many of `wanted` frames may be made when there are `made` already. -/
def granted (limit : Option Nat) (made wanted : Nat) : Nat :=
  match limit with
  | some most => min wanted (most - made)
  | none => wanted

/-- Whether there may be no more frames. -/
def isFull (limit : Option Nat) (made : Nat) : Bool :=
  match limit with
  | some most => most ≤ made
  | none => false

/-- Play on.  `loopOffset` is the loop point, and `loops` is how often the run may still go
back to it. -/
def play (engines : Factory σ) (image : ByteArray) (loopOffset limit : Option Nat) (loops : Nat)
    (run : Run σ) : Ending × Run σ :=
  let ⟨playback, frames, events, steps⟩ := run
  match h : playback.step engines image with
  | ⟨(.error fault, playback), more⟩ =>
    (.fault fault, ⟨playback, frames, events.appendList more, steps + 1⟩)
  | ⟨(.ok (.wait wanted), next), more⟩ =>
    let rendered := next.render frames (granted limit frames.size wanted)
    let run := ⟨rendered.2, rendered.1, events.appendList more, steps + 1⟩
    if isFull limit rendered.1.size then (.limit, run)
    else play engines image loopOffset limit loops run
  | ⟨(.ok .endOfStream, playback), more⟩ =>
    let events := events.appendList more
    match loopOffset, loops with
    | some offset, loops + 1 =>
      play engines image loopOffset limit loops
        ⟨playback.seek offset, frames, events, steps + 1⟩
    | _, _ => (.endOfStream, ⟨playback, frames, events, steps + 1⟩)
termination_by (loops, image.size - run.playback.position)
decreasing_by
  · obtain ⟨hstart, hnext⟩ := Playback.step_wait_progress (congrArg Logged.value h)
    refine Prod.Lex.right _ ?_
    show image.size - (next.render frames _).2.position < image.size - playback.position
    rw [Playback.position_render]
    omega
  · exact Prod.Lex.left _ _ (Nat.lt_succ_self _)

end Run

end ChipLog
