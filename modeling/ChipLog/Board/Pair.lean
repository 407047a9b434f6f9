/-
# The two chips of a kind

A clock field can declare a second chip beside the first.  Both run at the same clock.  A
pair has a socket for each.
-/
import ChipLog.Board.Socket

namespace ChipLog

/-- The sockets for both chips of a kind. -/
structure Pair (σ : Type) where
  primary : Socket σ := {}
  secondary : Socket σ := {}
  deriving DecidableEq

namespace Pair

variable {σ : Type} [ChipEngine σ]

/-! ## 1. Sockets -/

def socket (pair : Pair σ) : Rank → Socket σ
  | .primary => pair.primary
  | .secondary => pair.secondary

def setSocket (pair : Pair σ) : Rank → Socket σ → Pair σ
  | .primary, socket => { pair with primary := socket }
  | .secondary, socket => { pair with secondary := socket }

/-- Whether there is a second engine. -/
def isDual (pair : Pair σ) : Bool := pair.secondary.isActive

omit [ChipEngine σ] in
@[simp] theorem socket_setSocket_self (pair : Pair σ) (rank : Rank) (socket : Socket σ) :
    (pair.setSocket rank socket).socket rank = socket := by
  cases rank <;> rfl

omit [ChipEngine σ] in
theorem socket_setSocket_of_ne (pair : Pair σ) {rank other : Rank} (socket : Socket σ)
    (h : other ≠ rank) : (pair.setSocket rank socket).socket other = pair.socket other := by
  cases rank <;> cases other <;> simp_all [Pair.socket, setSocket]

/-! ## 2. Calls -/

/-- Tell the engine of one rank something. -/
def send (rank : Rank) (calls : List EngineCall) (pair : Pair σ) : Logged Rank (Pair σ) := do
  let socket ← ((pair.socket rank).send calls).relabel fun _ => rank
  pure (pair.setSocket rank socket)

/-- Make an engine for one rank and start it, unless there is one. -/
def switchOn (field : ClockField) (make : Rank → σ) (rank : Rank) (pair : Pair σ) :
    Logged Rank (Pair σ) :=
  if (pair.socket rank).isActive then pure pair
  else do
    Logged.create rank
    let (_, socket) ← ((pair.socket rank).install field (make rank)).relabel fun _ => rank
    pure (pair.setSocket rank socket)

/-- How many of the sockets have an engine. -/
def activeCount (pair : Pair σ) : Nat :=
  [pair.primary, pair.secondary].countP Socket.isActive

/-- Start the engines that a clock field declares, as far as they are missing.  The answer is
the number of engines that were started. -/
def activate (field : ClockField) (make : Rank → σ) (pair : Pair σ) :
    Logged Rank (Nat × Pair σ) := do
  let first ← pair.switchOn field make .primary
  let both ← if field.dual then first.switchOn field make .secondary else pure first
  pure (both.activeCount - pair.activeCount, both)

/-! ## 3. Time -/

/-- Go on by one frame of output. -/
def advance (pair : Pair σ) : Pair σ := ⟨pair.primary.advance, pair.secondary.advance⟩

/-- Add the samples of the sockets to a total, the primary one first. -/
def mixOutput (total : RawFrame) (pair : Pair σ) : RawFrame :=
  pair.secondary.mixOutput (pair.primary.mixOutput total)

/-- Go on by one frame and add the samples to a total. -/
def mix (total : RawFrame) (pair : Pair σ) : RawFrame × Pair σ :=
  let pair := pair.advance
  (pair.mixOutput total, pair)

/-- One frame of the pair alone. -/
def tick (pair : Pair σ) : RawFrame × Pair σ := pair.mix .silence

end Pair

end ChipLog
