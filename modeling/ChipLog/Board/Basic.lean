/-
# The board

A board has sockets for two chips of every kind.  It is told things site by site, and for each
frame of output it lets all its engines go on and adds up what they deliver, kind after kind
in mixing order, the primary chip before the secondary one.
-/
import ChipLog.Board.Pair
import ChipLog.Chip.PerKind

namespace ChipLog

/-- The sockets for all chips. -/
structure Board (σ : Type) where
  slots : PerKind (Pair σ)
  deriving DecidableEq

namespace Board

variable {σ : Type} [ChipEngine σ]

/-! ## 1. Sockets -/

/-- A board without engines. -/
def empty : Board σ := ⟨PerKind.ofFn fun _ => {}⟩

/-- The sockets of a kind. -/
def slot (board : Board σ) (kind : ChipKind) : Pair σ := board.slots.get kind

/-- Put other sockets in the place of a kind. -/
def setSlot (board : Board σ) (kind : ChipKind) (pair : Pair σ) : Board σ :=
  ⟨board.slots.modify kind fun _ => pair⟩

def socket (board : Board σ) (site : Site) : Socket σ := (board.slot site.kind).socket site.rank

def setSocket (board : Board σ) (site : Site) (socket : Socket σ) : Board σ :=
  ⟨board.slots.modify site.kind fun pair => pair.setSocket site.rank socket⟩

/-- Whether the primary chip of a kind has an engine. -/
def isActive (board : Board σ) (kind : ChipKind) : Bool := (board.slot kind).primary.isActive

/-- All sites with an engine, with their clocks. -/
def activeChips (board : Board σ) : List (Site × UInt32) :=
  (Site.all.filter fun site => (board.socket site).isActive).map fun site =>
    (site, (board.socket site).hz)

/-- Switch a chip on or off in the mix. -/
def setAudible (site : Site) (audible : Bool) (board : Board σ) : Board σ :=
  board.setSocket site ((board.socket site).setAudible audible)

omit [ChipEngine σ] in
@[simp] theorem socket_setSocket_self (board : Board σ) (site : Site) (socket : Socket σ) :
    (board.setSocket site socket).socket site = socket := by
  simp [Board.socket, setSocket, slot]

omit [ChipEngine σ] in
theorem socket_setSocket_of_ne (board : Board σ) {site other : Site} (socket : Socket σ)
    (h : other ≠ site) : (board.setSocket site socket).socket other = board.socket other := by
  obtain ⟨kind, rank⟩ := site
  obtain ⟨kind', rank'⟩ := other
  by_cases hk : kind' = kind
  · subst hk
    have hr : rank' ≠ rank := fun hr => h (by rw [hr])
    simp [Board.socket, setSocket, slot, Pair.socket_setSocket_of_ne _ _ hr]
  · simp [Board.socket, setSocket, slot, PerKind.get_modify_of_ne _ _ hk]

/-! ## 2. Calls -/

/-- Tell the engine of a site something, if there is one. -/
def send (site : Site) (calls : List EngineCall) (board : Board σ) : Logged Site (Board σ) := do
  let socket ← ((board.socket site).send calls).relabel fun _ => site
  pure (board.setSocket site socket)

/-- Start the engines that a clock field declares for a kind.  A kind whose primary chip has
an engine is left alone.  The answer says whether any engine was started. -/
def activate (engines : Factory σ) (kind : ChipKind) (field : ClockField) (board : Board σ) :
    Logged Site (Bool × Board σ) :=
  if board.isActive kind then pure (false, board)
  else do
    let (count, pair) ←
      ((board.slot kind).activate field fun rank => engines ⟨kind, rank⟩).relabel (Site.mk kind)
    Logged.note (.chipDetected kind field.hz (1 < count))
    pure (0 < count, board.setSlot kind pair)

/-! ## 3. Time -/

/-- Let every engine go on by one frame of output. -/
def advance (board : Board σ) : Board σ := ⟨board.slots.map Pair.advance⟩

/-- The sum of what the engines deliver. -/
def output (board : Board σ) : RawFrame :=
  board.slots.entries.foldl Pair.mixOutput .silence

/-- One frame of output. -/
def tick (board : Board σ) : StereoFrame × Board σ :=
  let board := board.advance
  (board.output.narrow, board)

/-- `count` frames of output, put behind the `frames` so far. -/
def render (frames : Array StereoFrame) (board : Board σ) :
    (count : Nat) → Array StereoFrame × Board σ
  | 0 => (frames, board)
  | count + 1 =>
    let (frame, board) := board.tick
    render (frames.push frame) board count

end Board

end ChipLog
