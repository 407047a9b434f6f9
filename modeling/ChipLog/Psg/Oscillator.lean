/-
# Square waves

The chip makes every tone, and paces its noise, with a counter that runs down and turns a
level over each time it reaches its end.  A counter that stands at zero, as after a reset,
ends on the next clock.
-/

namespace ChipLog.Psg

/-- A counter that runs down, and the level that it turns over. -/
structure Oscillator where
  counter : Nat := 0
  high : Bool := true
  deriving DecidableEq, Repr, Inhabited

namespace Oscillator

/-- Whether the next clock ends the count. -/
def ends (osc : Oscillator) : Bool := osc.counter ≤ 1

/-- One clock: count down, or start again from `period` with the level turned over. -/
def clock (period : Nat) (osc : Oscillator) : Oscillator :=
  if osc.ends then ⟨period, !osc.high⟩ else ⟨osc.counter - 1, osc.high⟩

theorem clock_of_ends (period : Nat) {osc : Oscillator} (h : osc.counter ≤ 1) :
    osc.clock period = ⟨period, !osc.high⟩ := by
  simp [clock, ends, h]

theorem clock_of_runs (period : Nat) {osc : Oscillator} (h : 1 < osc.counter) :
    osc.clock period = ⟨osc.counter - 1, osc.high⟩ := by
  simp [clock, ends, Nat.not_le.mpr h]

/-- A count never exceeds the larger of the period and what it was before. -/
theorem counter_clock_le (period : Nat) (osc : Oscillator) :
    (osc.clock period).counter ≤ max period osc.counter := by
  unfold clock
  split <;> simp only <;> omega

end Oscillator

end ChipLog.Psg
