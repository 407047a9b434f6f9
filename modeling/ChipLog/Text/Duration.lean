/-
# Playing times

A number of frames is shown as minutes, seconds and hundredths of a second.  The hundredths
are cut off, not rounded, so a shown time never exceeds the true one.
-/
import ChipLog.Sample
import ChipLog.Text.Numeral

namespace ChipLog.Duration

/-- Whole seconds in a number of frames. -/
def seconds (frames : Nat) : Nat := frames / outputRate

/-- Whole hundredths of a second in what is left of a number of frames. -/
def hundredths (frames : Nat) : Nat := frames % outputRate * 100 / outputRate

theorem hundredths_lt (frames : Nat) : hundredths frames < 100 := by
  have : frames % outputRate < outputRate := Nat.mod_lt _ (by decide)
  simp only [hundredths, outputRate] at *
  omega

/-- The shown time never exceeds the true one, and falls short by less than a hundredth. -/
theorem hundredths_bounds (frames : Nat) :
    (seconds frames * 100 + hundredths frames) * outputRate ≤ frames * 100 ∧
      frames * 100 < (seconds frames * 100 + hundredths frames + 1) * outputRate := by
  simp only [seconds, hundredths, outputRate]
  omega

/-- The text of a playing time, such as `1:01.50`. -/
def text (frames : Nat) : String :=
  Numeral.decimal 0 (seconds frames / 60) ++ ":" ++ Numeral.decimal 2 (seconds frames % 60)
    ++ "." ++ Numeral.decimal 2 (hundredths frames)

end ChipLog.Duration
