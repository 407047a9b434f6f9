/-
# The noise shift register

Noise comes from a register of `width` bits that is shifted down by one bit at a time.  What
enters at the top is the lowest bit (periodic noise), or the parity of the bits under the
taps (white noise).  A reset leaves only the top bit set.
-/

namespace ChipLog.Psg

/-- A shift register with its width, the bits that are fed back, and its content. -/
structure ShiftRegister where
  width : Nat := 16
  taps : Nat := 9
  bits : Nat := 0x8000
  deriving DecidableEq, Repr, Inhabited

namespace ShiftRegister

/-- Set the top bit and clear all others. -/
def reset (r : ShiftRegister) : ShiftRegister := { r with bits := 1 <<< (r.width - 1) }

/-- Whether an odd number of the low 32 bits of `n` are set. -/
def oddParity (n : Nat) : Bool := (List.range 32).countP n.testBit % 2 == 1

/-- The bit that enters at the top. -/
def input (white : Bool) (r : ShiftRegister) : Bool :=
  if white then oddParity (r.bits &&& r.taps) else r.bits.testBit 0

/-- Shift down by one bit. -/
def step (white : Bool) (r : ShiftRegister) : ShiftRegister :=
  { r with bits := r.bits / 2 ||| (if r.input white then 1 <<< (r.width - 1) else 0) }

/-- The bit that is heard. -/
def output (r : ShiftRegister) : Bool := r.bits.testBit 0

/-- Choose taps and width.  No taps at all, or a width that the chip has not, stand for the
usual ones. -/
def configure (taps width : Nat) (r : ShiftRegister) : ShiftRegister :=
  reset
    { r with
      taps := if taps = 0 then 9 else taps
      width := if 1 ≤ width ∧ width ≤ 32 then width else 16 }

@[simp] theorem bits_reset (r : ShiftRegister) : r.reset.bits = 1 <<< (r.width - 1) := rfl

/-- The register holds no more than its width, and still does after a step. -/
theorem bits_step_lt (white : Bool) {r : ShiftRegister} (hw : 1 ≤ r.width)
    (h : r.bits < 1 <<< r.width) : (r.step white).bits < 1 <<< r.width := by
  have htop : 1 <<< (r.width - 1) < 1 <<< r.width := by
    rw [Nat.one_shiftLeft, Nat.one_shiftLeft]
    exact Nat.pow_lt_pow_right (by decide) (by omega)
  have hbit : (if r.input white then 1 <<< (r.width - 1) else 0) < 1 <<< r.width := by
    split
    · exact htop
    · exact Nat.lt_of_le_of_lt (Nat.zero_le _) htop
  have hhalf : r.bits / 2 < 1 <<< r.width := Nat.lt_of_le_of_lt (Nat.div_le_self _ _) h
  rw [Nat.one_shiftLeft r.width] at hhalf hbit ⊢
  exact Nat.or_lt_two_pow hhalf hbit

end ShiftRegister

end ChipLog.Psg
