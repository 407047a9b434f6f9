/-
# Little-endian numbers in a byte image

All numbers of the format are stored least significant byte first, in one to four bytes.
`number bytes off w` is the number held by `w` bytes from `off` on, and `digits w n` is the
row of `w` bytes that holds `n`.

A checked read succeeds exactly when the bytes it wants are there (`readNumber_eq_ok_iff`);
otherwise it reports where it stood, how much it wanted and how much there is.
-/
import ChipLog.Fault

namespace ChipLog.Bytes

/-! ## 1. Numbers and rows of bytes -/

/-- The byte at `off` as a number; beyond the end there are only zeros. -/
def byteOr0 (bytes : ByteArray) (off : Nat) : Nat := (bytes[off]?.getD 0).toNat

/-- The number held by `width` bytes from `off` on, least significant byte first. -/
def number (bytes : ByteArray) (off : Nat) : (width : Nat) → Nat
  | 0 => 0
  | width + 1 => byteOr0 bytes off + 256 * number bytes (off + 1) width

/-- The `width` bytes that hold `n`, least significant byte first. -/
def digits : (width n : Nat) → List UInt8
  | 0, _ => []
  | width + 1, n => UInt8.ofNat n :: digits width (n / 256)

@[simp] theorem length_digits (width n : Nat) : (digits width n).length = width := by
  induction width generalizing n with
  | zero => rfl
  | succ width ih => simp [digits, ih]

theorem byteOr0_lt (bytes : ByteArray) (off : Nat) : byteOr0 bytes off < 256 :=
  UInt8.toNat_lt _

/-! ## 2. Checked reads -/

/-- The `size` bytes from `off` on. -/
def slice (bytes : ByteArray) (off size : Nat) : Except Fault ByteArray :=
  if off + size ≤ bytes.size then .ok (bytes.extract off (off + size))
  else .error (.outOfRange off size bytes.size none)

/-- The number held by the `width` bytes from `off` on. -/
def readNumber (bytes : ByteArray) (off width : Nat) : Except Fault Nat :=
  if off + width ≤ bytes.size then .ok (number bytes off width)
  else .error (.outOfRange off width bytes.size none)

def readU8 (bytes : ByteArray) (off : Nat) : Except Fault UInt8 :=
  (readNumber bytes off 1).map UInt8.ofNat

def readU16 (bytes : ByteArray) (off : Nat) : Except Fault UInt16 :=
  (readNumber bytes off 2).map UInt16.ofNat

/-- A number of three bytes, in the low bits of a word. -/
def readU24 (bytes : ByteArray) (off : Nat) : Except Fault UInt32 :=
  (readNumber bytes off 3).map UInt32.ofNat

def readU32 (bytes : ByteArray) (off : Nat) : Except Fault UInt32 :=
  (readNumber bytes off 4).map UInt32.ofNat

/-- A read succeeds exactly when the bytes it wants are in the image. -/
theorem readNumber_eq_ok_iff {bytes : ByteArray} {off width n : Nat} :
    readNumber bytes off width = .ok n ↔
      off + width ≤ bytes.size ∧ n = number bytes off width := by
  unfold readNumber
  split
  · simp_all [eq_comm]
  · simp only [reduceCtorEq, false_iff]
    omega

theorem slice_eq_ok_iff {bytes part : ByteArray} {off size : Nat} :
    slice bytes off size = .ok part ↔
      off + size ≤ bytes.size ∧ part = bytes.extract off (off + size) := by
  unfold slice
  split
  · simp_all [eq_comm]
  · simp only [reduceCtorEq, false_iff]
    omega

end ChipLog.Bytes
