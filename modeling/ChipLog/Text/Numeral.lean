/-
# Numerals

Every number the program prints is a row of digits in base ten or sixteen, filled up with
zeros on the left to a least width.  A numeral that is already as wide as asked is left
alone, so a width never cuts a number short (`length_fill_ge`).
-/

namespace ChipLog.Numeral

/-! ## 1. Filling -/

/-- Put zeros in front of `digits` until there are at least `width` of them. -/
def fill (width : Nat) (digits : List Char) : List Char :=
  List.replicate (width - digits.length) '0' ++ digits

theorem length_fill (width : Nat) (digits : List Char) :
    (fill width digits).length = max width digits.length := by
  simp only [fill, List.length_append, List.length_replicate]
  omega

theorem length_fill_ge (width : Nat) (digits : List Char) :
    digits.length ≤ (fill width digits).length := by
  rw [length_fill]
  exact Nat.le_max_right _ _

/-! ## 2. Bases -/

/-- Decimal, at least `width` digits. -/
def decimal (width n : Nat) : String :=
  String.ofList (fill width (Nat.toDigits 10 n))

/-- Hexadecimal with capital digits, at least `width` of them. -/
def hex (width n : Nat) : String :=
  String.ofList (fill width ((Nat.toDigits 16 n).map Char.toUpper))

/-- Hexadecimal with small digits, at least `width` of them. -/
def hexSmall (width n : Nat) : String :=
  String.ofList (fill width (Nat.toDigits 16 n))

/-- An address: hexadecimal as wide as it needs to be, after the mark `0x`. -/
def address (n : Nat) : String := "0x" ++ hex 0 n

/-- Bytes as they are quoted in messages: `[47, 64, 33, 20]`. -/
def byteRow (bytes : ByteArray) : String :=
  "[" ++ String.intercalate ", " (bytes.data.toList.map fun b => hex 2 b.toNat) ++ "]"

end ChipLog.Numeral
