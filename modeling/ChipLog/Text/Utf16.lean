/-
# Text in 16-bit units

A unit below `0xD800` or above `0xDFFF` is a character of its own; other characters are a
high surrogate followed by a low one.  A surrogate without its partner stands for no
character, and is shown as the replacement character.
-/

namespace ChipLog.Utf16

/-- What is shown for a surrogate without its partner. -/
def replacement : Char := '\uFFFD'

/-- Whether a unit is the first half of a character. -/
def isHigh (unit : UInt16) : Bool := 0xD800 ≤ unit && unit ≤ 0xDBFF

/-- Whether a unit is the second half of a character. -/
def isLow (unit : UInt16) : Bool := 0xDC00 ≤ unit && unit ≤ 0xDFFF

/-- The character of a unit that is no surrogate. -/
def single (unit : UInt16) : Char :=
  if isHigh unit || isLow unit then replacement else Char.ofNat unit.toNat

/-- The character of two surrogates. -/
def joined (high low : UInt16) : Char :=
  Char.ofNat (0x10000 + (high.toNat - 0xD800) * 0x400 + (low.toNat - 0xDC00))

/-- The text of a row of units, behind the text `before` it. -/
def decodeFrom (before : String) : List UInt16 → String
  | [] => before
  | [unit] => before.push (single unit)
  | unit :: next :: rest =>
    if isHigh unit && isLow next then decodeFrom (before.push (joined unit next)) rest
    else decodeFrom (before.push (single unit)) (next :: rest)

/-- The text of a row of units. -/
def decode (units : List UInt16) : String := decodeFrom "" units

end ChipLog.Utf16
