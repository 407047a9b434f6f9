/-
# Format versions

A version is a 16-bit number in binary-coded decimal: 1.51 is `0x0151`.  It is shown and
compared digit by digit, so a version with a digit above nine is still a version, and it lies
where its digits put it.
-/
import ChipLog.Text.Numeral

namespace ChipLog

/-- A format version, in binary-coded decimal. -/
structure Version where
  raw : UInt16
  deriving DecidableEq, Repr

namespace Version

/-- The version in a word of the header; the high half of the word does not count. -/
def ofWord (word : UInt32) : Version := ⟨word.toUInt16⟩

/-- The binary-coded decimal of a number; a number above 99 has a first digit above nine. -/
def bcd (n : UInt8) : UInt16 := (n / 10).toUInt16 * 16 + (n % 10).toUInt16

/-- The version with a major and a minor number, as far as sixteen bits can hold it. -/
def ofNumbers (major minor : UInt8) : Version := ⟨bcd major * 256 ||| bcd minor⟩

instance : LE Version := ⟨fun a b => a.raw ≤ b.raw⟩

instance (a b : Version) : Decidable (a ≤ b) := inferInstanceAs (Decidable (a.raw ≤ b.raw))

instance : Ord Version := ⟨fun a b => compare a.raw b.raw⟩

/-- Whether the version is a given one or later. -/
def atLeast (version : Version) (major minor : UInt8) : Bool := ofNumbers major minor ≤ version

/-- The two digits before the point. -/
def major (version : Version) : UInt8 := (version.raw / 256).toUInt8

/-- The two digits after the point. -/
def minor (version : Version) : UInt8 := version.raw.toUInt8

/-- The text of a version, such as `1.51`. -/
def text (version : Version) : String :=
  Numeral.hexSmall 0 version.major.toNat ++ "." ++ Numeral.hexSmall 2 version.minor.toNat

/-- Whether the version is later than the format that this player knows. -/
def isNewer (version : Version) : Bool := version.atLeast 1 70

end Version

end ChipLog
