/-
# Where a chip sits

A log declares up to two chips of each kind behind one clock field.  A site names one of
them: its kind and its rank.  The clock field says how fast both run and whether the second
one is there at all.
-/
import ChipLog.Chip.Kind

namespace ChipLog

/-! ## 1. Ranks and sites -/

/-- Which of the two chips of a kind is meant. -/
inductive Rank
  | primary
  | secondary
  deriving DecidableEq, Repr

namespace Rank

/-- The rank that a "second chip" flag selects. -/
def ofFlag (second : Bool) : Rank := if second then secondary else primary

/-- Number 0 is the primary chip, every other number the secondary one. -/
def ofNumber : Nat → Rank
  | 0 => primary
  | _ + 1 => secondary

def number : Rank → Nat
  | primary => 0
  | secondary => 1

def label : Rank → String
  | primary => "Primary"
  | secondary => "Secondary"

@[simp] theorem ofNumber_number (rank : Rank) : ofNumber rank.number = rank := by
  cases rank <;> rfl

end Rank

/-- The place of one chip. -/
structure Site where
  kind : ChipKind
  rank : Rank
  deriving DecidableEq, Repr

/-- All sites in mixing order. -/
def Site.all : List Site :=
  ChipKind.all.flatMap fun kind => [⟨kind, .primary⟩, ⟨kind, .secondary⟩]

theorem Site.mem_all (site : Site) : site ∈ Site.all := by
  obtain ⟨kind, rank⟩ := site
  refine List.mem_flatMap.mpr ⟨kind, kind.mem_all, ?_⟩
  cases rank <;> simp

/-! ## 2. Clock fields -/

/-- A clock field of the header: thirty bits of frequency and a flag for a second chip. -/
structure ClockField where
  raw : UInt32
  deriving DecidableEq, Repr, Inhabited

namespace ClockField

/-- The frequency in hertz. -/
def hz (field : ClockField) : UInt32 := field.raw % 0x40000000

/-- Whether the field declares a second chip. -/
def dual (field : ClockField) : Bool := field.raw / 0x40000000 % 2 == 1

/-- Whether the field declares any chip. -/
def declared (field : ClockField) : Bool := field.raw != 0

/-- A frequency fits into thirty bits. -/
theorem hz_lt (field : ClockField) : field.hz.toNat < 0x40000000 := by
  unfold hz
  rw [UInt32.toNat_mod]
  exact Nat.mod_lt _ (by decide)

end ClockField

end ChipLog
