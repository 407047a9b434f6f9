/-
# The sound chips a log can drive

There are fourteen kinds of chip.  Their order is the order in which the header declares
them and in which their samples are mixed.  Each kind has a fixed place in the header for
its clock, and each place belongs to a tier: the format version that introduced it.
-/

namespace ChipLog

/-! ## 1. Tiers of clock fields -/

/-- The format version that introduced a clock field. -/
inductive ClockTier
  | legacy
  | v110
  | v151
  | v161
  deriving DecidableEq, Repr

/-- Major and minor number of the version that defines the fields of a tier. -/
def ClockTier.minVersion : ClockTier → UInt8 × UInt8
  | .legacy => (1, 0)
  | .v110 => (1, 10)
  | .v151 => (1, 51)
  | .v161 => (1, 61)

/-- Whether a field of the tier counts only if it ends before the command stream begins. -/
def ClockTier.needsHeaderSpace : ClockTier → Bool
  | .legacy | .v110 => false
  | .v151 | .v161 => true

/-! ## 2. Kinds -/

/-- A kind of sound chip. -/
inductive ChipKind
  | sn76489
  | ym2413
  | ym2612
  | ym2151
  | segaPcm
  | ym2203
  | ym2610
  | ym3812
  | ym3526
  | y8950
  | ymz280b
  | rf5c68
  | ymf262
  | multiPcm
  deriving DecidableEq, Repr

namespace ChipKind

/-- How many kinds there are. -/
abbrev count : Nat := 14

/-- All kinds, in mixing order. -/
def all : List ChipKind :=
  [sn76489, ym2413, ym2612, ym2151, segaPcm, ym2203, ym2610, ym3812, ym3526, y8950, ymz280b,
    rf5c68, ymf262, multiPcm]

/-- The place of a kind in the mixing order. -/
def index : ChipKind → Fin count
  | sn76489 => 0
  | ym2413 => 1
  | ym2612 => 2
  | ym2151 => 3
  | segaPcm => 4
  | ym2203 => 5
  | ym2610 => 6
  | ym3812 => 7
  | ym3526 => 8
  | y8950 => 9
  | ymz280b => 10
  | rf5c68 => 11
  | ymf262 => 12
  | multiPcm => 13

/-- The kind at a place of the mixing order. -/
def ofIndex (i : Fin count) : ChipKind := all[i]

@[simp] theorem ofIndex_index (kind : ChipKind) : ofIndex kind.index = kind := by
  cases kind <;> rfl

@[simp] theorem index_ofIndex (i : Fin count) : (ofIndex i).index = i := by
  revert i
  decide

theorem index_injective {a b : ChipKind} (h : a.index = b.index) : a = b := by
  rw [← ofIndex_index a, h, ofIndex_index]

theorem mem_all (kind : ChipKind) : kind ∈ all := by
  cases kind <;> decide

/-! ## 3. What is fixed for each kind -/

/-- Where the header keeps the clock of the chip. -/
def clockOffset : ChipKind → Nat
  | sn76489 => 0x0C
  | ym2413 => 0x10
  | ym2612 => 0x2C
  | ym2151 => 0x30
  | segaPcm => 0x38
  | rf5c68 => 0x40
  | ym2203 => 0x44
  | ym2610 => 0x4C
  | ym3812 => 0x50
  | ym3526 => 0x54
  | y8950 => 0x58
  | ymf262 => 0x5C
  | ymz280b => 0x68
  | multiPcm => 0x88

/-- The tier of the clock field. -/
def tier : ChipKind → ClockTier
  | sn76489 => .legacy
  | ym2413 | ym2612 | ym2151 => .v110
  | multiPcm => .v161
  | _ => .v151

/-- Clock cycles of the chip for one sample of its own. -/
def divider : ChipKind → UInt32
  | sn76489 => 16
  | ym2413 => 72
  | ym2612 => 144
  | ym2151 => 64
  | segaPcm => 128
  | ym2203 => 72
  | ym2610 => 144
  | ym3812 => 72
  | ym3526 => 72
  | y8950 => 72
  | ymz280b => 384
  | rf5c68 => 384
  | ymf262 => 288
  | multiPcm => 224

/-- The name of the chip. -/
def name : ChipKind → String
  | sn76489 => "SN76489"
  | ym2413 => "YM2413"
  | ym2612 => "YM2612"
  | ym2151 => "YM2151"
  | segaPcm => "SegaPCM"
  | ym2203 => "YM2203"
  | ym2610 => "YM2610"
  | ym3812 => "YM3812"
  | ym3526 => "YM3526"
  | y8950 => "Y8950"
  | ymz280b => "YMZ280B"
  | rf5c68 => "RF5C68"
  | ymf262 => "YMF262"
  | multiPcm => "MultiPCM"

/-- The kind of a name, whose ASCII letters may be of either case. -/
def ofName? (text : String) : Option ChipKind :=
  all.find? fun kind => kind.name.toLower == text.toLower

end ChipKind

end ChipLog
