/-
# A value for every kind of chip

A table that has exactly one entry for each kind.  It is read through `get`; the lemmas say
what every other operation does to that view, and two tables with the same view are equal
(`PerKind.ext_get`).
-/
import ChipLog.Chip.Kind

namespace ChipLog

/-- One entry for every kind of chip, in mixing order. -/
structure PerKind (α : Type) where
  entries : Vector α ChipKind.count
  deriving DecidableEq

namespace PerKind

variable {α β : Type}

/-- The entry of a kind. -/
def get (table : PerKind α) (kind : ChipKind) : α := table.entries[kind.index]

/-- The table whose entries are given by a function. -/
def ofFn (f : ChipKind → α) : PerKind α := ⟨Vector.ofFn fun i => f (ChipKind.ofIndex i)⟩

/-- Change the entry of one kind. -/
def modify (table : PerKind α) (kind : ChipKind) (f : α → α) : PerKind α :=
  ⟨table.entries.set kind.index (f table.entries[kind.index])⟩

/-- Change every entry in the same way. -/
def map (f : α → β) (table : PerKind α) : PerKind β := ⟨table.entries.map f⟩

/-- The entries in mixing order. -/
def toList (table : PerKind α) : List α := table.entries.toList

@[simp] theorem get_ofFn (f : ChipKind → α) (kind : ChipKind) : (ofFn f).get kind = f kind := by
  simp [get, ofFn]

@[simp] theorem get_map (f : α → β) (table : PerKind α) (kind : ChipKind) :
    (table.map f).get kind = f (table.get kind) := by
  simp [get, map]

@[simp] theorem get_modify_self (table : PerKind α) (kind : ChipKind) (f : α → α) :
    (table.modify kind f).get kind = f (table.get kind) := by
  simp [get, modify]

theorem get_modify_of_ne (table : PerKind α) {kind other : ChipKind} (f : α → α)
    (h : other ≠ kind) : (table.modify kind f).get other = table.get other := by
  have : kind.index.val ≠ other.index.val := fun he =>
    h (ChipKind.index_injective (Fin.ext he)).symm
  simp [get, modify, Vector.getElem_set_ne, this]

/-- Two tables that agree on every kind are equal. -/
theorem ext_get {a b : PerKind α} (h : ∀ kind, a.get kind = b.get kind) : a = b := by
  obtain ⟨a⟩ := a
  obtain ⟨b⟩ := b
  congr 1
  ext i hi
  have := h (ChipKind.ofIndex ⟨i, hi⟩)
  simpa [get] using this

end PerKind

end ChipLog
