/-
# Tables of characters

A class of characters is given by the first and the last code point of each of its rows.  The
rows of a table go upwards and do not touch (`CharTable.ordered`), so that every class has one table
only, and a character before the first row is in none of them (`CharTable.has_eq_false_of_lt`).
-/

namespace ChipLog

namespace CharTable

/-- Whether rows go upwards from `least`, with a gap between each row and the next. -/
def ascends (least : Nat) : List (Nat × Nat) → Bool
  | [] => true
  | (first, last) :: rest => least ≤ first && first ≤ last && ascends (last + 2) rest

end CharTable

/-- The rows of a class of characters. -/
structure CharTable where
  rows : Array (Nat × Nat)
  ordered : CharTable.ascends 0 rows.toList = true := by decide

namespace CharTable

/-- Whether a character is in one of the rows. -/
def has (table : CharTable) (c : Char) : Bool :=
  table.rows.any fun row => row.1 ≤ c.toNat && c.toNat ≤ row.2

/-- No row begins before the least place. -/
theorem le_of_ascends {rows : List (Nat × Nat)} {least code : Nat} {row : Nat × Nat}
    (h : ascends least rows = true) (hrow : row ∈ rows) (hcode : row.1 ≤ code) :
    least ≤ code := by
  induction rows generalizing least with
  | nil => simp at hrow
  | cons head rest ih =>
    simp only [ascends, Bool.and_eq_true, decide_eq_true_eq] at h
    obtain ⟨⟨hfirst, hlast⟩, hrest⟩ := h
    cases hrow with
    | head => omega
    | tail _ hmem =>
      have := ih hrest hmem
      omega

/-- A character before the first row of a table is not in it. -/
theorem has_eq_false_of_lt {table : CharTable} {first : Nat × Nat} {c : Char}
    (h : table.rows.toList.head? = some first) (hc : c.toNat < first.1) :
    table.has c = false := by
  obtain ⟨rest, hrows⟩ := List.head?_eq_some_iff.mp h
  have hascends : ascends first.1 table.rows.toList = true := by
    have hordered := table.ordered
    rw [hrows] at hordered ⊢
    simp only [ascends, Bool.and_eq_true, decide_eq_true_eq] at hordered ⊢
    exact ⟨⟨Nat.le_refl _, hordered.1.2⟩, hordered.2⟩
  rw [has, ← Array.any_toList, List.any_eq_false]
  intro row hrow hin
  simp only [Bool.and_eq_true, decide_eq_true_eq] at hin
  have := le_of_ascends hascends hrow hin.1
  omega

end CharTable

end ChipLog
