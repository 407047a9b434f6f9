/-
# Text in columns

Cells of a table are padded on the right to the width of their column, counted in columns of
a terminal.  Padding never shortens a text, and a padded text is exactly as wide as asked if
it was not wider already (`width_pad`).
-/
import ChipLog.Text.Cluster

namespace ChipLog.Column

/-! ## 1. The width of a text -/

/-- Measure characters in front of a text of which `settled` columns are settled already. -/
def measureFrom (start : Nat × Context) (chars : List Char) : Nat × Context :=
  chars.foldr
    (fun c behind => (behind.1 + (behind.2.step c).1, (behind.2.step c).2))
    start

/-- The columns of a text that has been measured: those that are settled and those that are
still open. -/
def total (measured : Nat × Context) : Nat := measured.1 + measured.2.tail.columns

/-- How many columns a text takes up. -/
def width (text : String) : Nat := total (measureFrom (0, Context.empty) text.toList)

/-- Columns settled behind a text are added to its own. -/
theorem measureFrom_add (settled more : Nat) (context : Context) (chars : List Char) :
    measureFrom (settled + more, context) chars
      = (settled + (measureFrom (more, context) chars).1,
          (measureFrom (more, context) chars).2) := by
  induction chars with
  | nil => rfl
  | cons c rest ih =>
    simp only [measureFrom, List.foldr_cons] at ih ⊢
    rw [ih]
    simp only [Nat.add_assoc]

/-- A blank joins nothing and takes up one column. -/
theorem step_blank : Context.empty.step ' ' = (1, Context.empty) := by decide

theorem measureFrom_blanks (count : Nat) :
    measureFrom (0, Context.empty) (List.replicate count ' ') = (count, Context.empty) := by
  induction count with
  | zero => rfl
  | succ count ih =>
    simp only [measureFrom, List.replicate_succ, List.foldr_cons] at ih ⊢
    rw [ih, step_blank]

/-- Blanks behind a text add one column each. -/
theorem width_append_blanks (text : String) (count : Nat) :
    width (text ++ String.ofList (List.replicate count ' ')) = width text + count := by
  have happend : measureFrom (0, Context.empty) (text.toList ++ List.replicate count ' ')
      = measureFrom (count, Context.empty) text.toList := by
    rw [measureFrom, List.foldr_append]
    exact congrArg (measureFrom · text.toList) (measureFrom_blanks count)
  have hadd := measureFrom_add count 0 Context.empty text.toList
  simp only [width, total, String.toList_append, String.toList_ofList, happend]
  rw [Nat.add_zero] at hadd
  simp only [hadd]
  omega

/-! ## 2. Padding -/

/-- Put blanks behind a text until it takes up at least `columns` columns. -/
def pad (columns : Nat) (text : String) : String :=
  text ++ String.ofList (List.replicate (columns - width text) ' ')

/-- A padded text is as wide as its column, or as wide as it was. -/
theorem width_pad (columns : Nat) (text : String) :
    width (pad columns text) = max columns (width text) := by
  rw [pad, width_append_blanks]
  omega

/-! ## 3. Tables -/

/-- The width of the widest of some texts. -/
def widest (texts : List String) : Nat := (texts.map width).foldl max 0

/-- The lines of a cell.  Every end of a line begins another one, even at the end. -/
def cellLines (cell : String) : List String :=
  (cell.toList.splitOn '\n').map String.ofList

/-- The lines of a row with two cells, each as wide as its column and with a blank on either
side.  The cell with fewer lines is filled up with empty ones. -/
def rowLines (left right : Nat) (row : List String × List String) : List String :=
  (List.range (max row.1.length row.2.length)).map fun line =>
    " " ++ pad left (row.1.getD line "") ++ "  " ++ pad right (row.2.getD line "") ++ " "

/-- The lines of a table with two columns. -/
def table (rows : List (String × String)) : List String :=
  let cells := rows.map fun row => (cellLines row.1, cellLines row.2)
  let left := widest (cells.flatMap Prod.fst)
  let right := widest (cells.flatMap Prod.snd)
  cells.flatMap (rowLines left right)

end ChipLog.Column
