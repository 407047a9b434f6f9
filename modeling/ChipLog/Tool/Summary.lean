/-
# A summary of a log

A table of what the header says and of the chips it declares, and below it the texts of the
tag.
-/
import ChipLog.Session
import ChipLog.Text.Column
import ChipLog.Text.Lines

namespace ChipLog.Summary

variable {σ : Type} [ChipEngine σ]

/-! ## 1. The table -/

/-- A frequency. -/
def hzText (hz : UInt32) : String := Numeral.decimal 0 hz.toNat ++ " Hz"

/-- The loop point and the length of the loop. -/
def loopText (header : Header) : String :=
  match header.loopOffset with
  | some offset => Numeral.address offset ++ ", " ++ Duration.text header.loopSamples.toNat
  | none => "none"

/-- The name of a chip; the second of a kind has a number. -/
def chipName (site : Site) : String :=
  match site.rank with
  | .primary => site.kind.name
  | .secondary => site.kind.name ++ " #2"

/-- The rows of the table. -/
def rows (path : String) (session : Session σ) : List (String × String) :=
  let header := session.header
  [("Field", "Value"),
    ("File", path ++ " (" ++ Numeral.decimal 0 session.image.size ++ " bytes)"),
    ("Version", header.version.text),
    ("Data start", Numeral.address header.dataStart),
    ("Length", Duration.text header.totalSamples.toNat),
    ("Loop", loopText header)]
  ++ (if header.rate = 0 then [] else [("Rate", hzText header.rate)])
  ++ session.chips.map (fun chip => (chipName chip.1, hzText chip.2))
  ++ (if header.awaitsFm then [("FM (pre-1.10)", hzText header.fmClock.hz)] else [])

/-! ## 2. The tag -/

/-- The lines of a text, the first one behind its key. -/
def textLines (columns : Nat) (key text : String) : List String :=
  match Lines.split text with
  | [] => []
  | first :: rest =>
    (Column.pad columns key ++ "  " ++ first)
      :: rest.map fun line => Column.pad columns "" ++ "  " ++ line

/-- The lines for a tag. -/
def tagLines (tag : Tag) : List String :=
  let texts := (tag.fields.filter fun field => !field.2.isEmpty).map fun field =>
    (field.1.key, field.2.toText)
  let columns := Column.widest (texts.map Prod.fst)
  "" :: texts.flatMap fun text => textLines columns text.1 text.2

/-! ## 3. The whole summary -/

/-- The lines of the summary of an image. -/
def lines (engines : Factory σ) (path : String) (image : ByteArray) :
    Logged Site (Except Fault (List String)) := do
  match ← Session.load engines image with
  | .error fault => pure (.error fault)
  | .ok session =>
    let table := Column.table (rows path session)
    match (← session.tag).1 with
    | .ok (some tag) => pure (.ok (table ++ tagLines tag))
    | .ok none => pure (.ok (table ++ ["", "no GD3 tag"]))
    | .error fault =>
      Logged.note (.tagUnreadable fault)
      pure (.ok table)

/-- The wording for an image that cannot be opened. -/
def loadMessage (path : String) (fault : Fault) : String :=
  "failed to load VGM: " ++ path ++ ": " ++ fault.message

end ChipLog.Summary
