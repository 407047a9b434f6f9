/-
# Tags

A log can carry a GD3 tag: eleven texts about the music, in 16-bit units that end with a zero
unit, behind an ident, a version and a length.  The length is kept but not relied on; the
texts are found by their zero units alone.

A tag that is not there, has another ident, or has a version nobody knows, is no fault: there
just is no tag.  Only a tag that the image cuts short is a fault.
-/
import ChipLog.Bytes.LittleEndian
import ChipLog.Journal
import ChipLog.Text.Utf16

namespace ChipLog

/-! ## 1. Texts -/

/-- A text of a tag as it is stored. -/
structure TagText where
  units : Array UInt16
  deriving DecidableEq, Repr

namespace TagText

/-- The units without the zero unit at the end. -/
def textUnits (text : TagText) : Array UInt16 :=
  if text.units.back? = some 0 then text.units.pop else text.units

/-- Whether the text has no units. -/
def isEmpty (text : TagText) : Bool := text.textUnits.isEmpty

/-- The text to show. -/
def toText (text : TagText) : String := Utf16.decode text.textUnits.toList

end TagText

/-- What a text of a tag is about. -/
inductive TagField
  | trackEnglish
  | trackJapanese
  | gameEnglish
  | gameJapanese
  | systemEnglish
  | systemJapanese
  | authorEnglish
  | authorJapanese
  | releaseDate
  | converter
  | notes
  deriving DecidableEq, Repr

namespace TagField

/-- How many texts a tag has. -/
abbrev count : Nat := 11

/-- All fields, in the order of the file. -/
def all : Vector TagField count := #v[
    trackEnglish, trackJapanese, gameEnglish, gameJapanese, systemEnglish, systemJapanese,
    authorEnglish, authorJapanese, releaseDate, converter, notes]

/-- The key under which a field is listed. -/
def key : TagField → String
  | trackEnglish => "track_name_en"
  | trackJapanese => "track_name_jp"
  | gameEnglish => "game_name_en"
  | gameJapanese => "game_name_jp"
  | systemEnglish => "system_name_en"
  | systemJapanese => "system_name_jp"
  | authorEnglish => "author_name_en"
  | authorJapanese => "author_name_jp"
  | releaseDate => "release_date"
  | converter => "converter"
  | notes => "notes"

end TagField

/-- A tag. -/
structure Tag where
  /-- The length that the tag says it has. -/
  dataLength : UInt32
  texts : Vector TagText TagField.count
  deriving DecidableEq

namespace Tag

/-- The texts with their fields, in the order of the file. -/
def fields (tag : Tag) : List (TagField × TagText) := (TagField.all.zip tag.texts).toList

/-- The ident of a tag. -/
def ident : ByteArray := "Gd3 ".toUTF8

/-- The only known version. -/
def knownVersion : UInt32 := 0x100

/-! ## 2. Reading -/

/-- Read units from `pos` on, up to and with the first zero unit, behind `units`.  The answer
has the position after it. -/
def readText (bytes : ByteArray) (units : Array UInt16) (pos : Nat) :
    Except Fault (TagText × Nat) :=
  if pos + 2 ≤ bytes.size then
    let unit := UInt16.ofNat (Bytes.number bytes pos 2)
    if unit = 0 then .ok (⟨units.push unit⟩, pos + 2)
    else readText bytes (units.push unit) (pos + 2)
  else .error (.outOfRange pos 2 bytes.size (some .tagText))
termination_by bytes.size - pos

/-- Read `n` texts one after the other. -/
def readTexts (bytes : ByteArray) : (n : Nat) → (pos : Nat) → Except Fault (Vector TagText n × Nat)
  | 0, pos => .ok (#v[], pos)
  | n + 1, pos => do
    let (texts, next) ← readTexts bytes n pos
    let (text, stop) ← readText bytes #[] next
    pure (texts.push text, stop)

/-- What stands where a tag is looked for. -/
inductive Finding
  | found (tag : Tag)
  | absent
  | otherIdent (offset : Nat) (bytes : ByteArray)
  | otherVersion (version : UInt32)
  deriving DecidableEq

namespace Finding

/-- The tag, if there is one. -/
def tag? : Finding → Option Tag
  | found tag => some tag
  | _ => none

/-- What there is to report about a tag that cannot be taken. -/
def notice? : Finding → Option Notice
  | otherIdent offset bytes => some (.tagIdent offset bytes)
  | otherVersion version => some (.tagVersion version)
  | _ => none

end Finding

/-- Read what stands at a position. -/
def readAt (bytes : ByteArray) (start : Nat) : Except Fault Finding := do
  let found ← (Bytes.slice bytes start 4).mapError (Fault.within .tagIdent)
  if found ≠ ident then
    return .otherIdent start found
  let version ← (Bytes.readU32 bytes (start + 4)).mapError (Fault.within .tagVersion)
  if version ≠ knownVersion then
    return .otherVersion version
  let dataLength ← (Bytes.readU32 bytes (start + 8)).mapError (Fault.within .tagLength)
  let (texts, _) ← readTexts bytes TagField.count (start + 12)
  return .found ⟨dataLength, texts⟩

/-- Look for the tag that a header points to. -/
def find (bytes : ByteArray) (offset : Option Nat) : Except Fault Finding :=
  match offset with
  | some start => readAt bytes start
  | none => .ok .absent

/-- Look for a tag, and report one that cannot be taken. -/
def lookUp {ι : Type} (bytes : ByteArray) (offset : Option Nat) :
    Logged ι (Except Fault (Option Tag)) :=
  match find bytes offset with
  | .ok finding => do
    Logged.note? finding.notice?
    pure (.ok finding.tag?)
  | .error fault => pure (.error fault)

/-- Read bytes that are a tag and nothing else before it.  Without a tag the ident is wrong,
whatever it is. -/
def ofChunk {ι : Type} (bytes : ByteArray) : Logged ι (Except Fault Tag) := do
  match ← lookUp bytes (some 0) with
  | .ok (some tag) => pure (.ok tag)
  | .ok none =>
    match Bytes.slice bytes 0 4 with
    | .ok found => pure (.error (.badIdent found))
    | .error fault => pure (.error fault)
  | .error fault => pure (.error fault)

end Tag

end ChipLog
