/-
# Packed files

A packed file begins with a member: a header, the data in blocks, and the checksum and the
size of the data.  Only the first member counts, and whatever comes after it does not.

Only blocks that store their bytes as they are can be taken; a member with a block that is
really compressed is refused, like one that is damaged.
-/
import ChipLog.Bytes.Scan
import ChipLog.Gzip.Checksum

namespace ChipLog.Gzip

/-! ## 1. Reading -/

/-- Why a member cannot be unpacked. -/
inductive Defect
  | truncated
  | notPacked
  | badHeader
  | badBlock
  | badChecksum
  deriving DecidableEq, Repr

/-- A reader of a packed file. -/
abbrev Reader (α : Type) : Type := ReaderT ByteArray (StateT Nat (Except Defect)) α

/-- A plain read, which fails only at the end of the file. -/
def Reader.read {α : Type} (m : Scan α) : Reader α :=
  fun bytes pos => (m.on bytes pos).mapError fun _ => .truncated

/-- Go on only under a condition. -/
def Reader.demand (condition : Bool) (defect : Defect) : Reader Unit :=
  if condition then pure () else fun _ _ => .error defect

/-- The bytes between a position and the next read. -/
def Reader.since (start : Nat) : Reader ByteArray :=
  fun bytes pos => .ok (bytes.extract start pos, pos)

/-! ## 2. The header of a member -/

/-- The longest name or comment. -/
def maxTextLength : Nat := 65535

/-- The position after a text that ends with a zero byte. -/
def textEnd (bytes : ByteArray) (pos : Nat) : (budget : Nat) → Except Defect Nat
  | 0 => if bytes[pos]? = some 0 then .ok (pos + 1) else .error .badHeader
  | budget + 1 =>
    match bytes[pos]? with
    | none => .error .truncated
    | some byte => if byte = 0 then .ok (pos + 1) else textEnd bytes (pos + 1) budget

/-- Pass over a text that ends with a zero byte. -/
def skipText : Reader Unit := fun bytes pos =>
  (textEnd bytes pos maxTextLength).map fun next => ((), next)

/-- Pass over the header. -/
def skipHeader : Reader Unit := do
  Reader.demand ((← Reader.read Scan.u16) == 0x8B1F) .notPacked
  Reader.demand ((← Reader.read Scan.u8) == 8) .badHeader
  let flags ← Reader.read Scan.u8
  Reader.demand (flags < 0x20) .badHeader
  discard (Reader.read (Scan.slice 6))
  if flags / 4 % 2 == 1 then
    let size ← Reader.read Scan.u16
    discard (Reader.read (Scan.slice size.toNat))
  if flags / 8 % 2 == 1 then skipText
  if flags / 16 % 2 == 1 then skipText
  if flags / 2 % 2 == 1 then
    let seen ← Reader.since 0
    let sum ← Reader.read Scan.u16
    Reader.demand (sum == (checksum seen).toUInt16) .badHeader

/-! ## 3. The data -/

/-- A block of stored bytes, and whether it is the last one. -/
def storedBlock : Reader (Bool × ByteArray) := do
  let head ← Reader.read Scan.u8
  Reader.demand (head / 2 % 4 == 0) .badBlock
  let size ← Reader.read Scan.u16
  let check ← Reader.read Scan.u16
  Reader.demand (check == ~~~size) .badBlock
  let data ← Reader.read (Scan.slice size.toNat)
  pure (head % 2 == 1, data)

/-- Read blocks up to the last one, behind the `data` so far.  A block moves on by at least a
byte; `budget` bounds the number of blocks. -/
def storedBlocks (data : ByteArray) : (budget : Nat) → Reader ByteArray
  | 0 => fun _ _ => .error .truncated
  | budget + 1 => do
    let (last, part) ← storedBlock
    let data := data ++ part
    if last then pure data else storedBlocks data budget

/-- A member: its data, if checksum and size are right. -/
def member : Reader ByteArray := do
  skipHeader
  let data ← storedBlocks ByteArray.empty (← read).size
  let sum ← Reader.read Scan.u32
  let size ← Reader.read Scan.u32
  Reader.demand (sum == checksum data) .badChecksum
  Reader.demand (size == UInt32.ofNat data.size) .badChecksum
  pure data

/-- Unpack the first member of a file. -/
def unpack (bytes : ByteArray) : Except Defect ByteArray :=
  ((member.run bytes).run 0).map Prod.fst

/-! ## 4. Files that may be packed -/

/-- The last part of a path, if it names a file. -/
def fileName? (path : String) : Option String :=
  match (path.splitOn "/").reverse.dropWhile (fun part => part.isEmpty || part == ".") with
  | [] => none
  | part :: _ => if part == ".." then none else some part

/-- What stands behind the last point of a file name, if there is something before it. -/
def extension? (path : String) : Option String := do
  let name ← fileName? path
  match (name.splitOn ".").reverse with
  | [_] | [_, ""] | [] => none
  | ending :: _ => some ending

/-- Whether a file is to be unpacked: by its name, or by how it begins. -/
def isPacked (path : String) (bytes : ByteArray) : Bool :=
  (match extension? path with
    | some ending => ending.toLower == "vgz" || ending.toLower == "gz"
    | none => false)
  || (bytes[0]? == some 0x1F && bytes[1]? == some 0x8B)

/-- The image in a file. -/
def imageOf (path : String) (bytes : ByteArray) : Except Defect ByteArray :=
  if isPacked path bytes then unpack bytes else .ok bytes

/-- The wording for a file that cannot be unpacked. -/
def message : String := "gzip decompression failed"

end ChipLog.Gzip
