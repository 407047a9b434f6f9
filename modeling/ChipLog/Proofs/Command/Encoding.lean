/-
# Commands as rows of bytes

Every command has one canonical row of bytes (`Command.encode`): its opcode, and its operands in
the order of the stream.  Rows and commands do not quite correspond.  A command whose fields
do not fit their places has no row of its own, so only `WellFormed` commands count.  And the
format leaves a few bits open that a reader passes over, the `Slack` of a row.

* Which chip of a pair is meant goes into the opcode, into the top bit of an address, a channel
  or a register, or into the top bit of a size.
* The byte behind the opcode of a block or a copy is reserved and stands at 0x66; the top two
  bits of the bank of a copy do not count.
* A copy of the greatest length is written as a copy of length zero.
-/
import ChipLog.Command.Basic
import ChipLog.Proofs.Bytes.Rows

namespace ChipLog

/-- The weight of a rank in a field whose top bit it is. -/
def Rank.bit (weight : Nat) : Rank → Nat
  | .primary => 0
  | .secondary => weight

namespace Command

/-! ## 1. Opcodes -/

/-- The low digit of the opcodes for a pair of bus addresses of a chip, if there are any. -/
def registerDigit? : (kind : ChipKind) → (pair : UInt8) → Option UInt8
  | .ym2413, 0 => some 0x1
  | .ym2612, 0 => some 0x2
  | .ym2612, 1 => some 0x3
  | .ym2151, 0 => some 0x4
  | .ym2203, 0 => some 0x5
  | .ym2610, 0 => some 0x8
  | .ym2610, 1 => some 0x9
  | .ym3812, 0 => some 0xA
  | .ym3526, 0 => some 0xB
  | .y8950, 0 => some 0xC
  | .ymz280b, 0 => some 0xD
  | .ymf262, 0 => some 0xE
  | .ymf262, 1 => some 0xF
  | _, _ => none

/-- The first byte of a command. -/
def opcode : Command → UInt8
  | psgWrite .primary _ => 0x50
  | psgWrite .secondary _ => 0x30
  | psgStereo .primary _ => 0x4F
  | psgStereo .secondary _ => 0x3F
  | registerWrite kind .primary pair _ _ => 0x50 + (registerDigit? kind pair).getD 0
  | registerWrite kind .secondary pair _ _ => 0xA0 + (registerDigit? kind pair).getD 0
  | wait _ => 0x61
  | waitSixtieth => 0x62
  | waitFiftieth => 0x63
  | waitShort n => 0x70 + n
  | endOfData => 0x66
  | dataBlock _ => 0x67
  | ramCopy _ => 0x68
  | dacWrite frames => 0x80 + frames
  | rf5c68Register _ _ => 0xB0
  | pwmWrite _ _ => 0xB2
  | multiPcmWrite _ _ _ => 0xB5
  | segaPcmMemory _ _ _ => 0xC0
  | rf5c68Memory _ _ => 0xC1
  | multiPcmBank _ _ _ => 0xC3
  | ymf278bWrite _ _ _ => 0xD0
  | ymf271Write _ _ _ => 0xD1
  | dacSeek _ => 0xE0

/-- The opcodes that stand for a command. -/
def opcodes : List UInt8 :=
  [0x30, 0x3F, 0x4F,
    0x50, 0x51, 0x52, 0x53, 0x54, 0x55, 0x58, 0x59, 0x5A, 0x5B, 0x5C, 0x5D, 0x5E, 0x5F,
    0x61, 0x62, 0x63, 0x66, 0x67, 0x68,
    0x70, 0x71, 0x72, 0x73, 0x74, 0x75, 0x76, 0x77, 0x78, 0x79, 0x7A, 0x7B, 0x7C, 0x7D, 0x7E, 0x7F,
    0x80, 0x81, 0x82, 0x83, 0x84, 0x85, 0x86, 0x87, 0x88, 0x89, 0x8A, 0x8B, 0x8C, 0x8D, 0x8E, 0x8F,
    0xA1, 0xA2, 0xA3, 0xA4, 0xA5, 0xA8, 0xA9, 0xAA, 0xAB, 0xAC, 0xAD, 0xAE, 0xAF,
    0xB0, 0xB2, 0xB5, 0xC0, 0xC1, 0xC3, 0xD0, 0xD1, 0xE0]

/-! ## 2. Fields that fit -/

/-- Every field fits its place in the row, and a register write is one that has an opcode. -/
def WellFormed : Command → Prop
  | registerWrite kind _ pair _ _ => (registerDigit? kind pair).isSome
  | waitShort n => n.toNat < 16
  | dacWrite frames => frames.toNat < 16
  | dataBlock block => block.size.toNat = block.payload.size ∧ block.size.toNat < 2 ^ 31
  | ramCopy copy =>
    copy.bank.toNat < 64 ∧ copy.readOffset.toNat < 2 ^ 24 ∧ copy.writeOffset.toNat < 2 ^ 24 ∧
      1 ≤ copy.length.toNat ∧ copy.length.toNat ≤ 2 ^ 24
  | pwmWrite register value => register.toNat < 16 ∧ value.toNat < 2 ^ 12
  | multiPcmWrite _ register _ => register.toNat < 128
  | segaPcmMemory _ address _ => address.toNat < 2 ^ 15
  | multiPcmBank _ channel _ => channel.toNat < 128
  | _ => True

/-! ## 3. Rows -/

/-- The bits of a row that a reader passes over. -/
structure Slack where
  /-- The byte behind the opcode of a block or a copy. -/
  reserved : UInt8 := 0x66
  /-- The top two bits of the bank of a copy. -/
  high : BitVec 2 := 0#2
  deriving DecidableEq

/-- The operands of a command as they stand behind its opcode. -/
def operandRow (slack : Slack) : Command → ByteArray
  | psgWrite _ value | psgStereo _ value => [value].toByteArray
  | registerWrite _ _ _ register value | rf5c68Register register value =>
    [register, value].toByteArray
  | wait frames => Bytes.numeral 2 frames.toNat
  | waitSixtieth | waitFiftieth | waitShort _ | endOfData | dacWrite _ => ByteArray.empty
  | dataBlock block =>
    [slack.reserved, block.type].toByteArray
      ++ (Bytes.numeral 4 (block.size.toNat + block.rank.bit (2 ^ 31)) ++ block.payload)
  | ramCopy copy =>
    [slack.reserved, UInt8.ofNat (copy.bank.toNat + 64 * slack.high.toNat)].toByteArray
      ++ (Bytes.numeral 3 copy.readOffset.toNat ++ (Bytes.numeral 3 copy.writeOffset.toNat
        ++ Bytes.numeral 3 (if copy.length = RamCopy.maxLength then 0 else copy.length.toNat)))
  | pwmWrite register value =>
    [UInt8.ofNat (register.toNat * 16 + value.toNat / 256), UInt8.ofNat value.toNat].toByteArray
  | multiPcmWrite rank register value =>
    [UInt8.ofNat (register.toNat + rank.bit 0x80), value].toByteArray
  | segaPcmMemory rank address value =>
    Bytes.numeral 2 (address.toNat + rank.bit 0x8000) ++ [value].toByteArray
  | rf5c68Memory address value => Bytes.numeral 2 address.toNat ++ [value].toByteArray
  | multiPcmBank rank channel offset =>
    [UInt8.ofNat (channel.toNat + rank.bit 0x80)].toByteArray ++ Bytes.numeral 2 offset.toNat
  | ymf278bWrite part register value | ymf271Write part register value =>
    [part, register, value].toByteArray
  | dacSeek position => Bytes.numeral 4 position.toNat

/-- The row of a command, with the given bits where the format leaves them open. -/
def encodeWith (slack : Slack) (command : Command) : ByteArray :=
  [command.opcode].toByteArray ++ command.operandRow slack

/-- The canonical row of a command. -/
def encode (command : Command) : ByteArray := command.encodeWith {}

/-- A row has at least an opcode. -/
theorem size_encodeWith_pos (slack : Slack) (command : Command) :
    1 ≤ (command.encodeWith slack).size := by
  rw [encodeWith, ByteArray.size_append, List.size_toByteArray]
  simp

end Command

end ChipLog
