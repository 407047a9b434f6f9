/-
# Reading commands

The first byte of a command says what it is and how its operands are laid out.  A byte that
stands for no command cannot be skipped, since nobody knows how long such a command is.

Main statement: a command that is read begins inside the image and takes at least one byte
(`Command.parse_progress`), so reading command after command comes to an end.
-/
import ChipLog.Bytes.Scan
import ChipLog.Command.Basic

namespace ChipLog.Command

/-! ## 1. Operands -/

/-- The chip and the pair of bus addresses that a register write with this low digit is for. -/
def registerTarget? : (low : Nat) → Option (ChipKind × UInt8)
  | 0x1 => some (.ym2413, 0)
  | 0x2 => some (.ym2612, 0)
  | 0x3 => some (.ym2612, 1)
  | 0x4 => some (.ym2151, 0)
  | 0x5 => some (.ym2203, 0)
  | 0x8 => some (.ym2610, 0)
  | 0x9 => some (.ym2610, 1)
  | 0xA => some (.ym3812, 0)
  | 0xB => some (.ym3526, 0)
  | 0xC => some (.y8950, 0)
  | 0xD => some (.ymz280b, 0)
  | 0xE => some (.ymf262, 0)
  | 0xF => some (.ymf262, 1)
  | _ => none

/-- Two operand bytes: a register and its value. -/
def pairOf {α : Type} (f : UInt8 → UInt8 → α) : Scan α := do
  let first ← Scan.u8
  let second ← Scan.u8
  pure (f first second)

/-- Three operand bytes: a part of the chip, a register and its value. -/
def tripleOf {α : Type} (f : UInt8 → UInt8 → UInt8 → α) : Scan α := do
  let first ← Scan.u8
  pairOf (f first)

/-- The operands of a data block: a byte that does not count, the type, the size with the
rank in its top bit, and the payload. -/
def blockOperands : Scan DataBlock := do
  Scan.advance 1
  let type ← Scan.u8
  let raw ← Scan.u32
  let size := raw % 0x80000000
  let payload ← (Scan.slice size.toNat).within .blockPayload
  pure { type, rank := .ofFlag (0x80000000 ≤ raw), payload, size }

/-- The operands of a copy: a byte that does not count, the bank, two offsets and a length. -/
def copyOperands : Scan RamCopy := do
  Scan.advance 1
  let bank ← Scan.u8
  let readOffset ← Scan.u24
  let writeOffset ← Scan.u24
  let length ← Scan.u24
  pure {
    bank := bank % 64
    readOffset
    writeOffset
    length := if length == 0 then RamCopy.maxLength else length }

/-- The operands of a write to one of the memories: an address and a byte. -/
def memoryOf {α : Type} (f : UInt16 → UInt8 → α) : Scan α := do
  let address ← Scan.u16
  let value ← Scan.u8
  pure (f address value)

/-- The operands of a bank switch: the channel with the rank in its top bit, and the bank. -/
def bankOperands : Scan Command := do
  let channel ← Scan.u8
  let offset ← Scan.u16
  pure (multiPcmBank (.ofFlag (0x80 ≤ channel)) (channel % 0x80) offset)

/-- The operands of a register write, unless there is no such write. -/
def registerOperands (rank : Rank) (low : Nat) (unknown : Fault) : Scan Command :=
  match registerTarget? low with
  | some (kind, pair) => pairOf (registerWrite kind rank pair)
  | none => Scan.fail unknown

/-- The command with the given opcode, whose operands come next.  The fault of an opcode that
stands for no command is `unknown`. -/
def operands (opcode : UInt8) (unknown : Fault) : Scan Command :=
  match opcode.toNat / 16, opcode.toNat % 16 with
  | 0x3, 0x0 => psgWrite .secondary <$> Scan.u8
  | 0x3, 0xF => psgStereo .secondary <$> Scan.u8
  | 0x4, 0xF => psgStereo .primary <$> Scan.u8
  | 0x5, 0x0 => psgWrite .primary <$> Scan.u8
  | 0x5, low => registerOperands .primary low unknown
  | 0x6, 0x1 => wait <$> Scan.u16
  | 0x6, 0x2 => pure waitSixtieth
  | 0x6, 0x3 => pure waitFiftieth
  | 0x6, 0x6 => pure endOfData
  | 0x6, 0x7 => dataBlock <$> blockOperands
  | 0x6, 0x8 => ramCopy <$> copyOperands
  | 0x7, _ => pure (waitShort (opcode % 16))
  | 0x8, _ => pure (dacWrite (opcode % 16))
  | 0xA, low => registerOperands .secondary low unknown
  | 0xB, 0x0 => pairOf rf5c68Register
  | 0xB, 0x2 => pairOf fun high low =>
      pwmWrite (high / 16) ((high % 16).toUInt16 * 256 + low.toUInt16)
  | 0xB, 0x5 => pairOf fun register value =>
      multiPcmWrite (.ofFlag (0x80 ≤ register)) (register % 0x80) value
  | 0xC, 0x0 => memoryOf fun address value =>
      segaPcmMemory (.ofFlag (0x8000 ≤ address)) (address % 0x8000) value
  | 0xC, 0x1 => memoryOf rf5c68Memory
  | 0xC, 0x3 => bankOperands
  | 0xD, 0x0 => tripleOf ymf278bWrite
  | 0xD, 0x1 => tripleOf ymf271Write
  | 0xE, 0x0 => dacSeek <$> Scan.u32
  | _, _ => Scan.fail unknown

/-! ## 2. Whole commands -/

/-- A command that begins at `start`. -/
def scan (start : Nat) : Scan Command := do
  let opcode ← Scan.u8
  operands opcode (.unknownOpcode opcode start)

/-- The command at `pos`, and the number of bytes it takes. -/
def parse (bytes : ByteArray) (pos : Nat) : Except Fault (Command × Nat) :=
  ((scan pos).on bytes pos).map fun r => (r.1, r.2 - pos)

/-! ## 3. Progress -/

section Progress

open Scan

theorem forward_pairOf {α : Type} (f : UInt8 → UInt8 → α) : Forward (pairOf f) :=
  (Forward.take _ _).bind fun _ => (Forward.take _ _).bind fun _ => Forward.pure _

theorem forward_tripleOf {α : Type} (f : UInt8 → UInt8 → UInt8 → α) : Forward (tripleOf f) :=
  (Forward.take _ _).bind fun _ => forward_pairOf _

theorem forward_memoryOf {α : Type} (f : UInt16 → UInt8 → α) : Forward (memoryOf f) :=
  (Forward.take _ _).bind fun _ => (Forward.take _ _).bind fun _ => Forward.pure _

theorem forward_blockOperands : Forward blockOperands :=
  (Forward.advance _).bind fun _ => (Forward.take _ _).bind fun _ =>
    (Forward.take _ _).bind fun _ => ((Forward.take _ _).within _).bind fun _ => Forward.pure _

theorem forward_copyOperands : Forward copyOperands :=
  (Forward.advance _).bind fun _ => (Forward.take _ _).bind fun _ =>
    (Forward.take _ _).bind fun _ => (Forward.take _ _).bind fun _ =>
      (Forward.take _ _).bind fun _ => Forward.pure _

theorem forward_bankOperands : Forward bankOperands :=
  (Forward.take _ _).bind fun _ => (Forward.take _ _).bind fun _ => Forward.pure _

theorem forward_registerOperands (rank : Rank) (low : Nat) (unknown : Fault) :
    Forward (registerOperands rank low unknown) := by
  unfold registerOperands
  split
  · exact forward_pairOf _
  · exact Forward.fail _

/-- No operand is read backwards. -/
theorem forward_operands (opcode : UInt8) (unknown : Fault) :
    Forward (operands opcode unknown) := by
  unfold operands
  split
  · exact (Forward.take _ _).map _
  · exact (Forward.take _ _).map _
  · exact (Forward.take _ _).map _
  · exact (Forward.take _ _).map _
  · exact forward_registerOperands _ _ _
  · exact (Forward.take _ _).map _
  · exact Forward.pure _
  · exact Forward.pure _
  · exact Forward.pure _
  · exact forward_blockOperands.map _
  · exact forward_copyOperands.map _
  · exact Forward.pure _
  · exact Forward.pure _
  · exact forward_registerOperands _ _ _
  · exact forward_pairOf _
  · exact forward_pairOf _
  · exact forward_pairOf _
  · exact forward_memoryOf _
  · exact forward_memoryOf _
  · exact forward_bankOperands
  · exact forward_tripleOf _
  · exact forward_tripleOf _
  · exact (Forward.take _ _).map _
  · exact Forward.fail _

/-- A command that is read begins inside the image and takes at least one byte. -/
theorem parse_progress {bytes : ByteArray} {pos length : Nat} {command : Command}
    (h : parse bytes pos = .ok (command, length)) : pos < bytes.size ∧ 0 < length := by
  unfold parse at h
  cases hs : (scan pos).on bytes pos with
  | error e => rw [hs] at h; cases h
  | ok r =>
    rw [hs] at h
    unfold scan at hs
    rw [on_bind] at hs
    cases ho : u8.on bytes pos with
    | error e => rw [ho] at hs; cases hs
    | ok opcode =>
      rw [ho] at hs
      obtain ⟨value, next⟩ := opcode
      obtain ⟨hread, rfl⟩ := take_eq_ok_iff.mp ho
      have hsize : pos + 1 ≤ bytes.size := by
        unfold Bytes.readU8 Bytes.readNumber at hread
        split at hread
        · assumption
        · cases hread
      have hnext : pos + 1 ≤ r.2 := forward_operands _ _ bytes (pos + 1) r.1 r.2 hs
      cases h
      exact ⟨by omega, by omega⟩

end Progress

end ChipLog.Command
