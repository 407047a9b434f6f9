/-
# Commands on the machine

A cursor walks over an image as a scan does, but each of its moves is a sum that may leave the word.
It never does: a move comes after a read that has succeeded, and so ends inside the image
(`take_eq`).  The one move without a read is that over a byte that does not count.  It stops at the
last address, but behind an opcode that has been read the last address is out of reach, and there the
cursor moves as the scan does (`Tracks.skip_u8`).

Main statements: the reads of a cursor are reached at every position, in the image or not
(`Cursor.reads_eq`), and so is the command at every position (`parse_eq`).
-/
import ChipLog.Proofs.Command.Stretch
import ChipLog.Proofs.Machine.Checked

namespace ChipLog.Machine

variable {α β : Type}

/-! ## 1. Cursors -/

/-- A reader of an image that moves a position of 64 bits. -/
abbrev Cursor (α : Type) : Type := ReaderT ByteArray (StateT Nat Reading) α

namespace Cursor

/-- Read in the way of `read` and move on by `width` bytes. -/
def take (width : Nat) (read : ByteArray → Nat → Reading α) : Cursor α := fun bytes pos => do
  let value ← read bytes pos
  let next ← add pos width
  return (value, next)

def u8 : Cursor UInt8 := take 1 readU8

def u16 : Cursor UInt16 := take 2 readU16

def u24 : Cursor UInt32 := take 3 readU24

def u32 : Cursor UInt32 := take 4 readU32

/-- The next `size` bytes as they are. -/
def slice (size : Nat) : Cursor ByteArray := take size fun bytes pos => Machine.slice bytes pos size

/-- Move on by `n` bytes, but not beyond the last address. -/
def skip (n : Nat) : Cursor Unit := fun _ pos => pure ((), min (pos + n) Scan.lastAddress)

def fail (fault : Fault) : Cursor α := fun _ _ => throw fault

/-- Name the place that a cursor reads, for its faults. -/
def within (place : Place) (m : Cursor α) : Cursor α := fun bytes pos =>
  ExceptT.adapt (Fault.within place) (m bytes pos)

/-- Compute something without a read. -/
def compute (x : Checked α) : Cursor α := fun _ pos => do
  let value ← x
  return (value, pos)

/-! ## 2. Cursors and scans -/

/-- At a position of an image a cursor does what a scan does, and it ends inside the image. -/
def TracksAt (m : Cursor α) (s : Scan α) (bytes : ByteArray) (pos : Nat) : Prop :=
  m bytes pos = reached (s.on bytes pos) ∧
    ∀ a next, s.on bytes pos = .ok (a, next) → next ≤ bytes.size

/-- A cursor does what a scan does wherever in an image it stands. -/
def Tracks (m : Cursor α) (s : Scan α) : Prop :=
  ∀ bytes pos, bytes.size ≤ maxSize → pos ≤ bytes.size → TracksAt m s bytes pos

variable {bytes : ByteArray} {pos : Nat}

/-- **A move does not panic**: the bytes that are moved over have been read. -/
theorem take_eq {width : Nat} {read : ByteArray → Nat → Reading α}
    {read' : ByteArray → Nat → Except Fault α} (hbytes : bytes.size ≤ maxSize)
    (hread : read bytes pos = reached (read' bytes pos))
    (hfits : ∀ a, read' bytes pos = .ok a → pos + width ≤ bytes.size) :
    TracksAt (take width read) (Scan.take width read') bytes pos := by
  constructor
  · unfold take
    rw [hread, Scan.on_take]
    cases hvalue : read' bytes pos with
    | error fault => rfl
    | ok value =>
      have hnext : pos + width < 2 ^ 64 := by
        have hle := hfits value hvalue
        unfold maxSize at hbytes
        omega
      exact lift_bind (add_of_lt hnext) fun next => pure (value, next)
  · intro a next h
    obtain ⟨hvalue, rfl⟩ := Scan.take_eq_ok_iff.mp h
    exact hfits a hvalue

theorem u8_at (hbytes : bytes.size ≤ maxSize) (pos : Nat) : TracksAt u8 Scan.u8 bytes pos :=
  take_eq hbytes (readU8_eq pos) fun _ => le_of_readNumber

theorem u16_at (hbytes : bytes.size ≤ maxSize) (pos : Nat) : TracksAt u16 Scan.u16 bytes pos :=
  take_eq hbytes (readU16_eq hbytes pos) fun _ => le_of_readNumber

theorem u24_at (hbytes : bytes.size ≤ maxSize) (pos : Nat) : TracksAt u24 Scan.u24 bytes pos :=
  take_eq hbytes (readU24_eq hbytes pos) fun _ => le_of_readNumber

theorem u32_at (hbytes : bytes.size ≤ maxSize) (pos : Nat) : TracksAt u32 Scan.u32 bytes pos :=
  take_eq hbytes (readU32_eq hbytes pos) fun _ => le_of_readNumber

theorem slice_at (hbytes : bytes.size ≤ maxSize) (size pos : Nat) :
    TracksAt (slice size) (Scan.slice size) bytes pos :=
  take_eq hbytes (slice_eq hbytes pos size) fun _ h => (Bytes.slice_eq_ok_iff.mp h).1

/-- **A cursor can be asked to read at any position, and to move by any length.** -/
theorem reads_eq (hbytes : bytes.size ≤ maxSize) (pos : Nat) :
    u8 bytes pos = reached (Scan.u8.on bytes pos) ∧
      u16 bytes pos = reached (Scan.u16.on bytes pos) ∧
      u24 bytes pos = reached (Scan.u24.on bytes pos) ∧
      u32 bytes pos = reached (Scan.u32.on bytes pos) ∧
      ∀ length, slice length bytes pos = reached ((Scan.slice length).on bytes pos) ∧
        skip length bytes pos = reached ((Scan.skip length).on bytes pos) :=
  ⟨(u8_at hbytes pos).1, (u16_at hbytes pos).1, (u24_at hbytes pos).1, (u32_at hbytes pos).1,
    fun length => ⟨(slice_at hbytes length pos).1, rfl⟩⟩

variable {m : Cursor α} {s : Scan α} {f : α → Cursor β} {g : α → Scan β}

theorem TracksAt.bind (hbytes : bytes.size ≤ maxSize) (hm : TracksAt m s bytes pos)
    (hf : ∀ a, Tracks (f a) (g a)) : TracksAt (m >>= f) (s >>= g) bytes pos := by
  obtain ⟨hreached, hle⟩ := hm
  constructor
  · show m bytes pos >>= (fun r => f r.1 bytes r.2) = _
    rw [hreached, Scan.on_bind]
    exact reached_bind fun r hr => (hf r.1 bytes r.2 hbytes (hle r.1 r.2 hr)).1
  · intro b next h
    rw [Scan.on_bind] at h
    cases hr : s.on bytes pos with
    | error fault => rw [hr] at h; cases h
    | ok r =>
      rw [hr] at h
      exact (hf r.1 bytes r.2 hbytes (hle r.1 r.2 hr)).2 b next h

theorem Tracks.bind (hm : Tracks m s) (hf : ∀ a, Tracks (f a) (g a)) :
    Tracks (m >>= f) (s >>= g) :=
  fun bytes pos hbytes hpos => (hm bytes pos hbytes hpos).bind hbytes hf

theorem tracks_pure (a : α) : Tracks (pure a) (pure a) := by
  intro bytes pos _ hpos
  refine ⟨rfl, ?_⟩
  rintro b next ⟨⟩
  exact hpos

theorem tracks_fail (fault : Fault) : Tracks (fail fault : Cursor α) (Scan.fail fault) :=
  fun _ _ _ _ => ⟨rfl, fun _ _ h => nomatch h⟩

theorem Tracks.map (hm : Tracks m s) (f : α → β) : Tracks (f <$> m) (f <$> s) :=
  hm.bind fun a => tracks_pure (f a)

theorem Tracks.within (hm : Tracks m s) (place : Place) : Tracks (m.within place) (s.within place) := by
  intro bytes pos hbytes hpos
  obtain ⟨hreached, hle⟩ := hm bytes pos hbytes hpos
  constructor
  · unfold Cursor.within
    rw [hreached, Scan.on_within]
    cases s.on bytes pos <;> rfl
  · intro a next h
    rw [Scan.on_within] at h
    cases hr : s.on bytes pos with
    | error fault => rw [hr] at h; cases h
    | ok r => rw [hr] at h; cases h; exact hle _ _ hr

/-- What is computed without a panic needs no step of the scan. -/
theorem Tracks.compute {x : Checked α} {a : α} {t : Scan β} (hx : x = .ok a)
    (hf : Tracks (f a) t) : Tracks (Cursor.compute x >>= f) t := by
  subst hx
  exact hf

theorem tracks_u8 : Tracks u8 Scan.u8 := fun _ pos hbytes _ => u8_at hbytes pos

theorem tracks_u16 : Tracks u16 Scan.u16 := fun _ pos hbytes _ => u16_at hbytes pos

theorem tracks_u24 : Tracks u24 Scan.u24 := fun _ pos hbytes _ => u24_at hbytes pos

theorem tracks_u32 : Tracks u32 Scan.u32 := fun _ pos hbytes _ => u32_at hbytes pos

theorem tracks_slice (size : Nat) : Tracks (slice size) (Scan.slice size) :=
  fun _ pos hbytes _ => slice_at hbytes size pos

/-- **Over a byte that does not count.**  From inside the image the last address is far away, and
the position behind the byte may leave the image, but not if the next byte can be read. -/
theorem Tracks.skip_u8 {f : UInt8 → Cursor β} {g : UInt8 → Scan β}
    (hf : ∀ byte, Tracks (f byte) (g byte)) :
    Tracks (do skip 1; let byte ← u8; f byte) (do Scan.advance 1; let byte ← Scan.u8; g byte) := by
  intro bytes pos hbytes hpos
  have hskip : min (pos + 1) Scan.lastAddress = pos + 1 := by
    unfold maxSize at hbytes
    unfold Scan.lastAddress
    omega
  have hrest := (u8_at hbytes (pos + 1)).bind hbytes hf
  refine ⟨?_, hrest.2⟩
  show (u8 >>= f) bytes (min (pos + 1) Scan.lastAddress) = _
  rw [hskip]
  exact hrest.1

end Cursor

/-! ## 3. Operands -/

open Cursor

/-- Two operand bytes: a register and its value. -/
def pairOf (f : UInt8 → UInt8 → α) : Cursor α := do
  let first ← u8
  let second ← u8
  pure (f first second)

/-- Three operand bytes: a part of the chip, a register and its value. -/
def tripleOf (f : UInt8 → UInt8 → UInt8 → α) : Cursor α := do
  let first ← u8
  pairOf (f first)

/-- The operands of a data block. -/
def blockOperands : Cursor DataBlock := do
  skip 1
  let type ← u8
  let raw ← u32
  let size := raw % 0x80000000
  let payload ← (Cursor.slice size.toNat).within .blockPayload
  pure { type, rank := .ofFlag (0x80000000 ≤ raw), payload, size }

/-- The operands of a copy. -/
def copyOperands : Cursor RamCopy := do
  skip 1
  let bank ← u8
  let readOffset ← u24
  let writeOffset ← u24
  let length ← u24
  pure {
    bank := bank % 64
    readOffset
    writeOffset
    length := if length == 0 then RamCopy.maxLength else length }

/-- The operands of a write to one of the memories. -/
def memoryOf (f : UInt16 → UInt8 → α) : Cursor α := do
  let address ← u16
  let value ← u8
  pure (f address value)

/-- The operands of a bank switch. -/
def bankOperands : Cursor Command := do
  let channel ← u8
  let offset ← u16
  pure (.multiPcmBank (.ofFlag (0x80 ≤ channel)) (channel % 0x80) offset)

/-- The operands of a PWM write: four bits of the first byte are the register, and the other four
are shifted to the top of the value. -/
def pwmOperands : Cursor Command := do
  let high ← u8
  let low ← u8
  let top ← compute (shiftUp 16 (high % 16).toNat 8)
  pure (.pwmWrite (high / 16) (UInt16.ofNat (top ||| low.toNat)))

/-- The operands of a register write, unless there is no such write. -/
def registerOperands (rank : Rank) (low : Nat) (unknown : Fault) : Cursor Command :=
  match Command.registerTarget? low with
  | some (kind, pair) => pairOf (.registerWrite kind rank pair)
  | none => fail unknown

/-- The command with the given opcode. -/
def operands (opcode : UInt8) (unknown : Fault) : Cursor Command :=
  match opcode.toNat / 16, opcode.toNat % 16 with
  | 0x3, 0x0 => .psgWrite .secondary <$> u8
  | 0x5, 0x0 => .psgWrite .primary <$> u8
  | 0x3, 0xF => .psgStereo .secondary <$> u8
  | 0x4, 0xF => .psgStereo .primary <$> u8
  | 0x5, low => registerOperands .primary low unknown
  | 0xA, low => registerOperands .secondary low unknown
  | 0x6, 0x1 => .wait <$> u16
  | 0x6, 0x2 => pure .waitSixtieth
  | 0x6, 0x3 => pure .waitFiftieth
  | 0x6, 0x6 => pure .endOfData
  | 0x6, 0x7 => .dataBlock <$> blockOperands
  | 0x6, 0x8 => .ramCopy <$> copyOperands
  | 0x7, _ => pure (.waitShort (opcode % 16))
  | 0x8, _ => pure (.dacWrite (opcode % 16))
  | 0xB, 0x0 => pairOf .rf5c68Register
  | 0xB, 0x2 => pwmOperands
  | 0xB, 0x5 => pairOf fun register value =>
      .multiPcmWrite (.ofFlag (0x80 ≤ register)) (register % 0x80) value
  | 0xC, 0x0 => memoryOf fun address value =>
      .segaPcmMemory (.ofFlag (0x8000 ≤ address)) (address % 0x8000) value
  | 0xC, 0x1 => memoryOf .rf5c68Memory
  | 0xC, 0x3 => bankOperands
  | 0xD, 0x0 => tripleOf .ymf278bWrite
  | 0xD, 0x1 => tripleOf .ymf271Write
  | 0xE, 0x0 => .dacSeek <$> u32
  | _, _ => fail unknown

theorem tracks_pairOf (f : UInt8 → UInt8 → α) : Tracks (pairOf f) (Command.pairOf f) :=
  tracks_u8.bind fun first => tracks_u8.bind fun second => tracks_pure (f first second)

theorem tracks_tripleOf (f : UInt8 → UInt8 → UInt8 → α) :
    Tracks (tripleOf f) (Command.tripleOf f) :=
  tracks_u8.bind fun first => tracks_pairOf (f first)

theorem tracks_memoryOf (f : UInt16 → UInt8 → α) : Tracks (memoryOf f) (Command.memoryOf f) :=
  tracks_u16.bind fun address => tracks_u8.bind fun value => tracks_pure (f address value)

theorem tracks_bankOperands : Tracks bankOperands Command.bankOperands :=
  tracks_u8.bind fun _ => tracks_u16.bind fun _ => tracks_pure _

theorem tracks_blockOperands : Tracks blockOperands Command.blockOperands :=
  Tracks.skip_u8 fun _ => tracks_u32.bind fun _ =>
    ((tracks_slice _).within .blockPayload).bind fun _ => tracks_pure _

theorem tracks_copyOperands : Tracks copyOperands Command.copyOperands :=
  Tracks.skip_u8 fun _ => tracks_u24.bind fun _ => tracks_u24.bind fun _ =>
    tracks_u24.bind fun _ => tracks_pure _

theorem tracks_pwmOperands :
    Tracks pwmOperands (Command.pairOf fun high low =>
      .pwmWrite (high / 16) ((high % 16).toUInt16 * 256 + low.toUInt16)) := by
  refine tracks_u8.bind fun high => tracks_u8.bind fun low => ?_
  have hlow := low.toNat_lt
  have hhigh : (high % 16).toNat = high.toNat % 16 := by simp
  have hvalue : UInt16.ofNat ((high % 16).toNat <<< 8 ||| low.toNat) =
      (high % 16).toUInt16 * 256 + low.toUInt16 := by
    rw [← UInt16.toNat_inj, Command.toNat_pwmValue, UInt16.toNat_ofNat', hhigh,
      ← Nat.shiftLeft_add_eq_or_of_lt hlow, Nat.shiftLeft_eq]
    omega
  show Tracks _ (pure (Command.pwmWrite (high / 16) ((high % 16).toUInt16 * 256 + low.toUInt16)))
  rw [← hvalue]
  refine Tracks.compute (shiftUp_of_lt (by omega) ?_) (tracks_pure _)
  rw [Nat.shiftLeft_eq, hhigh]
  omega

theorem tracks_registerOperands (rank : Rank) (low : Nat) (unknown : Fault) :
    Tracks (registerOperands rank low unknown) (Command.registerOperands rank low unknown) := by
  unfold registerOperands Command.registerOperands
  cases Command.registerTarget? low with
  | none => exact tracks_fail unknown
  | some target => exact tracks_pairOf _

/-- **The operands of every opcode are read as the scan reads them.** -/
theorem tracks_operands (opcode : UInt8) (unknown : Fault) :
    Tracks (operands opcode unknown) (Command.operands opcode unknown) := by
  unfold operands Command.operands
  generalize opcode.toNat / 16 = high
  generalize opcode.toNat % 16 = low
  split
  · exact tracks_u8.map _
  · exact tracks_u8.map _
  · exact tracks_u8.map _
  · exact tracks_u8.map _
  · -- a low digit of zero is the byte for the PSG, which stands in front
    split
    case h_5 => exact tracks_registerOperands _ _ _
    all_goals simp_all
  · exact tracks_registerOperands _ _ _
  · exact tracks_u16.map _
  · exact tracks_pure _
  · exact tracks_pure _
  · exact tracks_pure _
  · exact tracks_blockOperands.map _
  · exact tracks_copyOperands.map _
  · exact tracks_pure _
  · exact tracks_pure _
  · exact tracks_pairOf _
  · exact tracks_pwmOperands
  · exact tracks_pairOf _
  · exact tracks_memoryOf _
  · exact tracks_memoryOf _
  · exact tracks_bankOperands
  · exact tracks_tripleOf _
  · exact tracks_tripleOf _
  · exact tracks_u32.map _
  · -- a pair of digits that is in no row here is in no row there
    split
    case h_24 => exact tracks_fail _
    all_goals simp_all

/-! ## 4. Whole commands -/

/-- A command that begins at `start`. -/
def scan (start : Nat) : Cursor Command := do
  let opcode ← u8
  operands opcode (.unknownOpcode opcode start)

/-- The command at `pos`, and the number of bytes it takes. -/
def parse (bytes : ByteArray) (pos : Nat) : Reading (Command × Nat) := do
  let (command, next) ← scan pos bytes pos
  let length ← sub next pos
  return (command, length)

/-- **A command can be asked for at every position of every image.** -/
theorem parse_eq {bytes : ByteArray} (hbytes : bytes.size ≤ maxSize) (pos : Nat) :
    parse bytes pos = reached (Command.parse bytes pos) := by
  have hscan : TracksAt (scan pos) (Command.scan pos) bytes pos :=
    (u8_at hbytes pos).bind hbytes fun opcode => tracks_operands opcode _
  unfold parse Command.parse
  rw [hscan.1]
  cases hr : (Command.scan pos).on bytes pos with
  | error fault => rfl
  | ok r =>
    -- no operand is read backwards, so the length can be taken from the two positions
    have hforward : pos ≤ r.2 := Scan.Forward.bind (Scan.Forward.take _ _)
      (fun _ => Command.forward_operands _ _) bytes pos r.1 r.2 hr
    exact lift_bind (sub_of_le hforward) fun length => pure (r.1, length)

end ChipLog.Machine
