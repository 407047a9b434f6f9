/-
# The grammar of the command stream

`Command.parse` reads one command at a position of an image.  This module compares it with the
rows of `Command.encodeWith`: reading a position yields a command exactly if a row of that
command stands there, and the number of bytes it reports is the size of that row
(`parse_eq_ok_iff`).

What else can happen is settled as well.  A byte that begins no command is reported with its
place (`parse_eq_unknownOpcode_iff`), and in every other case of failure the image ends before
the command does (`parse_eq_error_cases`).

The opcode decides everything, so the work is done opcode by opcode, in two passes.  One takes
the cases of the reader: what an opcode makes it accept is a row of a well-formed command with
that opcode (`reads_operands`).  The other takes the cases of the commands: the opcode of a
well-formed command makes the reader accept the operands of that command (`on_operands`).
-/
import ChipLog.Proofs.Command.Operands

namespace ChipLog.Command

open Scan Bytes

/-! ## 1. The opcodes by their digits -/

/-- The opcodes by their digits. -/
theorem mem_opcodes_iff (opcode : UInt8) :
    opcode ∈ opcodes ↔
      (opcode.toNat / 16 = 3 ∧ (opcode.toNat % 16 = 0 ∨ opcode.toNat % 16 = 15)) ∨
      (opcode.toNat / 16 = 4 ∧ opcode.toNat % 16 = 15) ∨
      (opcode.toNat / 16 = 5 ∧
        (opcode.toNat % 16 = 0 ∨ (registerTarget? (opcode.toNat % 16)).isSome)) ∨
      (opcode.toNat / 16 = 6 ∧
        (opcode.toNat % 16 = 1 ∨ opcode.toNat % 16 = 2 ∨ opcode.toNat % 16 = 3 ∨
          opcode.toNat % 16 = 6 ∨ opcode.toNat % 16 = 7 ∨ opcode.toNat % 16 = 8)) ∨
      opcode.toNat / 16 = 7 ∨ opcode.toNat / 16 = 8 ∨
      (opcode.toNat / 16 = 10 ∧ (registerTarget? (opcode.toNat % 16)).isSome) ∨
      (opcode.toNat / 16 = 11 ∧
        (opcode.toNat % 16 = 0 ∨ opcode.toNat % 16 = 2 ∨ opcode.toNat % 16 = 5)) ∨
      (opcode.toNat / 16 = 12 ∧
        (opcode.toNat % 16 = 0 ∨ opcode.toNat % 16 = 1 ∨ opcode.toNat % 16 = 3)) ∨
      (opcode.toNat / 16 = 13 ∧ (opcode.toNat % 16 = 0 ∨ opcode.toNat % 16 = 1)) ∨
      (opcode.toNat / 16 = 14 ∧ opcode.toNat % 16 = 0) := by
  obtain ⟨⟨n⟩⟩ := opcode
  revert n
  decide +kernel

/-! ## 2. What an opcode makes the reader accept -/

/-- `row` is a row of operands of the well-formed command `c`, whose opcode is `opcode`. -/
def Spelt (opcode : UInt8) (c : Command) (row : ByteArray) : Prop :=
  c.WellFormed ∧ c.opcode = opcode ∧ ∃ slack, row = c.operandRow slack

/-- A scan for the operands of `opcode`: it accepts only rows of commands with that opcode, and
it fails only if the image ends. -/
structure Reads (opcode : UInt8) (m : Scan Command) : Prop where
  mem : opcode ∈ opcodes
  failsShort : FailsShort m
  sound : ∃ spells, Recognises m spells ∧ ∀ c row, spells c row → Spelt opcode c row

/-- The digit of a register write leads back to its target. -/
theorem registerDigit?_eq {low : Nat} {kind : ChipKind} {pair : UInt8}
    (h : registerTarget? low = some (kind, pair)) :
    registerDigit? kind pair = some (UInt8.ofNat low) := by
  unfold registerTarget? at h
  split at h <;> cases h <;> rfl

theorem spelt_multiPcmWrite (field value : UInt8) :
    Spelt 0xB5 (multiPcmWrite (.ofFlag (0x80 ≤ field)) (field % 0x80) value)
      [field, value].toByteArray := by
  obtain ⟨hlow, hfield⟩ := Rank.word8_split field
  refine ⟨hlow, rfl, {}, ?_⟩
  rw [operandRow, hfield, UInt8.ofNat_toNat]

theorem spelt_pwmWrite (high low : UInt8) :
    Spelt 0xB2 (pwmWrite (high / 16) ((high % 16).toUInt16 * 256 + low.toUInt16))
      [high, low].toByteArray := by
  have hhigh := high.toNat_lt
  have hlow := low.toNat_lt
  have hvalue := toNat_pwmValue high low
  have hregister : (high / 16).toNat = high.toNat / 16 := UInt8.toNat_div _ _
  refine ⟨⟨by omega, by omega⟩, rfl, {}, ?_⟩
  have hfirst :
      (high / 16).toNat * 16 + (high.toNat % 16 * 256 + low.toNat) / 256 = high.toNat := by
    omega
  have hsecond : UInt8.ofNat (high.toNat % 16 * 256 + low.toNat) = low := by
    rw [← UInt8.toNat_inj, UInt8.toNat_ofNat']
    omega
  rw [operandRow, hvalue, hfirst, hsecond, UInt8.ofNat_toNat]

theorem spelt_segaPcmMemory (field : UInt16) (value : UInt8) :
    Spelt 0xC0 (segaPcmMemory (.ofFlag (0x8000 ≤ field)) (field % 0x8000) value)
      (numeral 2 field.toNat ++ [value].toByteArray) := by
  obtain ⟨hlow, hfield⟩ := Rank.word16_split field
  refine ⟨hlow, rfl, {}, ?_⟩
  rw [operandRow, hfield]

theorem spelt_multiPcmBank (field : UInt8) (offset : UInt16) :
    Spelt 0xC3 (multiPcmBank (.ofFlag (0x80 ≤ field)) (field % 0x80) offset)
      ([field].toByteArray ++ numeral 2 offset.toNat) := by
  obtain ⟨hlow, hfield⟩ := Rank.word8_split field
  refine ⟨hlow, rfl, {}, ?_⟩
  rw [operandRow, hfield, UInt8.ofNat_toNat]

theorem spelt_dataBlock {block : DataBlock} {row : ByteArray} (h : BlockRow block row) :
    Spelt 0x67 (dataBlock block) row := by
  obtain ⟨skipped, type, raw, payload, rfl, hsize, rfl⟩ := h
  obtain ⟨hlow, hfield⟩ := Rank.word32_split raw
  refine ⟨⟨hsize.symm, hlow⟩, rfl, { reserved := skipped }, ?_⟩
  have hraw : (raw % 0x80000000).toNat + (Rank.ofFlag (0x80000000 ≤ raw)).bit (2 ^ 31) =
      raw.toNat := hfield
  rw [operandRow, hraw]

theorem spelt_ramCopy {copy : RamCopy} {row : ByteArray} (h : CopyRow copy row) :
    Spelt 0x68 (ramCopy copy) row := by
  obtain ⟨skipped, bank, readOffset, writeOffset, field, ⟨hread, hwrite, hfield⟩, rfl, rfl⟩ := h
  obtain ⟨hpos, hle, hrow⟩ := copyLength_field hfield
  have hbyte := bank.toNat_lt
  have hbank : (bank % 64).toNat = bank.toNat % 64 := UInt8.toNat_mod _ _
  have hhigh : (BitVec.ofNat 2 (bank.toNat / 64)).toNat = bank.toNat / 64 := by
    rw [BitVec.toNat_ofNat]
    omega
  refine ⟨⟨?_, hread, hwrite, hpos, hle⟩, rfl,
    { reserved := skipped, high := BitVec.ofNat 2 (bank.toNat / 64) }, ?_⟩
  · show (bank % 64).toNat < 64
    omega
  · have hjoin : bank.toNat % 64 + 64 * (bank.toNat / 64) = bank.toNat := Nat.mod_add_div _ _
    simp only [operandRow, hrow, hbank, hhigh, hjoin, UInt8.ofNat_toNat]

theorem spelt_waitShort {opcode : UInt8} (hhigh : opcode.toNat / 16 = 7) :
    Spelt opcode (waitShort (opcode % 16)) ByteArray.empty :=
  ⟨toNat_low_lt opcode, high_add_low hhigh, {}, rfl⟩

theorem spelt_dacWrite {opcode : UInt8} (hhigh : opcode.toNat / 16 = 8) :
    Spelt opcode (dacWrite (opcode % 16)) ByteArray.empty :=
  ⟨toNat_low_lt opcode, high_add_low hhigh, {}, rfl⟩

section Reads

variable {opcode : UInt8}

theorem Reads.pure {c : Command} (hmem : opcode ∈ opcodes)
    (h : Spelt opcode c ByteArray.empty) : Reads opcode (pure c) := by
  refine ⟨hmem, FailsShort.pure c, _, recognises_pure c, ?_⟩
  rintro _ _ ⟨rfl, rfl⟩
  exact h

theorem Reads.map_u8 {f : UInt8 → Command} (hmem : opcode ∈ opcodes)
    (h : ∀ v, Spelt opcode (f v) [v].toByteArray) : Reads opcode (f <$> u8) := by
  refine ⟨hmem, failsShort_u8.map f, _, recognises_u8.map f, ?_⟩
  rintro _ _ ⟨v, rfl, rfl⟩
  exact h v

theorem Reads.map_u16 {f : UInt16 → Command} (hmem : opcode ∈ opcodes)
    (h : ∀ v, Spelt opcode (f v) (numeral 2 v.toNat)) : Reads opcode (f <$> u16) := by
  refine ⟨hmem, failsShort_u16.map f, _, recognises_u16.map f, ?_⟩
  rintro _ _ ⟨v, rfl, rfl⟩
  exact h v

theorem Reads.map_u32 {f : UInt32 → Command} (hmem : opcode ∈ opcodes)
    (h : ∀ v, Spelt opcode (f v) (numeral 4 v.toNat)) : Reads opcode (f <$> u32) := by
  refine ⟨hmem, failsShort_u32.map f, _, recognises_u32.map f, ?_⟩
  rintro _ _ ⟨v, rfl, rfl⟩
  exact h v

theorem Reads.pairOf {f : UInt8 → UInt8 → Command} (hmem : opcode ∈ opcodes)
    (h : ∀ first second, Spelt opcode (f first second) [first, second].toByteArray) :
    Reads opcode (pairOf f) := by
  refine ⟨hmem, failsShort_pairOf f, _, recognises_pairOf f, ?_⟩
  rintro _ _ ⟨first, second, rfl, rfl⟩
  exact h first second

theorem Reads.tripleOf {f : UInt8 → UInt8 → UInt8 → Command} (hmem : opcode ∈ opcodes)
    (h : ∀ part first second,
      Spelt opcode (f part first second) [part, first, second].toByteArray) :
    Reads opcode (tripleOf f) := by
  refine ⟨hmem, failsShort_tripleOf f, _, recognises_tripleOf f, ?_⟩
  rintro _ _ ⟨part, first, second, rfl, rfl⟩
  exact h part first second

theorem Reads.memoryOf {f : UInt16 → UInt8 → Command} (hmem : opcode ∈ opcodes)
    (h : ∀ address value,
      Spelt opcode (f address value) (numeral 2 address.toNat ++ [value].toByteArray)) :
    Reads opcode (memoryOf f) := by
  refine ⟨hmem, failsShort_memoryOf f, _, recognises_memoryOf f, ?_⟩
  rintro _ _ ⟨address, value, rfl, rfl⟩
  exact h address value

/-- The operands of a register write, whose opcodes are those with a target. -/
theorem reads_registerOperands {rank : Rank} {unknown : Fault}
    (hopcode : ∀ kind pair register value,
      registerTarget? (opcode.toNat % 16) = some (kind, pair) →
        (registerWrite kind rank pair register value).opcode = opcode)
    (hmem : opcode ∈ opcodes ↔ (registerTarget? (opcode.toNat % 16)).isSome) :
    Reads opcode (registerOperands rank (opcode.toNat % 16) unknown) ∨
      (opcode ∉ opcodes ∧ registerOperands rank (opcode.toNat % 16) unknown = fail unknown) := by
  cases htarget : registerTarget? (opcode.toNat % 16) with
  | none =>
    rw [htarget] at hmem
    exact .inr ⟨by simpa using hmem, by rw [registerOperands, htarget]⟩
  | some target =>
    obtain ⟨kind, pair⟩ := target
    have hscan : registerOperands rank (opcode.toNat % 16) unknown =
        pairOf (registerWrite kind rank pair) := by rw [registerOperands, htarget]
    rw [hscan]
    refine .inl (.pairOf (hmem.mpr (by rw [htarget]; rfl)) fun register value => ?_)
    have hwell : (registerWrite kind rank pair register value).WellFormed := by
      rw [WellFormed, registerDigit?_eq htarget]
      rfl
    exact ⟨hwell, hopcode kind pair register value htarget, {}, rfl⟩

end Reads

/-- **Soundness, opcode by opcode.**  An opcode either stands for a command, and then the reader
takes a row of operands of such a command, or it is refused. -/
theorem reads_operands (opcode : UInt8) (unknown : Fault) :
    Reads opcode (operands opcode unknown) ∨
      (opcode ∉ opcodes ∧ operands opcode unknown = fail unknown) := by
  unfold operands
  split
  case h_1 hhigh hlow =>
    obtain rfl := eq_of_digits hhigh hlow
    exact .inl (.map_u8 (by decide) fun v => ⟨trivial, rfl, {}, rfl⟩)
  case h_2 hhigh hlow =>
    obtain rfl := eq_of_digits hhigh hlow
    exact .inl (.map_u8 (by decide) fun v => ⟨trivial, rfl, {}, rfl⟩)
  case h_3 hhigh hlow =>
    obtain rfl := eq_of_digits hhigh hlow
    exact .inl (.map_u8 (by decide) fun v => ⟨trivial, rfl, {}, rfl⟩)
  case h_4 hhigh hlow =>
    obtain rfl := eq_of_digits hhigh hlow
    exact .inl (.map_u8 (by decide) fun v => ⟨trivial, rfl, {}, rfl⟩)
  case h_5 hhigh hlow =>
    refine reads_registerOperands (fun kind pair register value htarget => ?_) ?_
    · rw [Command.opcode, registerDigit?_eq htarget, ← low_eq_ofNat]
      exact high_add_low hhigh
    · -- the digit 0 would be a byte for the PSG, which has been taken above
      simpa [mem_opcodes_iff, hhigh] using fun h => (hlow h).elim
  case h_6 hhigh hlow =>
    obtain rfl := eq_of_digits hhigh hlow
    exact .inl (.map_u16 (by decide) fun v => ⟨trivial, rfl, {}, rfl⟩)
  case h_7 hhigh hlow =>
    obtain rfl := eq_of_digits hhigh hlow
    exact .inl (.pure (by decide) ⟨trivial, rfl, {}, rfl⟩)
  case h_8 hhigh hlow =>
    obtain rfl := eq_of_digits hhigh hlow
    exact .inl (.pure (by decide) ⟨trivial, rfl, {}, rfl⟩)
  case h_9 hhigh hlow =>
    obtain rfl := eq_of_digits hhigh hlow
    exact .inl (.pure (by decide) ⟨trivial, rfl, {}, rfl⟩)
  case h_10 hhigh hlow =>
    obtain rfl := eq_of_digits hhigh hlow
    refine .inl ⟨by decide, failsShort_blockOperands.map _, _, recognises_blockOperands.map _, ?_⟩
    rintro _ _ ⟨block, hrow, rfl⟩
    exact spelt_dataBlock hrow
  case h_11 hhigh hlow =>
    obtain rfl := eq_of_digits hhigh hlow
    refine .inl ⟨by decide, failsShort_copyOperands.map _, _, recognises_copyOperands.map _, ?_⟩
    rintro _ _ ⟨copy, hrow, rfl⟩
    exact spelt_ramCopy hrow
  case h_12 hhigh =>
    exact .inl (.pure (by simp [mem_opcodes_iff, hhigh]) (spelt_waitShort hhigh))
  case h_13 hhigh =>
    exact .inl (.pure (by simp [mem_opcodes_iff, hhigh]) (spelt_dacWrite hhigh))
  case h_14 hhigh =>
    refine reads_registerOperands (fun kind pair register value htarget => ?_) ?_
    · rw [Command.opcode, registerDigit?_eq htarget, ← low_eq_ofNat]
      exact high_add_low hhigh
    · simp [mem_opcodes_iff, hhigh]
  case h_15 hhigh hlow =>
    obtain rfl := eq_of_digits hhigh hlow
    exact .inl (.pairOf (by decide) fun _ _ => ⟨trivial, rfl, {}, rfl⟩)
  case h_16 hhigh hlow =>
    obtain rfl := eq_of_digits hhigh hlow
    exact .inl (.pairOf (by decide) spelt_pwmWrite)
  case h_17 hhigh hlow =>
    obtain rfl := eq_of_digits hhigh hlow
    exact .inl (.pairOf (by decide) spelt_multiPcmWrite)
  case h_18 hhigh hlow =>
    obtain rfl := eq_of_digits hhigh hlow
    exact .inl (.memoryOf (by decide) spelt_segaPcmMemory)
  case h_19 hhigh hlow =>
    obtain rfl := eq_of_digits hhigh hlow
    exact .inl (.memoryOf (by decide) fun _ _ => ⟨trivial, rfl, {}, rfl⟩)
  case h_20 hhigh hlow =>
    obtain rfl := eq_of_digits hhigh hlow
    refine .inl ⟨by decide, failsShort_bankOperands, _, recognises_bankOperands, ?_⟩
    rintro _ _ ⟨channel, offset, rfl, rfl⟩
    exact spelt_multiPcmBank channel offset
  case h_21 hhigh hlow =>
    obtain rfl := eq_of_digits hhigh hlow
    exact .inl (.tripleOf (by decide) fun _ _ _ => ⟨trivial, rfl, {}, rfl⟩)
  case h_22 hhigh hlow =>
    obtain rfl := eq_of_digits hhigh hlow
    exact .inl (.tripleOf (by decide) fun _ _ _ => ⟨trivial, rfl, {}, rfl⟩)
  case h_23 hhigh hlow =>
    obtain rfl := eq_of_digits hhigh hlow
    exact .inl (.map_u32 (by decide) fun v => ⟨trivial, rfl, {}, rfl⟩)
  case h_24 =>
    -- the digits of every opcode lead to one of the cases above
    refine .inr ⟨?_, rfl⟩
    rw [mem_opcodes_iff]
    grind

/-! ## 3. What the reader accepts -/

section Complete

variable {bytes : ByteArray} {pos : Nat}

/-- The operands of a register write are a register and its value. -/
theorem operands_registerWrite {kind : ChipKind} {pair digit : UInt8}
    (hdigit : registerDigit? kind pair = some digit) (rank : Rank) (register value : UInt8)
    (unknown : Fault) :
    operands (registerWrite kind rank pair register value).opcode unknown =
      pairOf (registerWrite kind rank pair) := by
  cases rank
  all_goals
    rw [Command.opcode, hdigit]
    unfold registerDigit? at hdigit
    split at hdigit <;> cases hdigit <;> rfl

theorem blockRow_operandRow {block : DataBlock} (hc : (dataBlock block).WellFormed)
    (slack : Slack) : BlockRow block (operandRow slack (dataBlock block)) := by
  obtain ⟨hsize, hlt⟩ := hc
  have hto : (UInt32.ofNat (block.size.toNat + block.rank.bit (2 ^ 31))).toNat =
      block.size.toNat + block.rank.bit (2 ^ 31) :=
    UInt32.toNat_ofNat_of_lt' (block.rank.add_bit_lt hlt)
  obtain ⟨hrank, hlow⟩ := Rank.word32_join hlt hto
  refine ⟨slack.reserved, block.type, _, block.payload, by rw [hto]; rfl, ?_, ?_⟩
  · rw [hlow, hsize]
  · rw [hrank, hlow]

theorem copyRow_operandRow {copy : RamCopy} (hc : (ramCopy copy).WellFormed) (slack : Slack) :
    CopyRow copy (operandRow slack (ramCopy copy)) := by
  obtain ⟨hbank, hread, hwrite, hpos, hle⟩ := hc
  obtain ⟨field, hlt, hlength, hfield⟩ := copyLength_of_length hpos hle
  have hto : (UInt8.ofNat (copy.bank.toNat + 64 * slack.high.toNat)).toNat =
      copy.bank.toNat + 64 * slack.high.toNat := by
    have := slack.high.isLt
    rw [UInt8.toNat_ofNat', Nat.mod_eq_of_lt (by omega)]
  have hlow : UInt8.ofNat (copy.bank.toNat + 64 * slack.high.toNat) % 64 = copy.bank := by
    rw [← UInt8.toNat_inj, UInt8.toNat_mod, hto]
    exact (Nat.add_mul_mod_self_left _ 64 _).trans (Nat.mod_eq_of_lt hbank)
  refine ⟨slack.reserved, UInt8.ofNat (copy.bank.toNat + 64 * slack.high.toNat), copy.readOffset,
    copy.writeOffset, field, ⟨hread, hwrite, hlt⟩, ?_, ?_⟩
  · rw [hfield]
    rfl
  · rw [hlow, hlength]

/-- An opcode for which the reader looks for a row of a certain form, and a command whose operands
have that form. -/
theorem on_opcode {c : Command} {row : ByteArray} {unknown : Fault} {m : Scan Command}
    {spells : Command → ByteArray → Prop} (code : UInt8) (hcode : c.opcode = code)
    (hm : Recognises m spells) (hscan : operands code unknown = m) (h : spells c row)
    (hrow : StandsAt bytes pos row) :
    (operands c.opcode unknown).on bytes pos = .ok (c, pos + row.size) := by
  rw [hcode, hscan]
  exact Recognises.on_eq_ok hm h hrow

/-- **Completeness, command by command.**  Where the operands of a well-formed command stand, its
opcode makes the reader take them. -/
theorem on_operands {c : Command} (hc : c.WellFormed) (slack : Slack) (unknown : Fault)
    (hrow : StandsAt bytes pos (c.operandRow slack)) :
    (operands c.opcode unknown).on bytes pos = .ok (c, pos + (c.operandRow slack).size) := by
  cases c with
  | psgWrite rank value =>
    cases rank with
    | primary => exact on_opcode 0x50 rfl (recognises_u8.map _) rfl ⟨value, rfl, rfl⟩ hrow
    | secondary => exact on_opcode 0x30 rfl (recognises_u8.map _) rfl ⟨value, rfl, rfl⟩ hrow
  | psgStereo rank value =>
    cases rank with
    | primary => exact on_opcode 0x4F rfl (recognises_u8.map _) rfl ⟨value, rfl, rfl⟩ hrow
    | secondary => exact on_opcode 0x3F rfl (recognises_u8.map _) rfl ⟨value, rfl, rfl⟩ hrow
  | registerWrite kind rank pair register value =>
    obtain ⟨digit, hdigit⟩ := Option.isSome_iff_exists.mp hc
    rw [operands_registerWrite hdigit]
    exact (recognises_pairOf _).on_eq_ok ⟨register, value, rfl, rfl⟩ hrow
  | wait frames =>
    exact on_opcode 0x61 rfl (recognises_u16.map _) rfl ⟨frames, rfl, rfl⟩ hrow
  | waitSixtieth => exact on_opcode 0x62 rfl (recognises_pure _) rfl ⟨rfl, rfl⟩ hrow
  | waitFiftieth => exact on_opcode 0x63 rfl (recognises_pure _) rfl ⟨rfl, rfl⟩ hrow
  | waitShort n =>
    obtain ⟨hhigh, hlow⟩ := digits_high_add 7 (by decide) hc
    have hopcode : (waitShort n).opcode = UInt8.ofNat (16 * 7) + n := rfl
    rw [hopcode, operands, hhigh, hlow]
    exact (recognises_pure _).on_eq_ok ⟨rfl, rfl⟩ hrow
  | endOfData => exact on_opcode 0x66 rfl (recognises_pure _) rfl ⟨rfl, rfl⟩ hrow
  | dataBlock block =>
    exact on_opcode 0x67 rfl (recognises_blockOperands.map _) rfl
      ⟨block, blockRow_operandRow hc slack, rfl⟩ hrow
  | ramCopy copy =>
    exact on_opcode 0x68 rfl (recognises_copyOperands.map _) rfl
      ⟨copy, copyRow_operandRow hc slack, rfl⟩ hrow
  | dacWrite frames =>
    obtain ⟨hhigh, hlow⟩ := digits_high_add 8 (by decide) hc
    have hopcode : (dacWrite frames).opcode = UInt8.ofNat (16 * 8) + frames := rfl
    rw [hopcode, operands, hhigh, hlow]
    exact (recognises_pure _).on_eq_ok ⟨rfl, rfl⟩ hrow
  | rf5c68Register register value =>
    exact on_opcode 0xB0 rfl (recognises_pairOf _) rfl ⟨register, value, rfl, rfl⟩ hrow
  | pwmWrite register value =>
    exact on_opcode 0xB2 rfl (recognises_pairOf _) rfl
      ⟨_, _, rfl, (pwmWrite_of_bytes hc.1 hc.2 rfl rfl).symm⟩ hrow
  | multiPcmWrite rank register value =>
    have hto := UInt8.toNat_ofNat_of_lt' (rank.add_bit_lt hc)
    obtain ⟨hrank, hregister⟩ := Rank.word8_join hc hto
    exact on_opcode 0xB5 rfl (recognises_pairOf _) rfl
      ⟨_, value, rfl, by rw [hrank, hregister]⟩ hrow
  | segaPcmMemory rank address value =>
    have hto : (UInt16.ofNat (address.toNat + rank.bit 0x8000)).toNat =
        address.toNat + rank.bit 0x8000 := UInt16.toNat_ofNat_of_lt' (rank.add_bit_lt hc)
    obtain ⟨hrank, haddress⟩ := Rank.word16_join hc hto
    exact on_opcode 0xC0 rfl (recognises_memoryOf _) rfl
      ⟨_, value, by rw [hto]; rfl, by rw [hrank, haddress]⟩ hrow
  | rf5c68Memory address value =>
    exact on_opcode 0xC1 rfl (recognises_memoryOf _) rfl ⟨address, value, rfl, rfl⟩ hrow
  | multiPcmBank rank channel offset =>
    have hto := UInt8.toNat_ofNat_of_lt' (rank.add_bit_lt hc)
    obtain ⟨hrank, hchannel⟩ := Rank.word8_join hc hto
    exact on_opcode 0xC3 rfl recognises_bankOperands rfl
      ⟨_, offset, rfl, by rw [hrank, hchannel]⟩ hrow
  | ymf278bWrite part register value =>
    exact on_opcode 0xD0 rfl (recognises_tripleOf _) rfl ⟨part, register, value, rfl, rfl⟩ hrow
  | ymf271Write part register value =>
    exact on_opcode 0xD1 rfl (recognises_tripleOf _) rfl ⟨part, register, value, rfl, rfl⟩ hrow
  | dacSeek position =>
    exact on_opcode 0xE0 rfl (recognises_u32.map _) rfl ⟨position, rfl, rfl⟩ hrow

end Complete

/-! ## 4. Whole commands -/

/-- The operands that an opcode makes the reader accept are those of its commands, and no
others. -/
theorem recognises_operands (opcode : UInt8) (unknown : Fault) :
    Recognises (operands opcode unknown) (Spelt opcode) := by
  intro bytes pos c next hpos
  constructor
  · intro h
    rcases reads_operands opcode unknown with hreads | ⟨-, hfail⟩
    · obtain ⟨spells, hspells, hsound⟩ := hreads.sound
      obtain ⟨row, hrow, hc, rfl⟩ := (hspells bytes pos c next hpos).mp h
      exact ⟨row, hrow, hsound c row hc, rfl⟩
    · rw [hfail] at h
      cases h
  · rintro ⟨row, hrow, ⟨hc, rfl, slack, rfl⟩, rfl⟩
    exact on_operands hc slack unknown hrow

/-- A command is recognised by its rows. -/
theorem recognises_scan (start : Nat) :
    Recognises (scan start) fun c row => c.WellFormed ∧ ∃ slack, row = c.encodeWith slack := by
  refine (recognises_u8.bind fun opcode => recognises_operands opcode
    (.unknownOpcode opcode start)).congr fun c row => ?_
  constructor
  · rintro ⟨opcode, _, _, rfl, rfl, hc, rfl, slack, rfl⟩
    exact ⟨hc, slack, rfl⟩
  · rintro ⟨hc, slack, rfl⟩
    exact ⟨c.opcode, _, _, rfl, rfl, hc, rfl, slack, rfl⟩

/-- **Reading a position yields a command exactly if a row of the command stands there.** -/
theorem parse_eq_ok_iff {bytes : ByteArray} {pos length : Nat} {c : Command} :
    parse bytes pos = .ok (c, length) ↔
      c.WellFormed ∧ ∃ slack, StandsAt bytes pos (c.encodeWith slack) ∧
        length = (c.encodeWith slack).size := by
  constructor
  · intro h
    have hpos := (parse_progress h).1
    cases hr : (scan pos).on bytes pos with
    | error fault => rw [parse, hr] at h; cases h
    | ok r =>
      rw [parse, hr] at h
      cases h
      obtain ⟨row, hrow, ⟨hc, slack, rfl⟩, hnext⟩ :=
        (recognises_scan pos bytes pos r.1 r.2 (Nat.le_of_lt hpos)).mp hr
      exact ⟨hc, slack, hrow, by omega⟩
  · rintro ⟨hc, slack, hrow, rfl⟩
    rw [parse, (recognises_scan pos).on_eq_ok ⟨hc, slack, rfl⟩ hrow]
    exact congrArg (fun length => Except.ok (c, length)) (by omega)

/-! ## 5. Refusals -/

/-- Behind an opcode its operands are read. -/
theorem parse_of_getElem? {bytes : ByteArray} {pos : Nat} {opcode : UInt8}
    (h : bytes[pos]? = some opcode) :
    parse bytes pos = ((operands opcode (.unknownOpcode opcode pos)).on bytes (pos + 1)).map
      fun r => (r.1, r.2 - pos) := by
  rw [parse, scan, on_bind, u8_on_eq_ok_iff.mpr ⟨h, rfl⟩]
  rfl

/-- **A refusal has one of two causes**: a byte that stands for no command, or an end of the image
before the end of the command. -/
theorem parse_eq_error_cases {bytes : ByteArray} {pos : Nat} {fault : Fault}
    (h : parse bytes pos = .error fault) :
    (∃ opcode, bytes[pos]? = some opcode ∧ opcode ∉ opcodes ∧
      fault = .unknownOpcode opcode pos) ∨ fault.LeavesImage bytes := by
  cases hr : u8.on bytes pos with
  | error e =>
    rw [parse, scan, on_bind, hr] at h
    cases h
    exact .inr (failsShort_u8 bytes pos _ hr)
  | ok r =>
    obtain ⟨hbyte, -⟩ := u8_on_eq_ok_iff.mp hr
    rw [parse_of_getElem? hbyte] at h
    rcases reads_operands r.1 (.unknownOpcode r.1 pos) with hreads | ⟨hmem, hfail⟩
    · cases hoperands : (operands r.1 (.unknownOpcode r.1 pos)).on bytes (pos + 1) with
      | ok r' => rw [hoperands] at h; cases h
      | error e =>
        rw [hoperands] at h
        cases h
        exact .inr (hreads.failsShort bytes (pos + 1) _ hoperands)
    · rw [hfail] at h
      cases h
      exact .inl ⟨r.1, hbyte, hmem, rfl⟩

/-- A byte is refused exactly if it stands for no command. -/
theorem parse_eq_unknownOpcode_iff {bytes : ByteArray} {pos offset : Nat} {opcode : UInt8} :
    parse bytes pos = .error (.unknownOpcode opcode offset) ↔
      offset = pos ∧ bytes[pos]? = some opcode ∧ opcode ∉ opcodes := by
  constructor
  · intro h
    rcases parse_eq_error_cases h with ⟨opcode', hbyte, hmem, heq⟩ | ⟨_, _, _, heq, _⟩
    · cases heq
      exact ⟨rfl, hbyte, hmem⟩
    · cases heq
  · rintro ⟨rfl, hbyte, hmem⟩
    rcases reads_operands opcode (.unknownOpcode opcode offset) with hreads | ⟨-, hfail⟩
    · exact absurd hreads.mem hmem
    · rw [parse_of_getElem? hbyte, hfail]
      rfl

/-! ## 6. The grammar -/

/-- Only blocks and copies have bits that a reader passes over. -/
theorem encodeWith_eq_encode {c : Command} (slack : Slack) (hblock : c.opcode ≠ 0x67)
    (hcopy : c.opcode ≠ 0x68) : c.encodeWith slack = c.encode := by
  cases c with
  | dataBlock block => exact absurd rfl hblock
  | ramCopy copy => exact absurd rfl hcopy
  | _ => rfl

/-- A row that stands between others is read back, and nothing behind it is touched. -/
theorem parse_append {c : Command} (hc : c.WellFormed) (slack : Slack) (pre post : ByteArray) :
    parse (pre ++ c.encodeWith slack ++ post) pre.size = .ok (c, (c.encodeWith slack).size) :=
  parse_eq_ok_iff.mpr ⟨hc, slack, standsAt_between pre _ post, rfl⟩

/-- **The reader accepts exactly the rows of well-formed commands and loses nothing.**  The
canonical row of a well-formed command is read back from any image it stands in.  What is
read is a well-formed command whose row is there, up to bits that only blocks and copies
leave open.  Everything else is refused: a byte that stands for no command, with the place
where it was met, and otherwise a read beyond the end of the image. -/
theorem parse_accepts_exactly_the_rows :
    (∀ c pre post, WellFormed c →
      parse (pre ++ c.encode ++ post) pre.size = .ok (c, c.encode.size)) ∧
    (∀ bytes pos c length, parse bytes pos = .ok (c, length) →
      1 ≤ length ∧ pos + length ≤ bytes.size ∧ c.WellFormed ∧
        (∃ slack, bytes.extract pos (pos + length) = c.encodeWith slack) ∧
        (c.opcode ≠ 0x67 → c.opcode ≠ 0x68 → bytes.extract pos (pos + length) = c.encode)) ∧
    (∀ bytes pos opcode offset,
      parse bytes pos = .error (.unknownOpcode opcode offset) ↔
        offset = pos ∧ bytes[pos]? = some opcode ∧ opcode ∉ opcodes) ∧
    (∀ bytes pos fault, parse bytes pos = .error fault →
      (∃ opcode, fault = .unknownOpcode opcode pos) ∨ fault.LeavesImage bytes) := by
  refine ⟨fun c pre post hc => parse_append hc {} pre post, ?_,
    fun bytes pos opcode offset => parse_eq_unknownOpcode_iff, ?_⟩
  · intro bytes pos c length h
    obtain ⟨hc, slack, hrow, rfl⟩ := parse_eq_ok_iff.mp h
    refine ⟨size_encodeWith_pos slack c, hrow.le, hc, ⟨slack, hrow.2⟩, fun hblock hcopy => ?_⟩
    rw [hrow.2]
    exact encodeWith_eq_encode slack hblock hcopy
  · intro bytes pos fault h
    rcases parse_eq_error_cases h with ⟨opcode, -, -, hfault⟩ | hshort
    · exact .inl ⟨opcode, hfault⟩
    · exact .inr hshort

/-- The greatest copy there is, behind one byte and before another; a wait that is read from the
middle of an image; and a wait whose second operand byte is missing. -/
theorem parse_copy_between :
    (ramCopy ⟨0x3F, 0xFFFFFF, 0x000102, RamCopy.maxLength⟩).WellFormed ∧
    parse ([0x66].toByteArray ++ (ramCopy ⟨0x3F, 0xFFFFFF, 0x000102, RamCopy.maxLength⟩).encode ++
      [0x62].toByteArray) 1 =
        .ok (ramCopy ⟨0x3F, 0xFFFFFF, 0x000102, RamCopy.maxLength⟩,
          (ramCopy ⟨0x3F, 0xFFFFFF, 0x000102, RamCopy.maxLength⟩).encode.size) ∧
    parse [0x62, 0x61, 0x34, 0x12].toByteArray 1 = .ok (wait 0x1234, 3) ∧
    [0x62, 0x61, 0x34, 0x12].toByteArray.extract 1 4 = (wait 0x1234).encode ∧
    parse [0x61, 0x34].toByteArray 0 = .error (.outOfRange 1 2 2 none) ∧
    Fault.LeavesImage [0x61, 0x34].toByteArray (.outOfRange 1 2 2 none) := by
  have hcopy : (ramCopy ⟨0x3F, 0xFFFFFF, 0x000102, RamCopy.maxLength⟩).WellFormed := by
    refine ⟨?_, ?_, ?_, ?_, ?_⟩ <;> decide
  have hwait : parse [0x62, 0x61, 0x34, 0x12].toByteArray 1 = .ok (wait 0x1234, 3) := rfl
  have hshort : parse [0x61, 0x34].toByteArray 0 = .error (.outOfRange 1 2 2 none) := rfl
  refine ⟨hcopy, parse_accepts_exactly_the_rows.1 _ [0x66].toByteArray [0x62].toByteArray hcopy,
    hwait, ?_, hshort, ?_⟩
  · exact (parse_accepts_exactly_the_rows.2.1 _ 1 _ 3 hwait).2.2.2.2 (by decide) (by decide)
  · rcases parse_accepts_exactly_the_rows.2.2.2 _ 0 _ hshort with ⟨_, h⟩ | h
    · cases h
    · exact h

end ChipLog.Command
