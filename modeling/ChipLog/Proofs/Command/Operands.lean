/-
# Operands as rows of bytes

The operands of a command are a few bytes and numbers one behind the other, some of them shared
by two fields.  Two things are settled here, before any opcode comes in.

* What rows each scan for operands recognises, and that it fails only where the image ends.
* That two fields which share a word come apart again, and that a word splits into the fields
  it is made of: a rank in the top bit of a field (`Rank.word8_split`, `Rank.word8_join` and
  their like for wider words), the low digit of an opcode (`Command.high_add_low`,
  `Command.digits_high_add`), the two fields of a PWM write, and the length of a copy.
-/
import ChipLog.Command.Parse
import ChipLog.Proofs.Command.Encoding

namespace ChipLog

/-! ## 1. A rank in the top bit of a field -/

namespace Rank

variable {weight n : Nat}

/-- A field is its low bits and the rank in its top bit. -/
theorem mod_add_bit (h : n < 2 * weight) :
    n % weight + (ofFlag (decide (weight ≤ n))).bit weight = n := by
  by_cases hle : weight ≤ n
  · have hmod : n % weight = n - weight := by
      rw [Nat.mod_eq_sub_mod hle, Nat.mod_eq_of_lt (by omega)]
    simp only [hle, decide_true, ofFlag, if_true, bit, hmod]
    omega
  · simp only [hle, decide_false, ofFlag, bit, Bool.false_eq_true, if_false, Nat.add_zero]
    exact Nat.mod_eq_of_lt (by omega)

/-- The top bit does not disturb the low bits. -/
theorem add_bit_mod (rank : Rank) (h : n < weight) : (n + rank.bit weight) % weight = n := by
  cases rank with
  | primary => exact Nat.mod_eq_of_lt h
  | secondary => rw [bit, Nat.add_mod_right, Nat.mod_eq_of_lt h]

/-- The low bits do not disturb the top bit. -/
theorem ofFlag_add_bit (rank : Rank) (h : n < weight) :
    ofFlag (decide (weight ≤ n + rank.bit weight)) = rank := by
  cases rank with
  | primary =>
    have : ¬ weight ≤ n + bit weight .primary := by simp only [bit]; omega
    simp [this, ofFlag]
  | secondary =>
    have : weight ≤ n + bit weight .secondary := by simp only [bit]; omega
    simp [this, ofFlag]

/-- A field with a rank in its top bit fits one more bit than the field. -/
theorem add_bit_lt (rank : Rank) (h : n < weight) : n + rank.bit weight < 2 * weight := by
  cases rank <;> simp only [bit] <;> omega

/-- A byte is its low bits and the rank in its top bit. -/
theorem word8_split (field : UInt8) :
    (field % 0x80).toNat < 0x80 ∧
      (field % 0x80).toNat + (ofFlag (0x80 ≤ field)).bit 0x80 = field.toNat := by
  rw [UInt8.toNat_mod]
  exact ⟨Nat.mod_lt _ (by decide), mod_add_bit field.toNat_lt⟩

theorem word16_split (field : UInt16) :
    (field % 0x8000).toNat < 0x8000 ∧
      (field % 0x8000).toNat + (ofFlag (0x8000 ≤ field)).bit 0x8000 = field.toNat := by
  rw [UInt16.toNat_mod]
  exact ⟨Nat.mod_lt _ (by decide), mod_add_bit field.toNat_lt⟩

theorem word32_split (field : UInt32) :
    (field % 0x80000000).toNat < 0x80000000 ∧
      (field % 0x80000000).toNat + (ofFlag (0x80000000 ≤ field)).bit 0x80000000 =
        field.toNat := by
  rw [UInt32.toNat_mod]
  exact ⟨Nat.mod_lt _ (by decide), mod_add_bit field.toNat_lt⟩

/-- A byte put together from low bits and a rank comes apart into them. -/
theorem word8_join {low field : UInt8} {rank : Rank} (hlow : low.toNat < 0x80)
    (hfield : field.toNat = low.toNat + rank.bit 0x80) :
    ofFlag (0x80 ≤ field) = rank ∧ field % 0x80 = low := by
  constructor
  · simp only [UInt8.le_iff_toNat_le, hfield]
    exact rank.ofFlag_add_bit hlow
  · rw [← UInt8.toNat_inj, UInt8.toNat_mod, hfield]
    exact rank.add_bit_mod hlow

theorem word16_join {low field : UInt16} {rank : Rank} (hlow : low.toNat < 0x8000)
    (hfield : field.toNat = low.toNat + rank.bit 0x8000) :
    ofFlag (0x8000 ≤ field) = rank ∧ field % 0x8000 = low := by
  constructor
  · simp only [UInt16.le_iff_toNat_le, hfield]
    exact rank.ofFlag_add_bit hlow
  · rw [← UInt16.toNat_inj, UInt16.toNat_mod, hfield]
    exact rank.add_bit_mod hlow

theorem word32_join {low field : UInt32} {rank : Rank} (hlow : low.toNat < 0x80000000)
    (hfield : field.toNat = low.toNat + rank.bit 0x80000000) :
    ofFlag (0x80000000 ≤ field) = rank ∧ field % 0x80000000 = low := by
  constructor
  · simp only [UInt32.le_iff_toNat_le, hfield]
    exact rank.ofFlag_add_bit hlow
  · rw [← UInt32.toNat_inj, UInt32.toNat_mod, hfield]
    exact rank.add_bit_mod hlow

end Rank

namespace Command

open Scan Bytes

/-! ## 2. Digits of an opcode -/

/-- A byte is known by its two digits. -/
theorem eq_of_digits {byte : UInt8} {high low : Nat} (hhigh : byte.toNat / 16 = high)
    (hlow : byte.toNat % 16 = low) : byte = UInt8.ofNat (16 * high + low) := by
  have hbyte : byte.toNat = 16 * high + low := by omega
  rw [← hbyte, UInt8.ofNat_toNat]

theorem low_eq_ofNat (byte : UInt8) : byte % 16 = UInt8.ofNat (byte.toNat % 16) := by
  apply UInt8.toNat_inj.mp
  rw [UInt8.toNat_mod, UInt8.toNat_ofNat_of_lt']
  · rfl
  · exact Nat.lt_of_lt_of_le (Nat.mod_lt _ (by decide)) (by decide)

theorem toNat_low_lt (byte : UInt8) : (byte % 16).toNat < 16 := by
  rw [UInt8.toNat_mod]
  exact Nat.mod_lt _ (by decide)

/-- A byte is its high digit and its low digit together. -/
theorem high_add_low {byte : UInt8} {high : Nat} (hhigh : byte.toNat / 16 = high) :
    UInt8.ofNat (16 * high) + byte % 16 = byte := by
  rw [low_eq_ofNat, ← UInt8.ofNat_add]
  exact (eq_of_digits hhigh rfl).symm

/-- The digits of a byte that is put together from a high digit and a low one. -/
theorem digits_high_add (high : Nat) {low : UInt8} (hhigh : high < 16) (hlow : low.toNat < 16) :
    (UInt8.ofNat (16 * high) + low).toNat / 16 = high ∧
      (UInt8.ofNat (16 * high) + low) % 16 = low := by
  have hsum : (UInt8.ofNat (16 * high) + low).toNat = 16 * high + low.toNat := by
    rw [UInt8.toNat_add, UInt8.toNat_ofNat']
    omega
  refine ⟨by omega, UInt8.toNat_inj.mp ?_⟩
  rw [UInt8.toNat_mod, hsum]
  exact (Nat.mul_add_mod 16 high low.toNat).trans (Nat.mod_eq_of_lt hlow)

/-! ## 3. Rows of operands -/

section Operands

variable {α : Type}

theorem recognises_pairOf (f : UInt8 → UInt8 → α) :
    Recognises (pairOf f) fun a row =>
      ∃ first second, row = [first, second].toByteArray ∧ a = f first second := by
  simp only [toByteArray_cons _ [_]]
  exact recognises_u8.append fun first => recognises_u8.map (f first)

theorem recognises_tripleOf (f : UInt8 → UInt8 → UInt8 → α) :
    Recognises (tripleOf f) fun a row =>
      ∃ part first second, row = [part, first, second].toByteArray ∧ a = f part first second := by
  refine (recognises_u8.bind fun part => recognises_pairOf (f part)).congr fun a row => ?_
  constructor
  · rintro ⟨part, _, _, rfl, rfl, first, second, rfl, rfl⟩
    exact ⟨part, first, second, (toByteArray_cons part [first, second]).symm, rfl⟩
  · rintro ⟨part, first, second, rfl, rfl⟩
    exact ⟨part, _, _, toByteArray_cons part [first, second], rfl, first, second, rfl, rfl⟩

theorem recognises_memoryOf (f : UInt16 → UInt8 → α) :
    Recognises (memoryOf f) fun a row =>
      ∃ address value, row = numeral 2 address.toNat ++ [value].toByteArray ∧
        a = f address value :=
  recognises_u16.append fun address => recognises_u8.map (f address)

theorem recognises_bankOperands :
    Recognises bankOperands fun c row =>
      ∃ channel offset, row = [channel].toByteArray ++ numeral 2 offset.toNat ∧
        c = multiPcmBank (.ofFlag (0x80 ≤ channel)) (channel % 0x80) offset :=
  recognises_u8.append fun channel =>
    recognises_u16.map (multiPcmBank (.ofFlag (0x80 ≤ channel)) (channel % 0x80))

/-- The row of operands of a data block, as the reader takes it apart. -/
def BlockRow (block : DataBlock) (row : ByteArray) : Prop :=
  ∃ skipped type raw payload,
    row = [skipped, type].toByteArray ++ (numeral 4 (UInt32.toNat raw) ++ payload) ∧
      payload.size = (raw % 0x80000000).toNat ∧
      block = ⟨type, .ofFlag (0x80000000 ≤ raw), payload, raw % 0x80000000⟩

theorem recognises_blockOperands : Recognises blockOperands BlockRow := by
  refine (recognises_skip_u8.bind fun type => recognises_u32.bind fun raw =>
    ((recognises_slice (raw % 0x80000000).toNat).within .blockPayload).map fun payload =>
      (⟨type, .ofFlag (0x80000000 ≤ raw), payload, raw % 0x80000000⟩ : DataBlock)).congr
    fun block row => ?_
  constructor
  · rintro ⟨type, _, _, rfl, ⟨skipped, rfl⟩, raw, _, payload, rfl, rfl, _, ⟨rfl, hsize⟩, rfl⟩
    exact ⟨skipped, type, raw, payload, rfl, hsize, rfl⟩
  · rintro ⟨skipped, type, raw, payload, rfl, hsize, rfl⟩
    exact ⟨type, _, _, rfl, ⟨skipped, rfl⟩, raw, _, payload, rfl, rfl, payload, ⟨rfl, hsize⟩, rfl⟩

/-- The length that the length field of a copy stands for. -/
def copyLength (field : UInt32) : UInt32 := if field == 0 then RamCopy.maxLength else field

/-- The row of operands of a copy, as the reader takes it apart. -/
def CopyRow (copy : RamCopy) (row : ByteArray) : Prop :=
  ∃ skipped bank readOffset writeOffset field,
    (UInt32.toNat readOffset < 2 ^ 24 ∧ UInt32.toNat writeOffset < 2 ^ 24 ∧
      UInt32.toNat field < 2 ^ 24) ∧
    row = [skipped, bank].toByteArray ++ (numeral 3 readOffset.toNat ++
      (numeral 3 writeOffset.toNat ++ numeral 3 field.toNat)) ∧
    copy = ⟨bank % 64, readOffset, writeOffset, copyLength field⟩

theorem recognises_copyOperands : Recognises copyOperands CopyRow := by
  refine (recognises_skip_u8.bind fun bank => recognises_u24.bind fun readOffset =>
    recognises_u24.bind fun writeOffset => recognises_u24.map fun field =>
      (⟨bank % 64, readOffset, writeOffset, copyLength field⟩ : RamCopy)).congr fun copy row => ?_
  constructor
  · rintro ⟨bank, _, _, rfl, ⟨skipped, rfl⟩, readOffset, _, _, rfl, ⟨hread, rfl⟩, writeOffset, _, _,
      rfl, ⟨hwrite, rfl⟩, field, ⟨hfield, rfl⟩, rfl⟩
    exact ⟨skipped, bank, readOffset, writeOffset, field, ⟨hread, hwrite, hfield⟩, rfl, rfl⟩
  · rintro ⟨skipped, bank, readOffset, writeOffset, field, ⟨hread, hwrite, hfield⟩, rfl, rfl⟩
    exact ⟨bank, _, _, rfl, ⟨skipped, rfl⟩, readOffset, _, _, rfl, ⟨hread, rfl⟩, writeOffset, _, _,
      rfl, ⟨hwrite, rfl⟩, field, ⟨hfield, rfl⟩, rfl⟩

theorem failsShort_pairOf (f : UInt8 → UInt8 → α) : FailsShort (pairOf f) :=
  failsShort_u8.bind fun _ => failsShort_u8.map _

theorem failsShort_tripleOf (f : UInt8 → UInt8 → UInt8 → α) : FailsShort (tripleOf f) :=
  failsShort_u8.bind fun _ => failsShort_pairOf _

theorem failsShort_memoryOf (f : UInt16 → UInt8 → α) : FailsShort (memoryOf f) :=
  failsShort_u16.bind fun _ => failsShort_u8.map _

theorem failsShort_bankOperands : FailsShort bankOperands :=
  failsShort_u8.bind fun _ => failsShort_u16.map _

theorem failsShort_blockOperands : FailsShort blockOperands :=
  (FailsShort.advance 1).bind fun _ => failsShort_u8.bind fun _ => failsShort_u32.bind fun _ =>
    ((failsShort_slice _).within _).bind fun _ => FailsShort.pure _

theorem failsShort_copyOperands : FailsShort copyOperands :=
  (FailsShort.advance 1).bind fun _ => failsShort_u8.bind fun _ => failsShort_u24.bind fun _ =>
    failsShort_u24.bind fun _ => failsShort_u24.bind fun _ => FailsShort.pure _

end Operands

/-! ## 4. Fields that share their bytes -/

/-- The value of a PWM write takes all of one byte and half of another. -/
theorem toNat_pwmValue (high low : UInt8) :
    ((high % 16).toUInt16 * 256 + low.toUInt16).toNat = high.toNat % 16 * 256 + low.toNat := by
  have := low.toNat_lt
  simp only [UInt16.toNat_add, UInt16.toNat_mul, UInt8.toNat_toUInt16, UInt8.toNat_mod,
    UInt8.toNat_ofNat, UInt16.toNat_ofNat, Nat.reducePow, Nat.reduceMod]
  omega

/-- A register in four bits and a value in twelve come back from the two bytes they share. -/
theorem pwmWrite_of_bytes {register high low : UInt8} {value : UInt16}
    (hregister : register.toNat < 16) (hvalue : value.toNat < 2 ^ 12)
    (hhigh : high = UInt8.ofNat (register.toNat * 16 + value.toNat / 256))
    (hlow : low = UInt8.ofNat value.toNat) :
    pwmWrite (high / 16) ((high % 16).toUInt16 * 256 + low.toUInt16) = pwmWrite register value := by
  have hhigh : high.toNat = register.toNat * 16 + value.toNat / 256 := by
    rw [hhigh, UInt8.toNat_ofNat', Nat.mod_eq_of_lt (by omega)]
  have hlow : low.toNat = value.toNat % 256 := by rw [hlow, UInt8.toNat_ofNat']
  have hregister' : high / 16 = register := by
    rw [← UInt8.toNat_inj, UInt8.toNat_div, hhigh]
    simp only [UInt8.toNat_ofNat, Nat.reducePow, Nat.reduceMod]
    omega
  have hvalue' : (high % 16).toUInt16 * 256 + low.toUInt16 = value := by
    rw [← UInt16.toNat_inj, toNat_pwmValue]
    omega
  rw [hregister', hvalue']

/-- A length field stands for a length that can be written. -/
theorem copyLength_field {field : UInt32} (h : field.toNat < 2 ^ 24) :
    1 ≤ (copyLength field).toNat ∧ (copyLength field).toNat ≤ 2 ^ 24 ∧
      (if copyLength field = RamCopy.maxLength then 0 else (copyLength field).toNat) =
        field.toNat := by
  by_cases hzero : field = 0
  · subst hzero
    decide
  · have hne : field ≠ RamCopy.maxLength := by
      rintro rfl
      exact absurd h (by decide)
    have hpos : field.toNat ≠ 0 := fun h0 => hzero (UInt32.toNat_inj.mp h0)
    simp only [copyLength, beq_iff_eq, hzero, if_false, hne, and_true]
    omega

/-- A length comes back from the field that it is written to. -/
theorem copyLength_of_length {length : UInt32} (hpos : 1 ≤ length.toNat)
    (hle : length.toNat ≤ 2 ^ 24) :
    ∃ field : UInt32, field.toNat < 2 ^ 24 ∧ copyLength field = length ∧
      field.toNat = if length = RamCopy.maxLength then 0 else length.toNat := by
  by_cases hmax : length = RamCopy.maxLength
  · subst hmax
    exact ⟨0, by decide, rfl, rfl⟩
  · have hne : length.toNat ≠ 2 ^ 24 := fun h => hmax (UInt32.toNat_inj.mp h)
    have hzero : length ≠ 0 := by
      rintro rfl
      exact absurd hpos (by decide)
    refine ⟨length, by omega, ?_, by rw [if_neg hmax]⟩
    rw [copyLength, if_neg (by simpa using hzero)]

end Command

end ChipLog
