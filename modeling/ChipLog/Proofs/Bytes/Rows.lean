/-
# Rows of bytes in an image

A scan walks over bytes one read at a time.  To say what a scan accepts one wants to forget the
walk: somewhere in the image stands a row of bytes, and the row spells a value.  This module
relates the two views.

* `StandsAt bytes pos row`: the image holds the row from that position on.  Rows one behind the
  other are rows that stand one behind the other (`standsAt_append`).
* `Scan.Recognises m spells`: the scan succeeds exactly where a row stands that spells its
  result, and it moves just behind that row.  What is put together from such scans is such a
  scan (`Recognises.bind`, `Recognises.map`, `Recognises.append`).
* `Scan.FailsShort m`: the only faults of the scan are reads that leave the image.
-/
import Mathlib.Algebra.Group.Nat.Defs
import ChipLog.Bytes.Scan

namespace ChipLog

namespace Bytes

/-! ## 1. Rows that stand in an image -/

/-- The bytes of `bytes` from `pos` on begin with `row`. -/
def StandsAt (bytes : ByteArray) (pos : Nat) (row : ByteArray) : Prop :=
  pos ≤ bytes.size ∧ bytes.extract pos (pos + row.size) = row

/-- A row that stands in an image ends in it. -/
theorem StandsAt.le {bytes row : ByteArray} {pos : Nat} (h : StandsAt bytes pos row) :
    pos + row.size ≤ bytes.size := by
  obtain ⟨hpos, hrow⟩ := h
  have hsize := congrArg ByteArray.size hrow
  rw [ByteArray.size_extract] at hsize
  omega

/-- What an image holds between two positions stands there. -/
theorem standsAt_extract {bytes : ByteArray} {pos size : Nat} (h : pos + size ≤ bytes.size) :
    StandsAt bytes pos (bytes.extract pos (pos + size)) := by
  have hsize : (bytes.extract pos (pos + size)).size = size := by
    rw [ByteArray.size_extract]
    omega
  exact ⟨by omega, by rw [hsize]⟩

/-- Rows one behind the other stand one behind the other. -/
theorem standsAt_append {bytes first second : ByteArray} {pos : Nat} :
    StandsAt bytes pos (first ++ second) ↔
      StandsAt bytes pos first ∧ StandsAt bytes (pos + first.size) second := by
  have hsplit : bytes.extract pos (pos + (first ++ second).size) =
      bytes.extract pos (pos + first.size) ++
        bytes.extract (pos + first.size) (pos + first.size + second.size) := by
    rw [ByteArray.size_append, ← Nat.add_assoc]
    exact ByteArray.extract_eq_extract_append_extract (pos + first.size) (by omega) (by omega)
  constructor
  · intro h
    have hle := h.le
    rw [ByteArray.size_append] at hle
    have hrow := h.2
    rw [hsplit] at hrow
    have hsize : (bytes.extract pos (pos + first.size)).size = first.size := by
      rw [ByteArray.size_extract]
      omega
    have hfirst := ByteArray.append_inj_left hrow hsize
    refine ⟨⟨h.1, hfirst⟩, by omega, ?_⟩
    rw [hfirst] at hrow
    exact (ByteArray.append_right_inj first).mp hrow
  · rintro ⟨hfirst, hsecond⟩
    refine ⟨hfirst.1, ?_⟩
    rw [hsplit, hfirst.2, hsecond.2]

/-- A row between two others stands where the first of them ends. -/
theorem standsAt_between (pre row post : ByteArray) :
    StandsAt (pre ++ row ++ post) pre.size row := by
  have hfront : StandsAt (pre ++ row ++ post) 0 (pre ++ row) := by
    refine ⟨Nat.zero_le _, ?_⟩
    rw [Nat.zero_add]
    exact ByteArray.extract_append_eq_left rfl
  have hrow := (standsAt_append.mp hfront).2
  rwa [Nat.zero_add] at hrow

/-- A row stands where it stood, whatever comes behind it. -/
theorem StandsAt.extract_append {bytes row : ByteArray} {pos : Nat} (h : StandsAt bytes pos row)
    (more : ByteArray) : StandsAt (bytes.extract 0 (pos + row.size) ++ more) pos row := by
  have hsplit : bytes.extract 0 (pos + row.size) = bytes.extract 0 pos ++ row := by
    rw [ByteArray.extract_eq_extract_append_extract pos (Nat.zero_le _) (Nat.le_add_right _ _), h.2]
  have hsize : (bytes.extract 0 pos).size = pos := by
    rw [ByteArray.size_extract, Nat.min_eq_left h.1, Nat.sub_zero]
  have hrow := standsAt_between (bytes.extract 0 pos) row more
  rwa [hsize, ← hsplit] at hrow

/-- Rows one behind the other. -/
def joined (rows : List ByteArray) : ByteArray := rows.foldr (· ++ ·) .empty

@[simp] theorem joined_cons (row : ByteArray) (rows : List ByteArray) :
    joined (row :: rows) = row ++ joined rows := rfl

@[simp] theorem joined_append (first second : List ByteArray) :
    joined (first ++ second) = joined first ++ joined second := by
  induction first with
  | nil => exact ByteArray.empty_append.symm
  | cons row first ih => rw [List.cons_append, joined_cons, ih, joined_cons, ByteArray.append_assoc]

/-- What stands in the image, and nothing else, can be cut out of it. -/
theorem slice_eq_ok_iff_standsAt {bytes row : ByteArray} {pos : Nat} :
    slice bytes pos row.size = .ok row ↔ StandsAt bytes pos row := by
  rw [slice_eq_ok_iff]
  exact ⟨fun h => ⟨by omega, h.2.symm⟩, fun h => ⟨h.le, h.2.symm⟩⟩

/-- Rows of one size that stand at one place are equal. -/
theorem StandsAt.unique {bytes row row' : ByteArray} {pos : Nat} (h : StandsAt bytes pos row)
    (h' : StandsAt bytes pos row') (hsize : row.size = row'.size) : row = row' := by
  rw [← h.2, ← h'.2, hsize]

/-! ## 2. Numbers as rows -/

/-- A row begins with its first byte. -/
theorem toByteArray_cons (byte : UInt8) (rest : List UInt8) :
    (byte :: rest).toByteArray = [byte].toByteArray ++ rest.toByteArray := by
  rw [← List.singleton_append, List.toByteArray_append]

/-- The row of `width` bytes that holds `n`. -/
def numeral (width n : Nat) : ByteArray := (digits width n).toByteArray

@[simp] theorem size_numeral (width n : Nat) : (numeral width n).size = width := by
  simp [numeral]

theorem numeral_succ (width n : Nat) :
    numeral (width + 1) n = [UInt8.ofNat n].toByteArray ++ numeral width (n / 256) :=
  toByteArray_cons _ _

/-- A number of `width` bytes is below `256 ^ width`. -/
theorem number_lt (bytes : ByteArray) (off width : Nat) :
    number bytes off width < 256 ^ width := by
  induction width generalizing off with
  | zero => simp [number]
  | succ width ih =>
    have := ih (off + 1)
    have := byteOr0_lt bytes off
    rw [number, Nat.pow_succ]
    omega

/-- A number that fits is known from its row. -/
theorem numeral_injective {width n m : Nat} (hn : n < 256 ^ width) (hm : m < 256 ^ width)
    (h : numeral width n = numeral width m) : n = m := by
  induction width generalizing n m with
  | zero => simp at hn hm; omega
  | succ width ih =>
    rw [numeral_succ, numeral_succ] at h
    have hlow := List.toByteArray_inj.mp (ByteArray.append_inj_left h (by simp))
    have hlow := congrArg UInt8.toNat (List.cons.inj hlow).1
    rw [UInt8.toNat_ofNat', UInt8.toNat_ofNat'] at hlow
    rw [ByteArray.append_inj_left h (by simp)] at h
    have hhigh := ih (by rw [Nat.pow_succ] at hn; omega) (by rw [Nat.pow_succ] at hm; omega)
      ((ByteArray.append_right_inj _).mp h)
    omega

/-- The number that an image holds stands there as a row. -/
theorem standsAt_numeral_number {bytes : ByteArray} {pos width : Nat}
    (h : pos + width ≤ bytes.size) :
    StandsAt bytes pos (numeral width (number bytes pos width)) := by
  induction width generalizing pos with
  | zero => exact ⟨h, ByteArray.extract_same⟩
  | succ width ih =>
    have hbyte : byteOr0 bytes pos = bytes[pos].toNat := by
      simp [byteOr0, getElem?_pos bytes pos (by omega)]
    have hlow : UInt8.ofNat (number bytes pos (width + 1)) = bytes[pos] := by
      rw [number, hbyte, UInt8.ofNat_add]
      simp
    have hhigh : number bytes pos (width + 1) / 256 = number bytes (pos + 1) width := by
      have := byteOr0_lt bytes pos
      rw [number]
      omega
    have hfirst : StandsAt bytes pos [bytes[pos]].toByteArray :=
      ⟨by omega, ByteArray.extract_add_one (by omega)⟩
    have hrest := @ih (pos + 1) (by omega)
    rw [numeral_succ, hlow, hhigh]
    exact standsAt_append.mpr ⟨hfirst, by rwa [List.size_toByteArray]⟩

/-- **A number can be read exactly where its row stands.** -/
theorem readNumber_eq_ok_iff_standsAt {bytes : ByteArray} {pos width n : Nat} :
    readNumber bytes pos width = .ok n ↔
      n < 256 ^ width ∧ StandsAt bytes pos (numeral width n) := by
  rw [readNumber_eq_ok_iff]
  constructor
  · rintro ⟨hle, rfl⟩
    exact ⟨number_lt bytes pos width, standsAt_numeral_number hle⟩
  · rintro ⟨hlt, hrow⟩
    have hle := hrow.le
    rw [size_numeral] at hle
    refine ⟨hle, numeral_injective hlt (number_lt bytes pos width) ?_⟩
    exact hrow.unique (standsAt_numeral_number hle) (by simp)

/-- A word can be read exactly where its row stands. -/
theorem readU32_eq_ok_iff_standsAt {bytes : ByteArray} {pos : Nat} {word : UInt32} :
    readU32 bytes pos = .ok word ↔ StandsAt bytes pos (numeral 4 word.toNat) := by
  have hread := @readNumber_eq_ok_iff_standsAt bytes pos 4 word.toNat
  rw [and_iff_right (show word.toNat < 256 ^ 4 from word.toNat_lt)] at hread
  rw [← hread, readU32]
  cases hnumber : readNumber bytes pos 4 with
  | error fault => exact iff_of_false (fun h => nomatch h) fun h => nomatch h
  | ok n =>
    have hn : n < 256 ^ 4 := (readNumber_eq_ok_iff_standsAt.mp hnumber).1
    simp only [Except.map, Except.ok.injEq]
    rw [← UInt32.toNat_inj, UInt32.toNat_ofNat_of_lt' hn]

/-- A byte behind a row does not depend on the row. -/
theorem byteOr0_append_right (front bytes : ByteArray) (off : Nat) :
    byteOr0 (front ++ bytes) (front.size + off) = byteOr0 bytes off := by
  have hsize : (front ++ bytes).size = front.size + bytes.size := ByteArray.size_append
  by_cases h : off < bytes.size
  · have hget : (front ++ bytes)[front.size + off] = bytes[off] := by
      rw [ByteArray.getElem_append_right (Nat.le_add_right _ _)]
      simp only [Nat.add_sub_cancel_left]
    rw [byteOr0, byteOr0, getElem?_pos bytes off h, getElem?_pos (front ++ bytes) _ (by omega), hget]
  · rw [byteOr0, byteOr0, getElem?_neg bytes off h, getElem?_neg (front ++ bytes) _ (by omega)]

/-- Nor does a number. -/
theorem number_append_right (front bytes : ByteArray) (off width : Nat) :
    number (front ++ bytes) (front.size + off) width = number bytes off width := by
  induction width generalizing off with
  | zero => rfl
  | succ width ih => rw [number, number, byteOr0_append_right, Nat.add_assoc, ih]

end Bytes

/-- The fault is a read that needs more bytes than the image has. -/
def Fault.LeavesImage (bytes : ByteArray) (fault : Fault) : Prop :=
  ∃ offset needed place,
    fault = .outOfRange offset needed bytes.size place ∧ bytes.size < offset + needed

namespace Scan

open Bytes

variable {α β γ : Type}

/-! ## 3. Scans that recognise rows -/

/-- From a position in the image, `m` succeeds exactly where a row stands that spells its
result, and it moves just behind that row. -/
def Recognises (m : Scan α) (spells : α → ByteArray → Prop) : Prop :=
  ∀ bytes pos a next, pos ≤ bytes.size →
    (m.on bytes pos = .ok (a, next) ↔
      ∃ row, StandsAt bytes pos row ∧ spells a row ∧ next = pos + row.size)

variable {m : Scan α} {spells spells' : α → ByteArray → Prop}

/-- The rows may be described in other words. -/
theorem Recognises.congr (hm : Recognises m spells)
    (h : ∀ a row, spells a row ↔ spells' a row) : Recognises m spells' := by
  intro bytes pos a next hpos
  rw [hm bytes pos a next hpos]
  exact exists_congr fun row => by rw [h a row]

/-- Where a row stands that spells a value, the scan reads that value. -/
theorem Recognises.on_eq_ok {bytes row : ByteArray} {pos : Nat} {a : α} (hm : Recognises m spells)
    (ha : spells a row) (hrow : StandsAt bytes pos row) :
    m.on bytes pos = .ok (a, pos + row.size) :=
  (hm bytes pos a _ hrow.1).mpr ⟨row, hrow, ha, rfl⟩

/-- A value that needs no bytes is spelt by the empty row. -/
theorem recognises_pure (a : α) :
    Recognises (pure a) fun b row => row = ByteArray.empty ∧ b = a := by
  intro bytes pos b next hpos
  rw [on_pure]
  constructor
  · intro h
    cases h
    exact ⟨ByteArray.empty, ⟨hpos, ByteArray.extract_same⟩, ⟨rfl, rfl⟩, rfl⟩
  · rintro ⟨row, -, ⟨rfl, rfl⟩, rfl⟩
    rfl

/-- **One scan behind the other**: one row behind the other. -/
theorem Recognises.bind {f : α → Scan β} {spellsF : α → β → ByteArray → Prop}
    (hm : Recognises m spells) (hf : ∀ a, Recognises (f a) (spellsF a)) :
    Recognises (m >>= f) fun b row =>
      ∃ a first rest, row = first ++ rest ∧ spells a first ∧ spellsF a b rest := by
  intro bytes pos b next hpos
  rw [on_bind]
  constructor
  · intro h
    cases hr : m.on bytes pos with
    | error fault => rw [hr] at h; cases h
    | ok r =>
      obtain ⟨a, mid⟩ := r
      rw [hr] at h
      obtain ⟨first, hfirst, ha, rfl⟩ := (hm bytes pos a mid hpos).mp hr
      obtain ⟨rest, hrest, hb, rfl⟩ := (hf a bytes _ b next hfirst.le).mp h
      refine ⟨first ++ rest, standsAt_append.mpr ⟨hfirst, hrest⟩, ⟨a, first, rest, rfl, ha, hb⟩, ?_⟩
      rw [ByteArray.size_append, Nat.add_assoc]
  · rintro ⟨row, hrow, ⟨a, first, rest, rfl, ha, hb⟩, rfl⟩
    obtain ⟨hfirst, hrest⟩ := standsAt_append.mp hrow
    rw [(hm bytes pos a _ hpos).mpr ⟨first, hfirst, ha, rfl⟩, ByteArray.size_append,
      ← Nat.add_assoc]
    exact (hf a bytes _ b _ hfirst.le).mpr ⟨rest, hrest, hb, rfl⟩

/-- What is made of a result is spelt by the row of the result. -/
theorem Recognises.map (f : α → β) (hm : Recognises m spells) :
    Recognises (f <$> m) fun b row => ∃ a, spells a row ∧ b = f a := by
  refine (hm.bind fun a => recognises_pure (f a)).congr fun b row => ?_
  constructor
  · rintro ⟨a, first, rest, rfl, ha, rfl, rfl⟩
    exact ⟨a, by rwa [ByteArray.append_empty], rfl⟩
  · rintro ⟨a, ha, rfl⟩
    exact ⟨a, row, ByteArray.empty, ByteArray.append_empty.symm, ha, rfl, rfl⟩

/-- A value that is made of two, each with a row of its own. -/
theorem Recognises.append {first : α → ByteArray} {second : β → ByteArray} {f : α → β → γ}
    {rest : α → Scan γ} (hm : Recognises m fun a row => row = first a)
    (hrest : ∀ a, Recognises (rest a) fun c row => ∃ b, row = second b ∧ c = f a b) :
    Recognises (m >>= rest) fun c row => ∃ a b, row = first a ++ second b ∧ c = f a b := by
  refine (hm.bind hrest).congr fun c row => ?_
  constructor
  · rintro ⟨a, _, _, rfl, rfl, b, rfl, rfl⟩
    exact ⟨a, b, rfl, rfl⟩
  · rintro ⟨a, b, rfl, rfl⟩
    exact ⟨a, _, _, rfl, rfl, b, rfl, rfl⟩

/-- A name for the place of a read does not change what it recognises. -/
theorem Recognises.within (place : Place) (hm : Recognises m spells) :
    Recognises (m.within place) spells := by
  intro bytes pos a next hpos
  rw [← hm bytes pos a next hpos, on_within]
  cases m.on bytes pos with
  | error fault => exact iff_of_false (fun h => nomatch h) fun h => nomatch h
  | ok r => exact Iff.rfl

/-! ## 4. The reads -/

/-- A number that is read with a checked read, and kept in a word that is wide enough. -/
theorem recognises_word {ofNat : Nat → α} (toNat : α → Nat) {width : Nat}
    {read : ByteArray → Nat → Except Fault α}
    (hread : ∀ bytes pos, read bytes pos = (readNumber bytes pos width).map ofNat)
    (hto : ∀ n, n < 256 ^ width → toNat (ofNat n) = n) (hof : ∀ a, ofNat (toNat a) = a) :
    Recognises (take width read) fun a row =>
      toNat a < 256 ^ width ∧ row = numeral width (toNat a) := by
  intro bytes pos a next _
  rw [take_eq_ok_iff, hread]
  constructor
  · rintro ⟨hok, rfl⟩
    cases hn : readNumber bytes pos width with
    | error fault => rw [hn] at hok; cases hok
    | ok n =>
      rw [hn] at hok
      cases hok
      obtain ⟨hlt, hrow⟩ := readNumber_eq_ok_iff_standsAt.mp hn
      refine ⟨numeral width n, hrow, ?_, by rw [size_numeral]⟩
      simp only [hto n hlt, and_true]
      exact hlt
  · rintro ⟨row, hrow, ⟨hlt, rfl⟩, rfl⟩
    rw [readNumber_eq_ok_iff_standsAt.mpr ⟨hlt, hrow⟩, size_numeral]
    exact ⟨congrArg Except.ok (hof a), rfl⟩

theorem recognises_u8 : Recognises u8 fun v row => row = [v].toByteArray := by
  refine (recognises_word UInt8.toNat (fun _ _ => rfl)
    (fun n hn => UInt8.toNat_ofNat_of_lt' hn) fun a => UInt8.ofNat_toNat).congr fun v row => ?_
  have hrow : numeral 1 v.toNat = [v].toByteArray := by simp [numeral, digits]
  rw [hrow]
  exact and_iff_right v.toNat_lt

theorem recognises_u16 : Recognises u16 fun v row => row = numeral 2 v.toNat := by
  refine (recognises_word UInt16.toNat (fun _ _ => rfl)
    (fun n hn => UInt16.toNat_ofNat_of_lt' hn) fun a => UInt16.ofNat_toNat).congr fun v row => ?_
  exact and_iff_right v.toNat_lt

theorem recognises_u24 :
    Recognises u24 fun v row => v.toNat < 2 ^ 24 ∧ row = numeral 3 v.toNat :=
  recognises_word UInt32.toNat (fun _ _ => rfl)
    (fun n hn => UInt32.toNat_ofNat_of_lt' (Nat.lt_trans hn (by decide)))
    fun _ => UInt32.ofNat_toNat

theorem recognises_u32 : Recognises u32 fun v row => row = numeral 4 v.toNat := by
  refine (recognises_word UInt32.toNat (fun _ _ => rfl)
    (fun n hn => UInt32.toNat_ofNat_of_lt' hn) fun a => UInt32.ofNat_toNat).congr fun v row => ?_
  exact and_iff_right v.toNat_lt

theorem recognises_slice (size : Nat) :
    Recognises (slice size) fun part row => row = part ∧ part.size = size := by
  intro bytes pos part next _
  rw [slice, take_eq_ok_iff, slice_eq_ok_iff]
  constructor
  · rintro ⟨⟨hle, rfl⟩, rfl⟩
    have hsize : (bytes.extract pos (pos + size)).size = size := by
      rw [ByteArray.size_extract]
      omega
    exact ⟨_, standsAt_extract hle, ⟨rfl, hsize⟩, by rw [hsize]⟩
  · rintro ⟨row, hrow, ⟨rfl, rfl⟩, rfl⟩
    exact ⟨⟨hrow.le, hrow.2.symm⟩, rfl⟩

/-- A byte can be read exactly where there is one. -/
theorem u8_on_eq_ok_iff {bytes : ByteArray} {pos : Nat} {v : UInt8} {next : Nat} :
    u8.on bytes pos = .ok (v, next) ↔ bytes[pos]? = some v ∧ next = pos + 1 := by
  rw [u8, take_eq_ok_iff, readU8, readNumber]
  refine and_congr_left fun _ => ?_
  by_cases hlt : pos < bytes.size
  · have hnumber : UInt8.ofNat (number bytes pos 1) = bytes[pos] := by
      simp [number, byteOr0, getElem?_pos bytes pos hlt]
    rw [if_pos (Nat.succ_le_of_lt hlt), getElem?_pos bytes pos hlt]
    simp [Except.map, hnumber]
  · rw [if_neg (by omega), getElem?_neg bytes pos hlt]
    simp [Except.map]

/-- A byte that does not count, and one that does. -/
theorem recognises_skip_u8 :
    Recognises (do advance 1; u8) fun v row => ∃ skipped, row = [skipped, v].toByteArray := by
  intro bytes pos v next hpos
  show u8.on bytes (pos + 1) = .ok (v, next) ↔ _
  constructor
  · intro h
    have hle : pos + 1 ≤ bytes.size := by
      obtain ⟨hbyte, -⟩ := u8_on_eq_ok_iff.mp h
      have := (getElem?_eq_some_iff.mp hbyte).1
      omega
    obtain ⟨row, hrow, rfl, rfl⟩ := (recognises_u8 bytes (pos + 1) v next hle).mp h
    have hfirst : StandsAt bytes pos [bytes[pos]].toByteArray :=
      ⟨hpos, ByteArray.extract_add_one hle⟩
    refine ⟨[bytes[pos], v].toByteArray, ?_, ⟨bytes[pos], rfl⟩, by simp⟩
    rw [toByteArray_cons]
    exact standsAt_append.mpr ⟨hfirst, by rwa [List.size_toByteArray]⟩
  · rintro ⟨row, hrow, ⟨skipped, rfl⟩, rfl⟩
    rw [toByteArray_cons] at hrow
    obtain ⟨hfirst, hsecond⟩ := standsAt_append.mp hrow
    rw [List.size_toByteArray] at hsecond
    have hle := hfirst.le
    exact (recognises_u8 bytes (pos + 1) v _ (by simpa using hle)).mpr
      ⟨_, hsecond, rfl, by simp⟩

/-! ## 5. Scans that fail only at the end of the image -/

/-- Whatever makes `m` fail is a read that leaves the image. -/
def FailsShort (m : Scan α) : Prop :=
  ∀ bytes pos fault, m.on bytes pos = .error fault → fault.LeavesImage bytes

theorem FailsShort.pure (a : α) : FailsShort (pure a : Scan α) := by
  intro bytes pos fault h
  cases h

theorem FailsShort.advance (n : Nat) : FailsShort (advance n) := by
  intro bytes pos fault h
  cases h

theorem FailsShort.bind {f : α → Scan β} (hm : FailsShort m) (hf : ∀ a, FailsShort (f a)) :
    FailsShort (m >>= f) := by
  intro bytes pos fault h
  rw [on_bind] at h
  cases hr : m.on bytes pos with
  | error e =>
    rw [hr] at h
    cases h
    exact hm bytes pos fault hr
  | ok r =>
    rw [hr] at h
    exact hf r.1 bytes r.2 fault h

theorem FailsShort.map (f : α → β) (hm : FailsShort m) : FailsShort (f <$> m) :=
  hm.bind fun a => FailsShort.pure (f a)

theorem FailsShort.within (place : Place) (hm : FailsShort m) : FailsShort (m.within place) := by
  intro bytes pos fault h
  rw [on_within] at h
  cases hr : m.on bytes pos with
  | ok r => rw [hr] at h; cases h
  | error e =>
    obtain ⟨offset, needed, place', rfl, hlt⟩ := hm bytes pos e hr
    rw [hr] at h
    cases h
    exact ⟨offset, needed, some place, rfl, hlt⟩

/-- A number that is read, and kept in a word. -/
theorem failsShort_word {ofNat : Nat → α} {width : Nat}
    {read : ByteArray → Nat → Except Fault α}
    (hread : ∀ bytes pos, read bytes pos = (readNumber bytes pos width).map ofNat) :
    FailsShort (take width read) := by
  intro bytes pos fault h
  rw [on_take, hread, readNumber] at h
  split at h
  · cases h
  · cases h
    exact ⟨pos, width, none, rfl, by omega⟩

theorem failsShort_u8 : FailsShort u8 := failsShort_word fun _ _ => rfl

theorem failsShort_u16 : FailsShort u16 := failsShort_word fun _ _ => rfl

theorem failsShort_u24 : FailsShort u24 := failsShort_word fun _ _ => rfl

theorem failsShort_u32 : FailsShort u32 := failsShort_word fun _ _ => rfl

theorem failsShort_slice (size : Nat) : FailsShort (slice size) := by
  intro bytes pos fault h
  rw [slice, on_take, Bytes.slice] at h
  split at h
  · cases h
  · cases h
    exact ⟨pos, size, none, rfl, by omega⟩

end Scan

end ChipLog
