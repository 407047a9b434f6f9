/-
# Texts are found by their zero units

The texts of a tag stand one behind the other, and nothing but a zero unit says where one ends.  So
what is read depends on the units that the image has from the first text on, two bytes each, up to
its end (`unitsFrom`), and of these only on the ones up to the last zero that is needed.

* The texts in front of enough zeros are read as they are (`Tag.readTexts_of_units`).
* There are texts to read as long as there are zeros (`exists_terminated`).
* If there are too few zeros, the read that leaves the image is the one behind the last whole unit
  (`Tag.readTexts_of_few_zeros`).
-/
import ChipLog.Proofs.Bytes.Rows
import ChipLog.Tag.Basic

namespace ChipLog

open Bytes

/-! ## 1. Units -/

/-- The row of some units, two bytes each. -/
def unitsRow (units : List UInt16) : ByteArray := joined (units.map fun unit => numeral 2 unit.toNat)

@[simp] theorem unitsRow_cons (unit : UInt16) (units : List UInt16) :
    unitsRow (unit :: units) = numeral 2 unit.toNat ++ unitsRow units := rfl

theorem unitsRow_append (first second : List UInt16) :
    unitsRow (first ++ second) = unitsRow first ++ unitsRow second := by
  rw [unitsRow, List.map_append, joined_append]
  rfl

/-- The whole units from a position to the end of the image. -/
def unitsFrom (bytes : ByteArray) (pos : Nat) : List UInt16 :=
  if pos + 2 ≤ bytes.size then UInt16.ofNat (number bytes pos 2) :: unitsFrom bytes (pos + 2) else []
termination_by bytes.size - pos

variable {bytes : ByteArray} {pos : Nat}

theorem unitsFrom_of_le (h : pos + 2 ≤ bytes.size) :
    unitsFrom bytes pos = UInt16.ofNat (number bytes pos 2) :: unitsFrom bytes (pos + 2) := by
  rw [unitsFrom, if_pos h]

theorem unitsFrom_of_lt (h : bytes.size < pos + 2) : unitsFrom bytes pos = [] := by
  rw [unitsFrom, if_neg (Nat.not_le.mpr h)]

theorem unitsFrom_eq_cons_iff {unit : UInt16} {units : List UInt16} :
    unitsFrom bytes pos = unit :: units ↔
      pos + 2 ≤ bytes.size ∧ UInt16.ofNat (number bytes pos 2) = unit ∧
        unitsFrom bytes (pos + 2) = units := by
  by_cases h : pos + 2 ≤ bytes.size
  · rw [unitsFrom_of_le h, List.cons.injEq, and_iff_right h]
  · rw [unitsFrom_of_lt (Nat.not_le.mp h)]
    exact iff_of_false (fun h => nomatch h) fun hall => h hall.1

/-- Units behind a row do not depend on the row. -/
theorem unitsFrom_append_right (front bytes : ByteArray) (pos : Nat) :
    unitsFrom (front ++ bytes) (front.size + pos) = unitsFrom bytes pos := by
  fun_induction unitsFrom bytes pos with
  | case1 pos hle ih =>
    rw [unitsFrom_of_le (by rw [ByteArray.size_append]; omega), number_append_right, Nat.add_assoc, ih]
  | case2 pos hlt => exact unitsFrom_of_lt (by rw [ByteArray.size_append]; omega)

/-- Behind some of the units come the others. -/
theorem unitsFrom_append {front rest : List UInt16} (h : unitsFrom bytes pos = front ++ rest) :
    unitsFrom bytes (pos + 2 * front.length) = rest := by
  induction front generalizing pos with
  | nil => exact h
  | cons unit front ih =>
    have hrest := ih (unitsFrom_eq_cons_iff.mp h).2.2
    rwa [show pos + 2 + 2 * front.length = pos + 2 * (unit :: front).length by
      rw [List.length_cons]
      omega] at hrest

/-- **A row of units stands where the units begin with it.** -/
theorem standsAt_unitsRow_iff {units : List UInt16} :
    StandsAt bytes pos (unitsRow units) ↔ pos ≤ bytes.size ∧ units <+: unitsFrom bytes pos := by
  induction units generalizing pos with
  | nil =>
    refine ⟨fun h => ⟨h.1, List.nil_prefix⟩, fun h => ⟨h.1, ?_⟩⟩
    exact ByteArray.extract_same
  | cons unit units ih =>
    have hunit : StandsAt bytes pos (numeral 2 unit.toNat) ↔
        pos + 2 ≤ bytes.size ∧ UInt16.ofNat (number bytes pos 2) = unit := by
      have hread := @readNumber_eq_ok_iff_standsAt bytes pos 2 unit.toNat
      rw [and_iff_right (show unit.toNat < 256 ^ 2 from unit.toNat_lt)] at hread
      rw [← hread, readNumber_eq_ok_iff]
      refine and_congr_right fun _ => ?_
      rw [← UInt16.toNat_inj, UInt16.toNat_ofNat_of_lt' (number_lt bytes pos 2)]
      exact eq_comm
    rw [unitsRow_cons, standsAt_append, hunit, size_numeral, ih]
    constructor
    · rintro ⟨⟨hle, rfl⟩, -, hrest⟩
      rw [unitsFrom_of_le hle]
      exact ⟨by omega, List.prefix_cons_inj _ |>.mpr hrest⟩
    · rintro ⟨-, rest, hrest⟩
      obtain ⟨hle, hfirst, hrest⟩ := unitsFrom_eq_cons_iff.mp hrest.symm
      exact ⟨⟨hle, hfirst⟩, hle, rest, hrest.symm⟩

/-! ## 2. One text -/

/-- The text with some units, which ends with a zero unit. -/
def TagText.ofUnits (units : List UInt16) : TagText := ⟨(units ++ [0]).toArray⟩

/-- The units of a text do not include the zero unit. -/
@[simp] theorem TagText.textUnits_ofUnits (units : List UInt16) :
    (ofUnits units).textUnits = units.toArray := by
  simp [ofUnits, textUnits]

namespace Tag

/-- What stands in front of a zero is a text. -/
theorem readText_of_units {front rest : List UInt16} (units : Array UInt16)
    (h : unitsFrom bytes pos = front ++ 0 :: rest) (hfront : 0 ∉ front) :
    readText bytes units pos =
      .ok (⟨units ++ (front ++ [0]).toArray⟩, pos + 2 * (front.length + 1)) := by
  induction front generalizing pos units with
  | nil =>
    obtain ⟨hle, hzero, -⟩ := unitsFrom_eq_cons_iff.mp h
    rw [readText, if_pos hle]
    simp [hzero]
  | cons unit front ih =>
    obtain ⟨hle, rfl, hrest⟩ := unitsFrom_eq_cons_iff.mp h
    rw [List.mem_cons, not_or] at hfront
    rw [readText, if_pos hle]
    simp only [if_neg (Ne.symm hfront.1)]
    rw [ih (units.push _) hrest hfront.2, List.length_cons]
    refine congrArg Except.ok (Prod.ext (congrArg TagText.mk ?_) (by simp only; omega))
    simp

/-- Without a zero, the read behind the last whole unit leaves the image. -/
theorem readText_of_no_zero {rest : List UInt16} (units : Array UInt16)
    (h : unitsFrom bytes pos = rest) (hrest : 0 ∉ rest) :
    readText bytes units pos =
      .error (.outOfRange (pos + 2 * rest.length) 2 bytes.size (some .tagText)) := by
  induction rest generalizing pos units with
  | nil =>
    have hend : ¬ pos + 2 ≤ bytes.size := fun hle => by
      rw [unitsFrom_of_le hle] at h
      cases h
    rw [readText, if_neg hend]
    rfl
  | cons unit rest ih =>
    obtain ⟨hle, rfl, hnext⟩ := unitsFrom_eq_cons_iff.mp h
    rw [List.mem_cons, not_or] at hrest
    rw [readText, if_pos hle]
    simp only [if_neg (Ne.symm hrest.1)]
    rw [ih (units.push _) hnext hrest.2, List.length_cons,
      show pos + 2 + 2 * rest.length = pos + 2 * (rest.length + 1) by omega]

end Tag

/-! ## 3. Many texts -/

/-- Texts one behind the other, each with a zero unit behind it. -/
def terminated (texts : List (List UInt16)) : List UInt16 := texts.flatMap (· ++ [0])

@[simp] theorem terminated_cons (units : List UInt16) (texts : List (List UInt16)) :
    terminated (units :: texts) = units ++ [0] ++ terminated texts := rfl

theorem terminated_push {n : Nat} (texts : Vector (List UInt16) n) (units : List UInt16) :
    terminated (texts.push units).toList = terminated texts.toList ++ (units ++ [0]) := by
  rw [terminated, Vector.toList_push, List.flatMap_append]
  exact congrArg _ (List.append_nil _)

/-- Texts that stand one behind the other have as many zeros as there are texts. -/
theorem count_terminated {texts : List (List UInt16)} (h : ∀ units ∈ texts, 0 ∉ units) :
    (terminated texts).count 0 = texts.length := by
  induction texts with
  | nil => rfl
  | cons units texts ih =>
    have hfirst : units.count 0 = 0 := List.count_eq_zero.mpr (h units List.mem_cons_self)
    have hrest := ih fun units hunits => h units (List.mem_cons_of_mem _ hunits)
    rw [terminated_cons, List.count_append, List.count_append, hfirst, hrest, List.length_cons,
      List.count_singleton_self, Nat.zero_add, Nat.add_comm]

/-- **As long as there are zeros, there are texts.** -/
theorem exists_terminated {n : Nat} {units : List UInt16} (h : n ≤ units.count 0) :
    ∃ (texts : Vector (List UInt16) n) (rest : List UInt16),
      (∀ text ∈ texts.toList, 0 ∉ text) ∧ units = terminated texts.toList ++ rest := by
  induction n with
  | zero => exact ⟨#v[], units, nofun, rfl⟩
  | succ n ih =>
    obtain ⟨texts, rest, htexts, rfl⟩ := ih (Nat.le_of_succ_le h)
    rw [List.count_append, count_terminated htexts, Vector.length_toList] at h
    obtain ⟨text, rest, rfl, htext⟩ := List.eq_append_cons_of_mem
      (List.count_pos_iff.mp (show 0 < rest.count 0 by omega))
    refine ⟨texts.push text, rest, ?_, ?_⟩
    · intro other hother
      rw [Vector.toList_push, List.mem_append, List.mem_singleton] at hother
      rcases hother with hother | rfl
      · exact htexts other hother
      · exact htext
    · rw [terminated_push]
      simp

namespace Tag

/-- The last text is read behind the others. -/
theorem readTexts_succ_of_ok {n next : Nat} {texts : Vector TagText n}
    (h : readTexts bytes n pos = .ok (texts, next)) :
    readTexts bytes (n + 1) pos =
      (readText bytes #[] next).map fun last => (texts.push last.1, last.2) := by
  rw [readTexts, h]
  show (readText bytes #[] next >>= fun last => pure (texts.push last.1, last.2)) = _
  cases readText bytes #[] next with
  | error fault => rfl
  | ok last => rfl

/-- **Texts in front of enough zeros are read as they are.** -/
theorem readTexts_of_units {n : Nat} {texts : Vector (List UInt16) n} {rest : List UInt16}
    (h : unitsFrom bytes pos = terminated texts.toList ++ rest)
    (htexts : ∀ text ∈ texts.toList, 0 ∉ text) :
    readTexts bytes n pos =
      .ok (texts.map TagText.ofUnits, pos + 2 * (terminated texts.toList).length) := by
  induction n generalizing rest with
  | zero =>
    obtain rfl : texts = #v[] := Vector.eq_empty
    rw [readTexts]
    simp [terminated]
  | succ n ih =>
    obtain ⟨texts, text, rfl⟩ : ∃ front text, texts = Vector.push front text :=
      ⟨texts.pop, texts.back, (Vector.push_pop_back texts).symm⟩
    have hmem : ∀ other, other ∈ texts.toList ∨ other = text → 0 ∉ other := fun other hother => by
      refine htexts other ?_
      rwa [Vector.toList_push, List.mem_append, List.mem_singleton]
    rw [terminated_push, List.append_assoc, List.append_assoc] at h
    have hfront := ih h fun other hother => hmem other (.inl hother)
    have hlast := readText_of_units #[] (unitsFrom_append h) (hmem text (.inr rfl))
    rw [readTexts_succ_of_ok hfront, hlast, terminated_push, List.length_append]
    refine congrArg Except.ok (Prod.ext ?_ ?_)
    · simp [TagText.ofUnits, Vector.map_push]
    · simp only [List.length_append, List.length_singleton]
      omega

/-- **If there are too few zeros, the read behind the last whole unit leaves the image.** -/
theorem readTexts_of_few_zeros {n : Nat} (h : (unitsFrom bytes pos).count 0 < n) :
    readTexts bytes n pos = .error
      (.outOfRange (pos + 2 * (unitsFrom bytes pos).length) 2 bytes.size (some .tagText)) := by
  induction n with
  | zero => cases h
  | succ n ih =>
    by_cases hfew : (unitsFrom bytes pos).count 0 < n
    · rw [readTexts, ih hfew]
      rfl
    · obtain ⟨texts, rest, htexts, hunits⟩ := exists_terminated (Nat.not_lt.mp hfew)
      -- there is a zero for every text but the last one
      have hrest : 0 ∉ rest := by
        rw [hunits, List.count_append, count_terminated htexts, Vector.length_toList] at h
        rw [← List.count_eq_zero]
        omega
      have hfront := readTexts_of_units hunits htexts
      have hlast := readText_of_no_zero #[] (unitsFrom_append hunits) hrest
      rw [readTexts_succ_of_ok hfront, hlast, hunits, List.length_append, Nat.mul_add,
        Nat.add_assoc]
      rfl

/-- What is in front of the texts has no part in what is read. -/
theorem readTexts_append_right {front front' : ByteArray} (hsize : front.size = front'.size)
    (bytes : ByteArray) (n : Nat) :
    readTexts (front ++ bytes) n front.size = readTexts (front' ++ bytes) n front'.size := by
  have hunits := unitsFrom_append_right front bytes 0
  have hunits' := unitsFrom_append_right front' bytes 0
  rw [Nat.add_zero] at hunits hunits'
  by_cases hfew : (unitsFrom bytes 0).count 0 < n
  · rw [readTexts_of_few_zeros (by rwa [hunits]), readTexts_of_few_zeros (by rwa [hunits']), hunits,
      hunits', ByteArray.size_append, ByteArray.size_append, hsize]
  · obtain ⟨texts, rest, htexts, hsplit⟩ := exists_terminated (Nat.not_lt.mp hfew)
    rw [readTexts_of_units (hunits.trans hsplit) htexts,
      readTexts_of_units (hunits'.trans hsplit) htexts, hsize]

end Tag

end ChipLog
