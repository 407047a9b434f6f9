/-
# Tags are read as they are written

A tag is written as its ident, the version, a length and its texts, one behind the other
(`Tag.chunk`).  To look for a tag is the exact inverse of that (`Tag.lookUp_reads_chunks`):

* where the chunk of a tag stands, the tag is found, whatever is in front of it and behind it;
* where a tag is found, its chunk stands, and every text has its only zero unit at its end;
* where an ident and a version stand, there is a tag, unless the image ends before the length does or
  before there are zeros for all the texts.  Then the fault is the read that leaves the image.

The length is kept and does not matter.
-/
import ChipLog.Proofs.Header.Fields
import ChipLog.Proofs.Tag.Texts

namespace ChipLog

open Bytes

namespace Tag

/-! ## 1. Chunks -/

/-- The tag with certain texts. -/
def ofTexts (dataLength : UInt32) (texts : Vector (List UInt16) TagField.count) : Tag :=
  ⟨dataLength, texts.map TagText.ofUnits⟩

/-- The bytes in front of the texts of a tag. -/
def front (dataLength : UInt32) : ByteArray :=
  ident ++ (numeral 4 knownVersion.toNat ++ numeral 4 dataLength.toNat)

/-- The bytes of a tag. -/
def chunk (tag : Tag) : ByteArray :=
  front tag.dataLength ++ joined (tag.texts.toList.map fun text => unitsRow text.units.toList)

theorem chunk_ofTexts (dataLength : UInt32) (texts : Vector (List UInt16) TagField.count) :
    (ofTexts dataLength texts).chunk = front dataLength ++ unitsRow (terminated texts.toList) := by
  have hrows : ∀ texts : List (List UInt16),
      joined (texts.map fun text => unitsRow (TagText.ofUnits text).units.toList) =
        unitsRow (terminated texts) := by
    intro texts
    induction texts with
    | nil => rfl
    | cons text texts ih =>
      rw [List.map_cons, joined_cons, ih, terminated_cons, unitsRow_append]
      rfl
  rw [chunk, ofTexts, Vector.toList_map, List.map_map]
  exact congrArg _ (hrows texts.toList)

theorem size_front (dataLength : UInt32) : (front dataLength).size = 12 := by
  rw [front, ByteArray.size_append, ByteArray.size_append, size_numeral, size_numeral]
  rfl

/-- The texts of a tag are listed with their fields, in the order of the file. -/
theorem getElem?_fields (tag : Tag) {i : Nat} (hi : i < TagField.count) :
    tag.fields[i]? = some (TagField.all[i], tag.texts[i]) := by
  rw [fields, Vector.getElem?_toList, Vector.getElem?_eq_getElem hi, Vector.getElem_zip]

variable {bytes : ByteArray} {start : Nat}

/-! ## 2. What stands in front of the texts -/

/-- An ident and the known version stand at a position. -/
def Announced (bytes : ByteArray) (start : Nat) : Prop :=
  StandsAt bytes start (ident ++ numeral 4 knownVersion.toNat)

theorem announced_iff :
    Announced bytes start ↔
      slice bytes start 4 = .ok ident ∧ readU32 bytes (start + 4) = .ok knownVersion := by
  rw [Announced, standsAt_append, readU32_eq_ok_iff_standsAt]
  exact and_congr_left' slice_eq_ok_iff_standsAt.symm

theorem standsAt_front_iff {dataLength : UInt32} :
    StandsAt bytes start (front dataLength) ↔
      Announced bytes start ∧ readU32 bytes (start + 8) = .ok dataLength := by
  rw [front, ← ByteArray.append_assoc, standsAt_append, readU32_eq_ok_iff_standsAt]
  rfl

/-- Without a length the read of it leaves the image. -/
theorem readU32_of_lt {pos : Nat} (h : bytes.size < pos + 4) :
    readU32 bytes pos = .error (.outOfRange pos 4 bytes.size none) := by
  rw [readU32, readNumber, if_neg (Nat.not_le.mpr h)]
  rfl

/-- Where a tag is announced, the length and the texts are read. -/
theorem readAt_of_announced (h : Announced bytes start) :
    readAt bytes start = do
      let dataLength ← (readU32 bytes (start + 8)).mapError (Fault.within .tagLength)
      let (texts, _) ← readTexts bytes TagField.count (start + 12)
      return .found ⟨dataLength, texts⟩ := by
  obtain ⟨hident, hversion⟩ := announced_iff.mp h
  rw [readAt, hident, hversion]
  rfl

/-- Only where a tag is announced is one found. -/
theorem announced_of_readAt {tag : Tag} (h : readAt bytes start = .ok (.found tag)) :
    Announced bytes start := by
  rw [announced_iff]
  unfold readAt at h
  obtain ⟨found, hfound, h⟩ := Fault.eq_ok_of_bind h
  split at h
  case isTrue => cases h
  case isFalse hident =>
    obtain ⟨version, hversion, h⟩ := Fault.eq_ok_of_bind h
    split at h
    case isTrue => cases h
    case isFalse hknown =>
      rw [Fault.eq_ok_of_mapError hfound, Fault.eq_ok_of_mapError hversion,
        Decidable.not_not.mp hident, Decidable.not_not.mp hknown]
      exact ⟨rfl, rfl⟩

/-! ## 3. Reading -/

/-- **Where the chunk of a tag stands, the tag is read.** -/
theorem readAt_of_chunk {dataLength : UInt32} {texts : Vector (List UInt16) TagField.count}
    (h : StandsAt bytes start (ofTexts dataLength texts).chunk)
    (htexts : ∀ text ∈ texts.toList, 0 ∉ text) :
    readAt bytes start = .ok (.found (ofTexts dataLength texts)) := by
  rw [chunk_ofTexts, standsAt_append, size_front, standsAt_front_iff] at h
  obtain ⟨⟨hannounced, hlength⟩, hstands⟩ := h
  obtain ⟨-, rest, hunits⟩ := standsAt_unitsRow_iff.mp hstands
  rw [readAt_of_announced hannounced, hlength, readTexts_of_units hunits.symm htexts]
  rfl

/-- What is read where a tag is announced: the fault of a read that leaves the image, or the tag
whose chunk stands there. -/
theorem readAt_cases (h : Announced bytes start) :
    (bytes.size < start + 12 ∧
      readAt bytes start = .error (.outOfRange (start + 8) 4 bytes.size (some .tagLength))) ∨
    (start + 12 ≤ bytes.size ∧ (unitsFrom bytes (start + 12)).count 0 < TagField.count ∧
      readAt bytes start = .error (.outOfRange
        (start + 12 + 2 * (unitsFrom bytes (start + 12)).length) 2 bytes.size (some .tagText))) ∨
    (start + 12 ≤ bytes.size ∧ TagField.count ≤ (unitsFrom bytes (start + 12)).count 0 ∧
      ∃ dataLength texts, (∀ text ∈ texts.toList, 0 ∉ text) ∧
        StandsAt bytes start (ofTexts dataLength texts).chunk ∧
        readAt bytes start = .ok (.found (ofTexts dataLength texts))) := by
  by_cases hsize : bytes.size < start + 12
  · refine .inl ⟨hsize, ?_⟩
    rw [readAt_of_announced h, readU32_of_lt (by omega)]
    rfl
  have hsize := Nat.not_lt.mp hsize
  obtain ⟨dataLength, hlength⟩ : ∃ dataLength, readU32 bytes (start + 8) = .ok dataLength := by
    rw [readU32, readNumber, if_pos (by omega)]
    exact ⟨_, rfl⟩
  by_cases hfew : (unitsFrom bytes (start + 12)).count 0 < TagField.count
  · refine .inr (.inl ⟨hsize, hfew, ?_⟩)
    rw [readAt_of_announced h, hlength, readTexts_of_few_zeros hfew]
    rfl
  · have henough := Nat.not_lt.mp hfew
    obtain ⟨texts, rest, htexts, hunits⟩ := exists_terminated henough
    have hstands : StandsAt bytes start (ofTexts dataLength texts).chunk := by
      rw [chunk_ofTexts, standsAt_append, size_front, standsAt_front_iff]
      exact ⟨⟨h, hlength⟩, standsAt_unitsRow_iff.mpr ⟨hsize, rest, hunits.symm⟩⟩
    exact .inr (.inr ⟨hsize, henough, dataLength, texts, htexts, hstands,
      readAt_of_chunk hstands htexts⟩)

/-! ## 4. Looking -/

theorem value_lookUp {ι : Type} (bytes : ByteArray) (start : Nat) :
    (lookUp bytes (some start) : Logged ι _).value = (readAt bytes start).map Finding.tag? := by
  have hfind : find bytes (some start) = readAt bytes start := rfl
  rw [lookUp, hfind]
  cases readAt bytes start with
  | error fault => rfl
  | ok finding => rfl

/-- To look for a tag finds it where it is read. -/
theorem value_lookUp_eq_some_iff {ι : Type} {tag : Tag} :
    (lookUp bytes (some start) : Logged ι _).value = .ok (some tag) ↔
      readAt bytes start = .ok (.found tag) := by
  rw [value_lookUp]
  cases readAt bytes start with
  | error fault => exact iff_of_false (fun h => nomatch h) fun h => nomatch h
  | ok finding => cases finding <;> simp [Except.map, Finding.tag?]

/-- Texts that end with their only zero unit are those with some units. -/
theorem eq_ofTexts {tag : Tag}
    (h : ∀ text ∈ tag.texts.toList, ∃ units, 0 ∉ units ∧ text.units = (units ++ [0]).toArray) :
    ∃ texts, (∀ text ∈ texts.toList, 0 ∉ text) ∧ tag = ofTexts tag.dataLength texts := by
  have hunits : ∀ text ∈ tag.texts.toList,
      0 ∉ text.units.toList.dropLast ∧ TagText.ofUnits text.units.toList.dropLast = text := by
    intro text htext
    obtain ⟨units, hzero, hunits⟩ := h text htext
    obtain ⟨stored⟩ := text
    subst hunits
    rw [List.toList_toArray, List.dropLast_concat]
    exact ⟨hzero, rfl⟩
  refine ⟨tag.texts.map fun text => text.units.toList.dropLast, fun text htext => ?_, ?_⟩
  · rw [Vector.toList_map, List.mem_map] at htext
    obtain ⟨stored, hstored, rfl⟩ := htext
    exact (hunits stored hstored).1
  · obtain ⟨dataLength, texts⟩ := tag
    refine congrArg (Tag.mk dataLength) (Vector.toList_inj.mp ?_)
    rw [Vector.toList_map, Vector.toList_map, List.map_map]
    exact (List.map_id _).symm.trans (List.map_congr_left fun text htext => (hunits text htext).2.symm)

/-- **A tag is found exactly where its chunk stands**, if each of its texts has its only zero unit
at its end. -/
theorem value_lookUp_eq_some_iff_standsAt {ι : Type} {tag : Tag} :
    (lookUp bytes (some start) : Logged ι _).value = .ok (some tag) ↔
      StandsAt bytes start tag.chunk ∧
        ∀ text ∈ tag.texts.toList, ∃ units, 0 ∉ units ∧ text.units = (units ++ [0]).toArray := by
  rw [value_lookUp_eq_some_iff]
  constructor
  · intro h
    rcases readAt_cases (announced_of_readAt h) with
      ⟨-, hfault⟩ | ⟨-, -, hfault⟩ | ⟨-, -, dataLength, texts, htexts, hstands, hfound⟩
    · cases hfault.symm.trans h
    · cases hfault.symm.trans h
    · obtain rfl : ofTexts dataLength texts = tag :=
        Finding.found.inj (Except.ok.inj (hfound.symm.trans h))
      refine ⟨hstands, fun text htext => ?_⟩
      rw [ofTexts, Vector.toList_map, List.mem_map] at htext
      obtain ⟨units, hunits, rfl⟩ := htext
      exact ⟨units, htexts units hunits, rfl⟩
  · rintro ⟨hstands, hterminated⟩
    obtain ⟨texts, htexts, htag⟩ := eq_ofTexts hterminated
    rw [htag] at hstands ⊢
    exact readAt_of_chunk hstands htexts

/-- **Where a tag is announced, there is one**, unless the image ends before its length does or before
there are zeros for all its texts. -/
theorem value_lookUp_of_announced {ι : Type} (h : Announced bytes start) :
    ((∃ tag, (lookUp bytes (some start) : Logged ι _).value = .ok (some tag)) ↔
      start + 12 ≤ bytes.size ∧ TagField.count ≤ (unitsFrom bytes (start + 12)).count 0) ∧
    ∀ fault, (lookUp bytes (some start) : Logged ι _).value = .error fault ↔
      (bytes.size < start + 12 ∧
        fault = .outOfRange (start + 8) 4 bytes.size (some .tagLength)) ∨
      (start + 12 ≤ bytes.size ∧ (unitsFrom bytes (start + 12)).count 0 < TagField.count ∧
        fault = .outOfRange (start + 12 + 2 * (unitsFrom bytes (start + 12)).length) 2 bytes.size
          (some .tagText)) := by
  rw [value_lookUp]
  rcases readAt_cases h with
    ⟨hsize, hfault⟩ | ⟨hsize, hfew, hfault⟩ | ⟨hsize, henough, dataLength, texts, -, -, hfound⟩
  · rw [hfault]
    refine ⟨iff_of_false (fun h => nomatch h) fun h => Nat.not_le.mpr hsize h.1, fun fault => ?_⟩
    refine ⟨fun hother => .inl ⟨hsize, (Except.error.inj hother).symm⟩, ?_⟩
    rintro (⟨-, rfl⟩ | ⟨hle, -⟩)
    · rfl
    · exact absurd hle (Nat.not_le.mpr hsize)
  · rw [hfault]
    refine ⟨iff_of_false (fun h => nomatch h) fun h => Nat.not_le.mpr hfew h.2, fun fault => ?_⟩
    refine ⟨fun hother => .inr ⟨hsize, hfew, (Except.error.inj hother).symm⟩, ?_⟩
    rintro (⟨hlt, -⟩ | ⟨-, -, rfl⟩)
    · exact absurd hsize (Nat.not_le.mpr hlt)
    · rfl
  · rw [hfound]
    refine ⟨iff_of_true ⟨_, rfl⟩ ⟨hsize, henough⟩, fun fault => ?_⟩
    refine iff_of_false (fun h => nomatch h) ?_
    rintro (⟨hlt, -⟩ | ⟨-, hfew, -⟩)
    · exact absurd hsize (Nat.not_le.mpr hlt)
    · exact absurd henough (Nat.not_le.mpr hfew)

/-- The length has no part in which texts are found, or in the fault if there are none. -/
theorem texts_lookUp_front {ι : Type} (pre body : ByteArray) (dataLength dataLength' : UInt32) :
    (lookUp (pre ++ front dataLength ++ body) (some pre.size) : Logged ι _).value.map
        (Option.map texts) =
      (lookUp (pre ++ front dataLength' ++ body) (some pre.size) : Logged ι _).value.map
        (Option.map texts) := by
  have hsize : ∀ dataLength, (pre ++ front dataLength).size = pre.size + 12 := fun dataLength => by
    rw [ByteArray.size_append, size_front]
  have hread : ∀ dataLength, (readAt (pre ++ front dataLength ++ body) pre.size) =
      (readTexts (pre ++ front dataLength ++ body) TagField.count (pre ++ front dataLength).size).map
        fun texts => .found ⟨dataLength, texts.1⟩ := by
    intro dataLength
    obtain ⟨hannounced, hlength⟩ := standsAt_front_iff.mp (standsAt_between pre (front dataLength) body)
    rw [readAt_of_announced hannounced, hlength, hsize]
    cases readTexts (pre ++ front dataLength ++ body) TagField.count (pre.size + 12) with
    | error fault => rfl
    | ok texts => rfl
  rw [value_lookUp, value_lookUp, hread, hread,
    readTexts_append_right ((hsize dataLength).trans (hsize dataLength').symm)]
  cases readTexts (pre ++ front dataLength' ++ body) TagField.count
      (pre ++ front dataLength').size with
  | error fault => rfl
  | ok texts => rfl

/-- **Tags are read as they are written.** -/
theorem lookUp_reads_chunks {ι : Type} :
    -- what was written is read
    (∀ (pre post : ByteArray) (dataLength : UInt32)
        (texts : Vector (List UInt16) TagField.count), (∀ text ∈ texts.toList, 0 ∉ text) →
      ∃ tag,
        (lookUp (pre ++ (ident ++ (numeral 4 0x100 ++ numeral 4 dataLength.toNat) ++
          joined (texts.toList.map fun text => unitsRow (text ++ [0]))) ++ post)
          (some pre.size) : Logged ι _).value = .ok (some tag) ∧
        tag.dataLength = dataLength ∧
        ∀ i (hi : i < TagField.count), tag.fields[i]? = some (TagField.all[i], tag.texts[i]) ∧
          tag.texts[i].units = (texts[i] ++ [0]).toArray ∧
          tag.texts[i].textUnits = texts[i].toArray) ∧
    -- what is read was written
    (∀ bytes start tag, (lookUp bytes (some start) : Logged ι _).value = .ok (some tag) ↔
      StandsAt bytes start tag.chunk ∧
        ∀ text ∈ tag.texts.toList, ∃ units, 0 ∉ units ∧ text.units = (units ++ [0]).toArray) ∧
    -- what is announced is read, unless the image ends too early
    (∀ bytes start, StandsAt bytes start (ident ++ numeral 4 0x100) →
      ((∃ tag, (lookUp bytes (some start) : Logged ι _).value = .ok (some tag)) ↔
        start + 12 ≤ bytes.size ∧ TagField.count ≤ (unitsFrom bytes (start + 12)).count 0) ∧
      ∀ fault, (lookUp bytes (some start) : Logged ι _).value = .error fault ↔
        (bytes.size < start + 12 ∧
          fault = .outOfRange (start + 8) 4 bytes.size (some .tagLength)) ∨
        (start + 12 ≤ bytes.size ∧ (unitsFrom bytes (start + 12)).count 0 < TagField.count ∧
          fault = .outOfRange (start + 12 + 2 * (unitsFrom bytes (start + 12)).length) 2 bytes.size
            (some .tagText))) ∧
    -- neither the length nor what is behind the texts matters
    (∀ (pre body : ByteArray) (dataLength dataLength' : UInt32),
      (lookUp (pre ++ front dataLength ++ body) (some pre.size) : Logged ι _).value.map
          (Option.map texts) =
        (lookUp (pre ++ front dataLength' ++ body) (some pre.size) : Logged ι _).value.map
          (Option.map texts)) ∧
    ∀ bytes start tag more, (lookUp bytes (some start) : Logged ι _).value = .ok (some tag) →
      (lookUp (bytes.extract 0 (start + tag.chunk.size) ++ more) (some start) : Logged ι _).value =
        .ok (some tag) := by
  refine ⟨fun pre post dataLength texts htexts => ?_,
    fun bytes start tag => value_lookUp_eq_some_iff_standsAt,
    fun bytes start h => value_lookUp_of_announced h, texts_lookUp_front,
    fun bytes start tag more h => ?_⟩
  · have hchunk : ident ++ (numeral 4 0x100 ++ numeral 4 dataLength.toNat) ++
        joined (texts.toList.map fun text => unitsRow (text ++ [0])) =
          (ofTexts dataLength texts).chunk := by
      rw [chunk, ofTexts, Vector.toList_map, List.map_map]
      rfl
    rw [hchunk]
    refine ⟨ofTexts dataLength texts, value_lookUp_eq_some_iff.mpr
      (readAt_of_chunk (standsAt_between pre _ post) htexts), rfl, fun i hi => ?_⟩
    have htext : (ofTexts dataLength texts).texts[i] = TagText.ofUnits texts[i] :=
      Vector.getElem_map _ _
    rw [getElem?_fields _ hi, htext]
    exact ⟨rfl, rfl, TagText.textUnits_ofUnits _⟩
  · obtain ⟨hstands, hterminated⟩ := value_lookUp_eq_some_iff_standsAt.mp h
    exact value_lookUp_eq_some_iff_standsAt.mpr ⟨hstands.extract_append more, hterminated⟩

/-- A tag with a wrong length, an odd place, two texts and nine empty ones. -/
theorem lookUp_reads_a_short_tag : ∃ tag,
    (lookUp ([0xAA].toByteArray ++ (ident ++ (numeral 4 0x100 ++ numeral 4 7) ++
      joined (#v[[0x41, 0x42], [], [0x3042], [], [], [], [], [], [], [], []].toList.map
        fun text => unitsRow (text ++ [0]))) ++ [1, 2, 3].toByteArray)
      (some 1) : Logged Site _).value = .ok (some tag) ∧
    tag.dataLength = 7 ∧
    tag.fields[2]? = some (.gameEnglish, tag.texts[2]) ∧
    tag.texts[2].textUnits = #[0x3042] := by
  obtain ⟨tag, hfound, hlength, htexts⟩ := (@lookUp_reads_chunks Site).1 [0xAA].toByteArray
    [1, 2, 3].toByteArray 7 #v[[0x41, 0x42], [], [0x3042], [], [], [], [], [], [], [], []]
    (by decide)
  obtain ⟨hfield, -, htext⟩ := htexts 2 (by decide)
  exact ⟨tag, hfound, hlength, hfield, htext⟩

end Tag

end ChipLog
