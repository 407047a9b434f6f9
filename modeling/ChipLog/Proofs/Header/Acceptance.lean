/-
# Which images have a header, and what it says

An image has a header if it is long enough and begins with the ident; nothing that stands behind
the ident can spoil it (`Header.Accepted`).  Every field of such a header can be written down at once,
as a function of the bytes (`Header.laidOut`), and to read the header is to write its fields down
(`Header.parse_of_accepted`).

What a clock field says then hangs on two gates: the version must have introduced the field
(`ClockTier.since`), and from version 1.51 on the field must end before the command stream begins
and inside the image (`Header.toNat_clock_laidOut`).

Main statement: `Header.accepted_and_gated`.
-/
import ChipLog.Proofs.Bytes.Rows
import ChipLog.Proofs.Header.Fields

namespace ChipLog

/-! ## 1. Versions and words -/

/-- The version that introduced the fields of a tier, as the number that a header holds. -/
def ClockTier.since : ClockTier → Nat
  | .legacy => 0x100
  | .v110 => 0x110
  | .v151 => 0x151
  | .v161 => 0x161

/-- Versions are compared as numbers. -/
theorem Version.atLeast_eq_decide (version : Version) (major minor : UInt8) :
    version.atLeast major minor =
      decide ((ofNumbers major minor).raw.toNat ≤ version.raw.toNat) := rfl

theorem ClockTier.needsHeaderSpace_iff {tier : ClockTier} :
    tier.needsHeaderSpace = true ↔ tier = .v151 ∨ tier = .v161 := by
  cases tier <;> decide

theorem Version.atLeast_minVersion (version : Version) (tier : ClockTier) :
    version.atLeast tier.minVersion.1 tier.minVersion.2 =
      decide (tier.since ≤ version.raw.toNat) := by
  cases tier <;> rfl

namespace Bytes

/-- The word of four bytes at an offset. -/
def word (bytes : ByteArray) (off : Nat) : UInt32 := UInt32.ofNat (number bytes off 4)

@[simp] theorem toNat_word (bytes : ByteArray) (off : Nat) :
    (word bytes off).toNat = number bytes off 4 :=
  UInt32.toNat_ofNat_of_lt' (number_lt bytes off 4)

/-- The low half of a word is the number in its first two bytes. -/
theorem toNat_toUInt16_word (bytes : ByteArray) (off : Nat) :
    (word bytes off).toUInt16.toNat = number bytes off 2 := by
  have hlow := number_lt bytes off 2
  rw [UInt32.toNat_toUInt16, toNat_word]
  simp only [number] at hlow ⊢
  omega

theorem readU32_eq_word {bytes : ByteArray} {off : Nat} (h : off + 4 ≤ bytes.size) :
    readU32 bytes off = .ok (word bytes off) := by
  rw [readU32, readNumber_eq_ok_iff.mpr ⟨h, rfl⟩]
  rfl

end Bytes

namespace Header

/-! ## 2. The layout -/

/-- Long enough, and with the right ident in front. -/
structure Accepted (bytes : ByteArray) : Prop where
  size : minSize ≤ bytes.size
  ident : bytes.extract 0 4 = Header.ident

/-- Where a pointer leads; zero points nowhere. -/
def pointer (bytes : ByteArray) (field : HeaderField) : Option Nat :=
  if Bytes.number bytes field.offset 4 = 0 then none
  else some (field.offset + Bytes.number bytes field.offset 4)

/-- The version of a header. -/
def versionAt (bytes : ByteArray) : Version :=
  .ofWord (Bytes.word bytes HeaderField.version.offset)

/-- Where the command stream of a header begins. -/
def startAt (bytes : ByteArray) : Nat :=
  if (versionAt bytes).atLeast 1 50 then (pointer bytes .dataOffset).getD defaultDataStart
  else defaultDataStart

/-- The header that stands in an image, field by field. -/
def laidOut (bytes : ByteArray) : Header where
  version := versionAt bytes
  eofOffset := Bytes.word bytes HeaderField.eofOffset.offset
  totalSamples := Bytes.word bytes HeaderField.totalSamples.offset
  loopSamples := Bytes.word bytes HeaderField.loopSamples.offset
  rate := Bytes.word bytes HeaderField.rate.offset
  dataStart := startAt bytes
  loopOffset := pointer bytes .loopOffset
  tagOffset := pointer bytes .tagOffset
  clocks := readClocks bytes (versionAt bytes) (startAt bytes)
  fmClock :=
    if (versionAt bytes).atLeast 1 10 then ⟨0⟩
    else ⟨Bytes.word bytes ChipKind.ym2413.clockOffset⟩
  psgFlags :=
    if (versionAt bytes).atLeast 1 10 then
      (UInt16.ofNat (Bytes.number bytes HeaderField.psgFeedback.offset 2)).toUInt32 * 0x10000
        + (UInt8.ofNat (Bytes.number bytes HeaderField.psgWidth.offset 1)).toUInt32 * 0x100
    else defaultPsgFlags
  segaPcmInterface :=
    readTiered bytes (versionAt bytes) (startAt bytes) .v151 HeaderField.segaPcmInterface.offset

/-! ## 3. Reading is writing down -/

section Reading

variable {bytes : ByteArray}

theorem check_eq (bytes : ByteArray) :
    check bytes =
      if bytes.size < minSize then .error (.headerTooShort bytes.size)
      else if bytes.extract 0 4 = ident then .ok () else .error (.badIdent (bytes.extract 0 4)) := by
  unfold check
  split
  case isTrue => rfl
  case isFalse hsize =>
    have hslice : Bytes.slice bytes HeaderField.ident.offset 4 = .ok (bytes.extract 0 4) :=
      Bytes.slice_eq_ok_iff.mpr ⟨Nat.le_trans (by decide) (Nat.not_lt.mp hsize), rfl⟩
    rw [hslice]
    rfl

/-- The fields of a short header are all there. -/
theorem Accepted.readU32 (h : Accepted bytes) {off : Nat} (hoff : off + 4 ≤ minSize) :
    Bytes.readU32 bytes off = .ok (Bytes.word bytes off) :=
  Bytes.readU32_eq_word (Nat.le_trans hoff h.size)

theorem Accepted.readPointer (h : Accepted bytes) {field : HeaderField}
    (hfield : field.offset + 4 ≤ minSize) :
    readPointer bytes field = .ok (pointer bytes field) := by
  rw [Header.readPointer, h.readU32 hfield, pointer]
  show Except.ok (if Bytes.word bytes field.offset == 0 then none
    else some (field.offset + (Bytes.word bytes field.offset).toNat)) = _
  have hzero : (Bytes.word bytes field.offset == 0) =
      decide (Bytes.number bytes field.offset 4 = 0) := by
    rw [Bool.eq_iff_iff, beq_iff_eq, decide_eq_true_eq, ← Bytes.toNat_word, ← UInt32.toNat_inj]
    rfl
  rw [hzero, Bytes.toNat_word]
  simp only [decide_eq_true_eq]

theorem Accepted.readDataStart (h : Accepted bytes) :
    readDataStart bytes (versionAt bytes) = .ok (startAt bytes) := by
  rw [Header.readDataStart, startAt, h.readPointer (by decide)]
  split <;> rfl

theorem Accepted.readFmClock (h : Accepted bytes) :
    readFmClock bytes (versionAt bytes) = .ok (laidOut bytes).fmClock := by
  rw [Header.readFmClock, h.readU32 (by decide)]
  simp only [laidOut]
  split <;> rfl

theorem Accepted.readPsgFlags (h : Accepted bytes) :
    readPsgFlags bytes (versionAt bytes) = .ok (laidOut bytes).psgFlags := by
  have htaps : Bytes.readU16 bytes HeaderField.psgFeedback.offset =
      .ok (UInt16.ofNat (Bytes.number bytes HeaderField.psgFeedback.offset 2)) := by
    rw [Bytes.readU16,
      Bytes.readNumber_eq_ok_iff.mpr ⟨Nat.le_trans (by decide) h.size, rfl⟩]
    rfl
  have hwidth : Bytes.readU8 bytes HeaderField.psgWidth.offset =
      .ok (UInt8.ofNat (Bytes.number bytes HeaderField.psgWidth.offset 1)) := by
    rw [Bytes.readU8,
      Bytes.readNumber_eq_ok_iff.mpr ⟨Nat.le_trans (by decide) h.size, rfl⟩]
    rfl
  rw [Header.readPsgFlags, htaps, hwidth]
  simp only [laidOut]
  split <;> rfl

/-- **To read a header is to write its fields down.** -/
theorem parse_of_accepted (h : Accepted bytes) : parse bytes = .ok (laidOut bytes) := by
  have hcheck : check bytes = .ok () := by
    rw [check_eq, if_neg (Nat.not_lt.mpr h.size), if_pos h.ident]
  have hversion : Bytes.readU32 bytes HeaderField.version.offset =
      .ok (Bytes.word bytes HeaderField.version.offset) := h.readU32 (by decide)
  have hstart : Header.readDataStart bytes
      (.ofWord (Bytes.word bytes HeaderField.version.offset)) = .ok (startAt bytes) :=
    h.readDataStart
  have hfm : Header.readFmClock bytes (.ofWord (Bytes.word bytes HeaderField.version.offset)) =
      .ok (laidOut bytes).fmClock := h.readFmClock
  have hpsg : Header.readPsgFlags bytes (.ofWord (Bytes.word bytes HeaderField.version.offset)) =
      .ok (laidOut bytes).psgFlags := h.readPsgFlags
  simp only [parse, hcheck, hversion, bind, Except.bind, hstart, hfm, hpsg,
    h.readU32 (show HeaderField.eofOffset.offset + 4 ≤ minSize by decide),
    h.readU32 (show HeaderField.totalSamples.offset + 4 ≤ minSize by decide),
    h.readU32 (show HeaderField.loopSamples.offset + 4 ≤ minSize by decide),
    h.readU32 (show HeaderField.rate.offset + 4 ≤ minSize by decide),
    h.readPointer (show HeaderField.loopOffset.offset + 4 ≤ minSize by decide),
    h.readPointer (show HeaderField.tagOffset.offset + 4 ≤ minSize by decide)]
  rfl

/-- What comes of reading a header: the two faults of its first bytes, or the fields. -/
theorem parse_eq (bytes : ByteArray) :
    parse bytes =
      if bytes.size < minSize then .error (.headerTooShort bytes.size)
      else if bytes.extract 0 4 = ident then .ok (laidOut bytes)
      else .error (.badIdent (bytes.extract 0 4)) := by
  by_cases hsize : bytes.size < minSize
  · rw [if_pos hsize, parse, check_eq, if_pos hsize]
    rfl
  · by_cases hident : bytes.extract 0 4 = ident
    · rw [if_neg hsize, if_pos hident]
      exact parse_of_accepted ⟨Nat.not_lt.mp hsize, hident⟩
    · rw [if_neg hsize, if_neg hident, parse, check_eq, if_neg hsize, if_neg hident]
      rfl

/-- **An image has a header exactly if it is long enough and begins with the ident.** -/
theorem parse_eq_ok_iff {header : Header} :
    parse bytes = .ok header ↔ Accepted bytes ∧ header = laidOut bytes := by
  constructor
  · intro h
    rw [parse_eq] at h
    split at h
    case isTrue => cases h
    case isFalse hsize =>
      split at h
      case isTrue hident => exact ⟨⟨Nat.not_lt.mp hsize, hident⟩, (Except.ok.inj h).symm⟩
      case isFalse => cases h
  · rintro ⟨haccepted, rfl⟩
    exact parse_of_accepted haccepted

end Reading

/-! ## 4. Gates -/

section Gates

variable {bytes : ByteArray}

theorem toNat_raw_versionAt (bytes : ByteArray) :
    (versionAt bytes).raw.toNat = Bytes.number bytes 0x08 2 :=
  Bytes.toNat_toUInt16_word bytes 0x08

theorem startAt_eq (bytes : ByteArray) :
    startAt bytes =
      if Bytes.number bytes 0x08 2 < 0x150 ∨ Bytes.number bytes 0x34 4 = 0 then 0x40
      else 0x34 + Bytes.number bytes 0x34 4 := by
  have hversion : (versionAt bytes).atLeast 1 50 = decide (0x150 ≤ Bytes.number bytes 0x08 2) := by
    rw [Version.atLeast_eq_decide, toNat_raw_versionAt]
    rfl
  have hpointer : pointer bytes .dataOffset =
      if Bytes.number bytes 0x34 4 = 0 then none else some (0x34 + Bytes.number bytes 0x34 4) := rfl
  rw [startAt, hversion, hpointer]
  by_cases hold : Bytes.number bytes 0x08 2 < 0x150
  · rw [if_pos (Or.inl hold), decide_eq_false (Nat.not_le.mpr hold), if_neg Bool.false_ne_true]
    rfl
  · rw [decide_eq_true (Nat.not_lt.mp hold), if_pos rfl]
    by_cases hzero : Bytes.number bytes 0x34 4 = 0
    · rw [if_pos hzero, if_pos (Or.inr hzero)]
      rfl
    · rw [if_neg hzero, if_neg (not_or.mpr ⟨hold, hzero⟩)]
      rfl

/-- No command stream begins before the pointer to it. -/
theorem le_startAt (bytes : ByteArray) : 0x35 ≤ startAt bytes := by
  rw [startAt_eq]
  split
  case isTrue => decide
  case isFalse h =>
    have hpos := Nat.pos_of_ne_zero (not_or.mp h).2
    omega

/-- **A word behind its gates** is the number at its place if it counts and is in the image. -/
theorem toNat_readTiered (bytes : ByteArray) (version : Version) (dataStart : Nat)
    (tier : ClockTier) (offset : Nat) :
    (readTiered bytes version dataStart tier offset).toNat =
      if tier.since ≤ version.raw.toNat ∧ (tier.needsHeaderSpace = true → offset + 4 ≤ dataStart) ∧
        offset + 4 ≤ bytes.size
      then Bytes.number bytes offset 4 else 0 := by
  have hcounts : counts version dataStart tier offset = true ↔
      tier.since ≤ version.raw.toNat ∧
        (tier.needsHeaderSpace = true → offset + 4 ≤ dataStart) := by
    rw [counts, Version.atLeast_minVersion]
    cases tier.needsHeaderSpace <;> simp
  unfold readTiered
  by_cases hin : offset + 4 ≤ bytes.size
  · rw [Bytes.readU32_eq_word hin]
    by_cases hgate : counts version dataStart tier offset = true
    · rw [if_pos hgate, if_pos ⟨(hcounts.mp hgate).1, (hcounts.mp hgate).2, hin⟩]
      exact Bytes.toNat_word bytes offset
    · rw [if_neg hgate, if_neg fun h => hgate (hcounts.mpr ⟨h.1, h.2.1⟩)]
      rfl
  · have hread : Bytes.readU32 bytes offset = .error (.outOfRange offset 4 bytes.size none) := by
      rw [Bytes.readU32, Bytes.readNumber, if_neg hin]
      rfl
    rw [hread, ite_self, if_neg fun h => hin h.2.2]
    rfl

/-- The clock fields that need no header space of their own are in every header. -/
theorem clockOffset_le_of_early {kind : ChipKind} (h : kind.tier.needsHeaderSpace = false) :
    kind.clockOffset + 4 ≤ minSize := by
  cases kind <;> first | decide | cases h

/-- **The clock of a kind** is the word at its place, if the version has it and, from 1.51 on, if
it ends before the command stream and inside the image. -/
theorem toNat_clock_laidOut (h : Accepted bytes) (kind : ChipKind) :
    ((laidOut bytes).clock kind).raw.toNat =
      if kind.tier.since ≤ Bytes.number bytes 0x08 2 ∧
        (kind.tier.needsHeaderSpace = true →
          kind.clockOffset + 4 ≤ startAt bytes ∧ kind.clockOffset + 4 ≤ bytes.size)
      then Bytes.number bytes kind.clockOffset 4 else 0 := by
  have hclock : (laidOut bytes).clock kind =
      ⟨readTiered bytes (versionAt bytes) (startAt bytes) kind.tier kind.clockOffset⟩ := by
    rw [Header.clock, show (laidOut bytes).clocks = readClocks bytes (versionAt bytes)
      (startAt bytes) from rfl, readClocks, PerKind.get_ofFn]
  rw [hclock, toNat_readTiered, toNat_raw_versionAt]
  cases hspace : kind.tier.needsHeaderSpace with
  | false =>
    have hin : kind.clockOffset + 4 ≤ bytes.size :=
      Nat.le_trans (clockOffset_le_of_early hspace) h.size
    simp [hin]
  | true => simp

theorem fmClock_laidOut (bytes : ByteArray) :
    (laidOut bytes).fmClock.raw.toNat =
      if Bytes.number bytes 0x08 2 < 0x110 then Bytes.number bytes 0x10 4 else 0 := by
  have hversion : (versionAt bytes).atLeast 1 10 = decide (0x110 ≤ Bytes.number bytes 0x08 2) := by
    rw [Version.atLeast_eq_decide, toNat_raw_versionAt]
    rfl
  have hclock : (laidOut bytes).fmClock =
      if (versionAt bytes).atLeast 1 10 then ⟨0⟩ else ⟨Bytes.word bytes 0x10⟩ := rfl
  rw [hclock, hversion]
  by_cases hold : Bytes.number bytes 0x08 2 < 0x110
  · rw [if_pos hold, decide_eq_false (Nat.not_le.mpr hold), if_neg Bool.false_ne_true,
      Bytes.toNat_word]
  · rw [if_neg hold, decide_eq_true (Nat.not_lt.mp hold), if_pos rfl]
    rfl

/-- Below version 1.10 no clock field counts but the oldest. -/
theorem clock_laidOut_of_old (h : Accepted bytes) (hold : Bytes.number bytes 0x08 2 < 0x110)
    {kind : ChipKind} (htier : kind.tier ≠ .legacy) : ((laidOut bytes).clock kind).raw = 0 := by
  have hsince : 0x110 ≤ kind.tier.since := by
    cases hkind : kind.tier with
    | legacy => exact absurd hkind htier
    | v110 => decide
    | v151 => decide
    | v161 => decide
  rw [← UInt32.toNat_inj, toNat_clock_laidOut h, if_neg fun hgate => by omega]
  rfl

end Gates

/-- **Which images have a header, and which of its clock fields count.**  A header is refused for its
size or for its ident, and for nothing else.  The clock of a kind is the word at its place if the
version has the field and, for the fields of 1.51 and 1.61, if the field ends before the command
stream and inside the image; else it is zero.  The command stream begins at 0x40, or where a
pointer from version 1.50 on says, and never before 0x35.  The clock of an FM chip that is yet to be
decided exists only below version 1.10, where no field counts but the oldest. -/
theorem accepted_and_gated (bytes : ByteArray) :
    (parse bytes = .error (.headerTooShort bytes.size) ↔ bytes.size < 64) ∧
    (parse bytes = .error (.badIdent (bytes.extract 0 4)) ↔
      64 ≤ bytes.size ∧ bytes.extract 0 4 ≠ ident) ∧
    ((∃ header, parse bytes = .ok header) ↔ 64 ≤ bytes.size ∧ bytes.extract 0 4 = ident) ∧
    ∀ header, parse bytes = .ok header →
      header.version.raw.toNat = Bytes.number bytes 0x08 2 ∧
      (∀ kind, (header.clock kind).raw.toNat =
        if kind.tier.since ≤ header.version.raw.toNat ∧
          (kind.tier = .v151 ∨ kind.tier = .v161 →
            kind.clockOffset + 4 ≤ header.dataStart ∧ kind.clockOffset + 4 ≤ bytes.size)
        then Bytes.number bytes kind.clockOffset 4 else 0) ∧
      header.dataStart =
        (if header.version.raw.toNat < 0x150 ∨ Bytes.number bytes 0x34 4 = 0 then 0x40
        else 0x34 + Bytes.number bytes 0x34 4) ∧
      0x35 ≤ header.dataStart ∧
      header.fmClock.raw.toNat =
        (if header.version.raw.toNat < 0x110 then Bytes.number bytes 0x10 4 else 0) ∧
      (header.fmClock.raw ≠ 0 →
        header.version.raw.toNat < 0x110 ∧
          ∀ kind, kind.tier ≠ .legacy → (header.clock kind).raw = 0) := by
  have hmin : minSize = 64 := rfl
  refine ⟨?_, ?_, ?_, ?_⟩
  · rw [parse_eq, hmin]
    split
    case isTrue hsize => exact iff_of_true rfl hsize
    case isFalse hsize => split <;> simp [hsize]
  · rw [parse_eq, hmin]
    split
    case isTrue hsize =>
      refine iff_of_false (fun h => by cases h) fun h => absurd h.1 (Nat.not_le.mpr hsize)
    case isFalse hsize => split <;> simp_all
  · constructor
    · rintro ⟨header, h⟩
      have haccepted := (parse_eq_ok_iff.mp h).1
      exact ⟨haccepted.size, haccepted.ident⟩
    · rintro ⟨hsize, hident⟩
      exact ⟨_, parse_of_accepted ⟨hsize, hident⟩⟩
  · intro header h
    obtain ⟨haccepted, rfl⟩ := parse_eq_ok_iff.mp h
    have hversion : (laidOut bytes).version.raw.toNat = Bytes.number bytes 0x08 2 :=
      toNat_raw_versionAt bytes
    have hfm := fmClock_laidOut bytes
    rw [hversion]
    refine ⟨rfl, fun kind => ?_, startAt_eq bytes, le_startAt bytes, hfm, fun hopen => ?_⟩
    · simp only [toNat_clock_laidOut haccepted kind, ClockTier.needsHeaderSpace_iff]
      rfl
    · have hold : Bytes.number bytes 0x08 2 < 0x110 := Nat.not_le.mp fun hnew => by
        rw [if_neg (Nat.not_lt.mpr hnew)] at hfm
        exact hopen (UInt32.toNat_inj.mp hfm)
      exact ⟨hold, fun kind htier => clock_laidOut_of_old haccepted hold htier⟩

/-- A log of version 1.61 whose command stream begins at 0x44, in the middle of the clock fields, with
three sixtieths of a second. -/
def shortHeaderLog : ByteArray :=
  ident ++ (Bytes.digits 4 0 ++ Bytes.digits 4 0x161 ++ Bytes.digits 4 3579545
    ++ List.replicate 0x24 0 ++ Bytes.digits 4 0x10 ++ Bytes.digits 4 4000000 ++ Bytes.digits 4 0
    ++ Bytes.digits 4 12500000 ++ [0x62, 0x62, 0x62, 0x66]).toByteArray

/-- The RF5C68 field ends where the commands begin, and counts.  The YM2203 field would be made of
commands, and does not. -/
theorem shortHeaderLog_accepted_and_gated : ∃ header, parse shortHeaderLog = .ok header ∧
    header.dataStart = 0x44 ∧ (header.clock .rf5c68).raw.toNat = 12500000 ∧
    (header.clock .ym2203).raw.toNat = 0 ∧ Bytes.number shortHeaderLog 0x44 4 = 0x66626262 := by
  obtain ⟨-, -, haccepts, hfields⟩ := accepted_and_gated shortHeaderLog
  obtain ⟨header, hparse⟩ := haccepts.mpr ⟨by decide, by decide⟩
  obtain ⟨hversion, hclock, hstart, -⟩ := hfields header hparse
  rw [hversion] at hstart
  have hstart : header.dataStart = 0x44 := hstart.trans (by decide)
  refine ⟨header, hparse, hstart, ?_, ?_, by decide⟩
  · rw [hclock, hversion, hstart]
    decide
  · rw [hclock, hversion, hstart]
    decide

end Header

end ChipLog
