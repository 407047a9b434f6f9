/-
# How far a header reaches

Short headers are common, and what stands behind one are commands.  A reader that took them for
clocks would start chips that the log does not have.  So a header must be known from the bytes in
front of the command stream alone, or from the first 0x38 if the stream begins before that: up to there
stand the fields that every header has.

Main statement: two images that agree on these bytes have the same header, whatever comes behind
(`Header.same_header_of_agree`).

Fields below 0x38 are read from bytes on which the images agree (`Bytes.AgreeTo.number`).  The
others are the clocks of the tiers 1.51 and 1.61 and the interface register, and those count only if
they end where the commands begin (`Header.end_le_of_counts`).  The limit itself comes from the
version and from the pointer at 0x34, which are below 0x38 both, so it is the same for both images.
-/
import ChipLog.Proofs.Header.Acceptance

namespace ChipLog

/-! ## 1. Images that begin in the same way -/

namespace Bytes

/-- Two images agree on their first `limit` bytes. -/
def AgreeTo (limit : Nat) (a b : ByteArray) : Prop := ∀ off < limit, a[off]? = b[off]?

namespace AgreeTo

variable {a b : ByteArray} {limit : Nat}

/-- A number in front of the limit is the same in both. -/
theorem number (h : AgreeTo limit a b) {off width : Nat} (hend : off + width ≤ limit) :
    Bytes.number a off width = Bytes.number b off width := by
  induction width generalizing off with
  | zero => rfl
  | succ width ih =>
    rw [Bytes.number, Bytes.number, byteOr0, byteOr0, h off (by omega), ih (by omega)]

theorem word (h : AgreeTo limit a b) {off : Nat} (hend : off + 4 ≤ limit) :
    Bytes.word a off = Bytes.word b off :=
  congrArg UInt32.ofNat (h.number hend)

/-- So is a row. -/
theorem extract (h : AgreeTo limit a b) {off width : Nat} (hend : off + width ≤ limit)
    (ha : limit ≤ a.size) (hb : limit ≤ b.size) :
    a.extract off (off + width) = b.extract off (off + width) := by
  have hrow : ∀ {bytes : ByteArray}, limit ≤ bytes.size →
      bytes.extract off (off + width) = numeral width (Bytes.number bytes off width) := by
    intro bytes hsize
    have hstands := (standsAt_numeral_number (Nat.le_trans hend hsize)).2
    rwa [size_numeral] at hstands
  rw [hrow ha, hrow hb, h.number hend]

end AgreeTo

end Bytes

open Bytes (AgreeTo)

namespace Header

/-! ## 2. Where the fields end -/

/-- Where the fields end that every header has. -/
def commonEnd : Nat := 0x38

/-- The bytes that a header with this command stream is read from. -/
def extent (dataStart : Nat) : Nat := max dataStart commonEnd

theorem commonEnd_le_extent (dataStart : Nat) : commonEnd ≤ extent dataStart := Nat.le_max_right _ _

/-- The clock fields that need no header space of their own are among those that every header has. -/
theorem clockOffset_le_commonEnd {kind : ChipKind} (h : kind.tier.needsHeaderSpace = false) :
    kind.clockOffset + 4 ≤ commonEnd := by
  cases kind <;> first | decide | cases h

/-- A word that counts ends where the commands begin, unless it needs no header space. -/
theorem end_le_of_counts {version : Version} {dataStart offset : Nat} {tier : ClockTier}
    (hearly : tier.needsHeaderSpace = false → offset + 4 ≤ commonEnd)
    (h : counts version dataStart tier offset = true) : offset + 4 ≤ extent dataStart := by
  have hgate : (!tier.needsHeaderSpace || decide (offset + 4 ≤ dataStart)) = true :=
    (Bool.and_eq_true_iff.mp h).2
  cases hspace : tier.needsHeaderSpace with
  | false => exact Nat.le_trans (hearly hspace) (commonEnd_le_extent dataStart)
  | true =>
    rw [hspace, Bool.not_true, Bool.false_or, decide_eq_true_eq] at hgate
    exact Nat.le_trans hgate (Nat.le_max_left _ _)

/-! ## 3. Headers of images that agree -/

section Agree

variable {a b : ByteArray} {limit : Nat}

/-- A word behind its gates is the same, if it ends in front of the limit whenever it counts. -/
theorem readTiered_of_agree (h : AgreeTo limit a b) (ha : limit ≤ a.size) (hb : limit ≤ b.size)
    {version : Version} {dataStart : Nat} {tier : ClockTier} {offset : Nat}
    (hend : counts version dataStart tier offset = true → offset + 4 ≤ limit) :
    readTiered a version dataStart tier offset = readTiered b version dataStart tier offset := by
  unfold readTiered
  split
  case isFalse => rfl
  case isTrue hcounts =>
    have hoffset := hend hcounts
    rw [Bytes.readU32_eq_word (Nat.le_trans hoffset ha),
      Bytes.readU32_eq_word (Nat.le_trans hoffset hb), h.word hoffset]

theorem versionAt_of_agree (h : AgreeTo commonEnd a b) : versionAt a = versionAt b :=
  congrArg Version.ofWord (h.word (by decide))

theorem pointer_of_agree (h : AgreeTo commonEnd a b) {field : HeaderField}
    (hfield : field.offset + 4 ≤ commonEnd) : pointer a field = pointer b field := by
  rw [pointer, pointer, h.number hfield]

/-- The command stream begins at the same place. -/
theorem startAt_of_agree (h : AgreeTo commonEnd a b) : startAt a = startAt b := by
  rw [startAt, startAt, versionAt_of_agree h, pointer_of_agree h (by decide)]

/-- **Headers laid out alike up to the command stream say the same.** -/
theorem laidOut_of_agree (h : AgreeTo (extent (startAt a)) a b)
    (ha : extent (startAt a) ≤ a.size) (hb : extent (startAt a) ≤ b.size) :
    laidOut a = laidOut b := by
  have hcommon : AgreeTo commonEnd a b := fun off hoff =>
    h off (Nat.lt_of_lt_of_le hoff (commonEnd_le_extent _))
  have hclocks : readClocks a (versionAt a) (startAt a) = readClocks b (versionAt a) (startAt a) := by
    refine PerKind.ext_get fun kind => ?_
    rw [readClocks, readClocks, PerKind.get_ofFn, PerKind.get_ofFn,
      readTiered_of_agree h ha hb (end_le_of_counts clockOffset_le_commonEnd)]
  have hregister :
      readTiered a (versionAt a) (startAt a) .v151 HeaderField.segaPcmInterface.offset =
        readTiered b (versionAt a) (startAt a) .v151 HeaderField.segaPcmInterface.offset :=
    readTiered_of_agree h ha hb (end_le_of_counts fun hspace => absurd hspace (by decide))
  simp only [laidOut, ← versionAt_of_agree hcommon, ← startAt_of_agree hcommon, hclocks,
    hregister,
    hcommon.word (show HeaderField.eofOffset.offset + 4 ≤ commonEnd by decide),
    hcommon.word (show HeaderField.totalSamples.offset + 4 ≤ commonEnd by decide),
    hcommon.word (show HeaderField.loopSamples.offset + 4 ≤ commonEnd by decide),
    hcommon.word (show HeaderField.rate.offset + 4 ≤ commonEnd by decide),
    hcommon.word (show ChipKind.ym2413.clockOffset + 4 ≤ commonEnd by decide),
    hcommon.number (show HeaderField.psgFeedback.offset + 2 ≤ commonEnd by decide),
    hcommon.number (show HeaderField.psgWidth.offset + 1 ≤ commonEnd by decide),
    pointer_of_agree hcommon (show HeaderField.loopOffset.offset + 4 ≤ commonEnd by decide),
    pointer_of_agree hcommon (show HeaderField.tagOffset.offset + 4 ≤ commonEnd by decide)]

end Agree

/-- How far a header reaches can be read off it. -/
theorem extent_laidOut (bytes : ByteArray) :
    max (laidOut bytes).dataStart 0x38 = extent (startAt bytes) := by
  simp only [laidOut, extent, commonEnd]

/-- **Commands never leak into the header.**  Take an image with a header, and another one that is long
enough for a header.  If both are as long as the header reaches, which is up to the command stream and
at least up to 0x38, and agree on the bytes up to there, the other one has the same header, field by
field, whatever stands behind these bytes and however much of it there is. -/
theorem same_header_of_agree {a b : ByteArray} {header : Header} (hparse : parse a = .ok header)
    (hmin : 0x40 ≤ b.size) (ha : max header.dataStart 0x38 ≤ a.size)
    (hb : max header.dataStart 0x38 ≤ b.size)
    (hagree : ∀ off < max header.dataStart 0x38, a[off]? = b[off]?) :
    parse b = .ok header := by
  obtain ⟨haccepted, rfl⟩ := parse_eq_ok_iff.mp hparse
  rw [extent_laidOut] at ha hb hagree
  have hagree : AgreeTo (extent (startAt a)) a b := hagree
  have hident : b.extract 0 4 = Header.ident := by
    rw [← haccepted.ident]
    have hfits : 0 + 4 ≤ extent (startAt a) := Nat.le_trans (by decide) (commonEnd_le_extent _)
    exact (hagree.extract hfits ha hb).symm
  exact parse_eq_ok_iff.mpr ⟨⟨hmin, hident⟩, laidOut_of_agree hagree ha hb⟩

/-- The log with the short header again, with other commands: many of them, which would be the clock of
a YM2203 and of everything behind it. -/
theorem shortHeaderLog_with_other_commands : ∃ header, parse shortHeaderLog = .ok header ∧
    header.dataStart = 0x44 ∧
    parse (shortHeaderLog.extract 0 0x44 ++ (List.replicate 0x60 0x70).toByteArray) = .ok header := by
  have hparse := parse_of_accepted (⟨by decide, by decide⟩ : Accepted shortHeaderLog)
  have hstart : (laidOut shortHeaderLog).dataStart = 0x44 :=
    (startAt_eq shortHeaderLog).trans (by decide)
  have hextent : max (laidOut shortHeaderLog).dataStart 0x38 = 0x44 := by rw [hstart]; rfl
  refine ⟨_, hparse, hstart, same_header_of_agree hparse ?_ ?_ ?_ ?_⟩
  · decide +kernel
  · rw [hextent]
    decide +kernel
  · rw [hextent]
    decide +kernel
  · rw [hextent]
    decide +kernel

end Header

end ChipLog
