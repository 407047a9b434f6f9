/-
# What the fields of a header say

A header is read field by field, and the first field that cannot be read spoils it.  So of a header
that was read every field could be read (`Header.parse_fields`).

Before version 1.10 there is one clock field for three kinds of FM chip.  The fields that each of
them has later on do not count then, and the common field is open; from version 1.10 on it is the
other way round (`Header.parse_fmClock`).
-/
import ChipLog.Header.Basic

namespace ChipLog

/-- Of two readings in a row that succeed, each succeeds. -/
theorem Fault.eq_ok_of_bind {α β : Type} {first : Except Fault α} {second : α → Except Fault β}
    {b : β} (h : first >>= second = .ok b) : ∃ a, first = .ok a ∧ second a = .ok b := by
  cases first with
  | error fault => cases h
  | ok a => exact ⟨a, rfl, h⟩

/-- A reading that succeeds, succeeds under any name for its place. -/
theorem Fault.eq_ok_of_mapError {α : Type} {result : Except Fault α} {place : Place} {a : α}
    (h : result.mapError (within place) = .ok a) : result = .ok a := by
  cases result with
  | error fault => cases h
  | ok b => exact congrArg Except.ok (Except.ok.inj h)

/-- A word that is in the image can be read. -/
theorem Bytes.readU32_of_le {bytes : ByteArray} {off : Nat} (h : off + 4 ≤ bytes.size) :
    ∃ word, readU32 bytes off = .ok word := by
  refine ⟨UInt32.ofNat (number bytes off 4), ?_⟩
  rw [readU32, readNumber_eq_ok_iff.mpr ⟨h, rfl⟩]
  rfl

namespace Header

open Fault (eq_ok_of_bind)

variable {bytes : ByteArray} {header : Header}

/-- An image that passes for a log has room for a header. -/
theorem size_of_check (h : check bytes = .ok ()) : minSize ≤ bytes.size := by
  unfold check at h
  split at h
  case isTrue => cases h
  case isFalse hsize => exact Nat.not_lt.mp hsize

/-- **Of a header that was read, every field could be read.** -/
theorem parse_fields (h : parse bytes = .ok header) :
    minSize ≤ bytes.size ∧
      (∃ word, Bytes.readU32 bytes HeaderField.version.offset = .ok word ∧
        header.version = .ofWord word) ∧
      header.clocks = readClocks bytes header.version header.dataStart ∧
      readFmClock bytes header.version = .ok header.fmClock := by
  unfold parse at h
  obtain ⟨_, hcheck, h⟩ := eq_ok_of_bind h
  obtain ⟨word, hword, h⟩ := eq_ok_of_bind h
  obtain ⟨dataStart, -, h⟩ := eq_ok_of_bind h
  obtain ⟨eofOffset, -, h⟩ := eq_ok_of_bind h
  obtain ⟨totalSamples, -, h⟩ := eq_ok_of_bind h
  obtain ⟨loopSamples, -, h⟩ := eq_ok_of_bind h
  obtain ⟨rate, -, h⟩ := eq_ok_of_bind h
  obtain ⟨loopOffset, -, h⟩ := eq_ok_of_bind h
  obtain ⟨tagOffset, -, h⟩ := eq_ok_of_bind h
  obtain ⟨fmClock, hfm, h⟩ := eq_ok_of_bind h
  obtain ⟨psgFlags, -, h⟩ := eq_ok_of_bind h
  cases h
  exact ⟨size_of_check hcheck, ⟨word, hword, rfl⟩, rfl, hfm⟩

/-- **Either the common clock field of the FM chips is open, or each has a field of its own.** -/
theorem parse_fmClock (h : parse bytes = .ok header) :
    ∃ word clock, Bytes.readU32 bytes 0x08 = .ok word ∧ Bytes.readU32 bytes 0x10 = .ok clock ∧
      header.fmClock = (if (Version.ofWord word).atLeast 1 10 then ⟨0⟩ else ⟨clock⟩) ∧
      ((Version.ofWord word).atLeast 1 10 = false →
        ∀ kind, kind.tier = .v110 → header.clock kind = ⟨0⟩) := by
  obtain ⟨hsize, ⟨word, hword, hversion⟩, hclocks, hfm⟩ := parse_fields h
  rw [hversion] at hclocks hfm
  obtain ⟨clock, hclock⟩ := Bytes.readU32_of_le (Nat.le_trans (by decide : 0x10 + 4 ≤ minSize) hsize)
  refine ⟨word, clock, hword, hclock, ?_, fun hold kind htier => ?_⟩
  · unfold readFmClock at hfm
    split at hfm
    case isTrue hnew =>
      exact (Except.ok.inj hfm).symm.trans (if_pos hnew).symm
    case isFalse hold =>
      rw [show ChipKind.ym2413.clockOffset = 0x10 from rfl, hclock] at hfm
      exact (Except.ok.inj hfm).symm.trans (if_neg hold).symm
  · have hcounts : counts (.ofWord word) header.dataStart .v110 kind.clockOffset = false := by
      rw [counts, show ClockTier.v110.minVersion = (1, 10) from rfl, hold, Bool.false_and]
    rw [Header.clock, hclocks, readClocks, PerKind.get_ofFn, htier, readTiered, hcounts,
      if_neg Bool.false_ne_true]

end Header

end ChipLog
