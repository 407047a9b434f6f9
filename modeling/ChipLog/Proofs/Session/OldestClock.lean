/-
# The oldest clock field

The clock of the SN76489 is older than all others, and its word stands in every header, at 0x0C.  Yet
it is read behind a gate like the others: it counts from version 1.00 on.  A log that gives a lower
version is accepted, but it has no SN76489, whatever the word says, and no other chip either
(`Header.clocks_of_unversioned`).  The common clock of the FM chips knows no such bound and is open
in the same log.

Main statement: a session has the SN76489 that the word is for exactly if the version is not below
1.00 or the word is zero (`Session.psg_counts_from_version_one`).
-/
import ChipLog.Proofs.Header.Acceptance
import ChipLog.Proofs.Session.Settings

namespace ChipLog

/-! ## 1. The gate -/

/-- One tier is older than version 1.10, and one kind belongs to it. -/
theorem ChipKind.tier_eq_legacy_iff {kind : ChipKind} : kind.tier = .legacy ↔ kind = .sn76489 := by
  cases kind <;> decide

namespace Header

variable {image : ByteArray} {header : Header}

/-- The first chip of a kind is declared if its clock field is not zero. -/
theorem declares_primary_iff {kind : ChipKind} :
    header.declares ⟨kind, .primary⟩ = true ↔ (header.clock kind).raw.toNat ≠ 0 := by
  have hzero : (header.clock kind).raw = 0 ↔ (header.clock kind).raw.toNat = 0 :=
    UInt32.toNat_inj.symm
  simp [declares, ClockField.declared, hzero]

/-- A header without clocks declares no chips. -/
theorem openingChips_eq_nil (h : ∀ kind, (header.clock kind).raw = 0) : header.openingChips = [] := by
  rw [openingChips, List.flatMap_eq_nil_iff]
  intro kind _
  rw [h kind]
  rfl

/-- The version of a header is the one that the log gives. -/
theorem toNat_raw_version (h : parse image = .ok header) :
    header.version.raw.toNat = Bytes.number image 0x08 2 := by
  obtain ⟨-, rfl⟩ := parse_eq_ok_iff.mp h
  exact toNat_raw_versionAt image

/-- **The oldest clock field counts from version 1.00 on.** -/
theorem toNat_clock_sn76489 (h : parse image = .ok header) :
    (header.clock .sn76489).raw.toNat =
      if 0x100 ≤ header.version.raw.toNat then Bytes.number image 0x0C 4 else 0 := by
  have hversion := toNat_raw_version h
  obtain ⟨haccepted, rfl⟩ := parse_eq_ok_iff.mp h
  rw [toNat_clock_laidOut haccepted, hversion]
  simp [ChipKind.tier, ClockTier.since, ClockTier.needsHeaderSpace, ChipKind.clockOffset]

/-- **Below version 1.00 no clock field counts**, but for the common one of the FM chips. -/
theorem clocks_of_unversioned (h : parse image = .ok header)
    (hversion : header.version.raw.toNat < 0x100) :
    (∀ kind, (header.clock kind).raw = 0) ∧ header.fmClock.raw.toNat = Bytes.number image 0x10 4 := by
  have hpsg := toNat_clock_sn76489 h
  rw [if_neg (Nat.not_le.mpr hversion)] at hpsg
  have hold : Bytes.number image 0x08 2 < 0x110 := by
    rw [← toNat_raw_version h]
    exact Nat.lt_trans hversion (by decide)
  obtain ⟨haccepted, rfl⟩ := parse_eq_ok_iff.mp h
  refine ⟨fun kind => ?_, by rw [fmClock_laidOut, if_pos hold]⟩
  by_cases htier : kind.tier = .legacy
  · rw [ChipKind.tier_eq_legacy_iff.mp htier]
    exact UInt32.toNat_inj.mp hpsg
  · exact clock_laidOut_of_old haccepted hold htier

end Header

/-! ## 2. Sessions -/

namespace Session

variable {σ : Type} [ChipEngine σ]

/-- The header has the word at 0x0C for the clock of the SN76489, and the chip is there exactly if
the word is not zero. -/
structure HasPsgAsStored (image : ByteArray) (session : Session σ) : Prop where
  clock : (session.header.clock .sn76489).raw.toNat = Bytes.number image 0x0C 4
  active : session.isActive ⟨.sn76489, .primary⟩ = true ↔ Bytes.number image 0x0C 4 ≠ 0

variable {engines : Factory σ} {image : ByteArray} {session : Session σ}

/-- A session begins with the chips that its header declares. -/
theorem chips_of_load (h : (load engines image).value = .ok session) :
    session.chips = session.header.openingChips := by
  obtain ⟨header, -, hheader, -, -, -, hdeck, -⟩ := load_deck h
  rw [chips, hdeck, Deck.activeChips_ofHeader, hheader]

/-- A session begins with the first chip of a kind exactly if the clock field of the kind is not
zero. -/
theorem isActive_primary_iff (h : (load engines image).value = .ok session) (kind : ChipKind) :
    session.isActive ⟨kind, .primary⟩ = true ↔ (session.header.clock kind).raw.toNat ≠ 0 := by
  obtain ⟨header, -, hheader, -, -, -, hdeck, -⟩ := load_deck h
  rw [isActive, Session.socket, hdeck, (Deck.ofHeader_chips engines header _).1, hheader]
  exact Header.declares_primary_iff

/-- **The SN76489 counts from version 1.00 on.**  Every image that has a header loads.  The clock of
the SN76489 is the word at 0x0C from version 1.00 on and zero below, and the chip is there, after any
script, exactly if the version is not below 1.00 and the word is not zero.  So it is there as the
word says unless a lower version comes with a word that is not zero; below 1.00 there is no chip at
all, though the common clock of the FM chips is open. -/
theorem psg_counts_from_version_one (engines : Factory σ) {image : ByteArray} {header : Header}
    (h : Header.parse image = .ok header) :
    header.version.raw.toNat = Bytes.number image 0x08 2 ∧
    (header.clock .sn76489).raw.toNat =
      (if 0x100 ≤ header.version.raw.toNat then Bytes.number image 0x0C 4 else 0) ∧
    ∃ session, (load engines image).value = .ok session ∧ session.header = header ∧
      (∀ calls, (session.after calls).isActive ⟨.sn76489, .primary⟩ = true ↔
        0x100 ≤ header.version.raw.toNat ∧ Bytes.number image 0x0C 4 ≠ 0) ∧
      (session.HasPsgAsStored image ↔
        0x100 ≤ header.version.raw.toNat ∨ Bytes.number image 0x0C 4 = 0) ∧
      (header.version.raw.toNat < 0x100 →
        session.chips = [] ∧ header.fmClock.raw.toNat = Bytes.number image 0x10 4) := by
  have hclock := Header.toNat_clock_sn76489 h
  have hload : (load engines image).value = .ok (opened engines image header) :=
    load_eq_ok_iff.mpr ⟨header, h, rfl⟩
  have hheader : (opened engines image header).header = header := rfl
  have hactive := isActive_primary_iff hload .sn76489
  rw [hheader, hclock] at hactive
  have hthere : (opened engines image header).isActive ⟨.sn76489, .primary⟩ = true ↔
      0x100 ≤ header.version.raw.toNat ∧ Bytes.number image 0x0C 4 ≠ 0 := by
    rw [hactive]
    split <;> simp_all
  refine ⟨Header.toNat_raw_version h, hclock, _, hload, rfl, fun calls => ?_,
    ⟨fun hstored => ?_, fun hgate => ?_⟩, fun hversion => ?_⟩
  · have hsettings : header.settings? .sn76489 ≠ none := by simp [Header.settings?]
    rw [isActive_after_of_settings? hsettings]
    exact hthere
  · by_contra hgate
    rw [not_or, ← ne_eq] at hgate
    exact hgate.1 (hthere.mp (hstored.active.mpr hgate.2)).1
  · rcases hgate with hversion | hzero
    · exact ⟨by rw [hheader, hclock, if_pos hversion], by rw [hthere, and_iff_right hversion]⟩
    · exact ⟨by rw [hheader, hclock, hzero, ite_self], by rw [hthere, hzero]; simp⟩
  · obtain ⟨hclocks, hfm⟩ := Header.clocks_of_unversioned h hversion
    exact ⟨(chips_of_load hload).trans (Header.openingChips_eq_nil hclocks), hfm⟩

/-- A log that gives 0.99 for its version, with an SN76489 at 3579545 Hz and an FM chip at 7670454 Hz
whose kind is open. -/
def unversionedLog : ByteArray :=
  Header.ident ++ (Bytes.digits 4 0 ++ Bytes.digits 4 0x99 ++ Bytes.digits 4 3579545
    ++ Bytes.digits 4 7670454 ++ List.replicate 44 0 ++ [0x66]).toByteArray

/-- The FM chip is yet to be decided, and the SN76489 is lost. -/
theorem unversionedLog_loses_its_psg : ∃ header session,
    Header.parse unversionedLog = .ok header ∧
    (load Bundled.factory unversionedLog).value = .ok session ∧ session.header = header ∧
    header.version.raw = 0x99 ∧ header.fmClock.raw.toNat = 7670454 ∧
    Bytes.number unversionedLog 0x0C 4 = 3579545 ∧ (header.clock .sn76489).raw.toNat = 0 ∧
    session.chips = [] := by
  have hversion : Bytes.number unversionedLog 0x08 2 = 0x99 := by decide
  have hfm : Bytes.number unversionedLog 0x10 4 = 7670454 := by decide
  obtain ⟨header, hparse, -⟩ := @load_of_dataStart unversionedLog 64 rfl
  obtain ⟨hraw, hclock, session, hload, hheader, -, -, hearly⟩ :=
    psg_counts_from_version_one Bundled.factory hparse
  rw [hversion] at hraw
  rw [hraw] at hclock hearly
  obtain ⟨hchips, hopen⟩ := hearly (by decide)
  exact ⟨header, session, hparse, hload, hheader, UInt16.toNat_inj.mp hraw, hopen.trans hfm,
    by decide, hclock, hchips⟩

/-- So not every log has its SN76489 as stored. -/
theorem not_all_psgs_as_stored : ¬ ∀ (image : ByteArray) (session : Session Bundled),
    (load Bundled.factory image).value = .ok session → session.HasPsgAsStored image := by
  intro hall
  have hrun : ((Header.parse unversionedLog).toOption.map fun header =>
      (header.clock .sn76489).raw.toNat) = some 0 := by decide +kernel
  obtain ⟨header, hparse, -, hload⟩ := @load_of_dataStart unversionedLog 64 rfl
  rw [hparse] at hrun
  have hclock : (header.clock .sn76489).raw.toNat = 0 := Option.some.inj hrun
  have hstored := (hall unversionedLog _ hload).clock
  have hword : Bytes.number unversionedLog 0x0C 4 = 3579545 := by decide
  rw [hword] at hstored
  exact absurd (hclock.symm.trans hstored) (by decide)

end Session

end ChipLog
