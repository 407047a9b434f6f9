/-
# Which chips a session has, and what becomes of them

A session begins with the chips that its header declares (`Session.chips_of_load`): the kinds whose
clock field is not zero, in mixing order, the second chip only where bit 30 of the field is set.  An
FM chip may join them later on (`Proofs/Session/FmKind`), and nothing else ever does.

* At any time a second chip stands beside a first one, and all chips of a kind run at the clock that
  the header has for the kind (`Deck.Staffed`).
* The engine of a chip is made once, started once, before anything else happens to it, and never
  replaced.  A site that has no engine has not heard anything, whatever was written to it.  In
  between, the journal of the session says of every engine what has been done to it
  (`Session.Story`).

That the journal does not make this up is seen from engines that keep a record
(`Proofs/Session/Recording`): the record of an engine begins with its start, has the calls of the
journal in it and otherwise nothing but clocks, and is what has made the engine what it is.
-/
import ChipLog.Proofs.Board.Lives
import ChipLog.Proofs.Session.Recording
import ChipLog.Proofs.Session.Turns
import Mathlib.Data.Nat.Bitwise

namespace ChipLog

open Event (heardBy)

/-! ## 1. Clock fields -/

namespace ClockField

/-- The frequency is in the thirty low bits. -/
theorem hz_eq_and (field : ClockField) : field.hz = field.raw &&& 0x3FFFFFFF := by
  rw [hz, ← UInt32.toNat_inj, UInt32.toNat_mod, UInt32.toNat_and]
  exact (Nat.and_two_pow_sub_one_eq_mod field.raw.toNat 30).symm

/-- Bit 30 is for the second chip. -/
theorem dual_iff_and {field : ClockField} : field.dual = true ↔ field.raw &&& 0x40000000 ≠ 0 := by
  have hmask : (field.raw &&& 0x40000000).toNat =
      (field.raw.toNat.testBit 30).toNat * 2 ^ 30 := by
    rw [UInt32.toNat_and]
    exact Nat.and_two_pow field.raw.toNat 30
  have hbit : field.dual = field.raw.toNat.testBit 30 := by
    rw [Nat.testBit_eq_decide_div_mod_eq, dual, Bool.eq_iff_iff, beq_iff_eq,
      decide_eq_true_iff, ← UInt32.toNat_inj, UInt32.toNat_mod, UInt32.toNat_div]
    rfl
  rw [hbit, ne_eq, ← UInt32.toNat_inj, hmask]
  cases field.raw.toNat.testBit 30 with
  | false => simp
  | true => simp

end ClockField

namespace Header

/-- The chips that a header declares, with their clocks, in mixing order. -/
def openingChips (header : Header) : List (Site × UInt32) :=
  ChipKind.all.flatMap fun kind =>
    let raw := (header.clock kind).raw
    if raw = 0 then []
    else if raw &&& 0x40000000 = 0 then [(⟨kind, .primary⟩, raw &&& 0x3FFFFFFF)]
    else [(⟨kind, .primary⟩, raw &&& 0x3FFFFFFF), (⟨kind, .secondary⟩, raw &&& 0x3FFFFFFF)]

/-- The clock that chips of a kind run at: that of the kind itself, if it is declared, and else the
one for an FM chip that is yet to be decided.  The two high bits are not part of it. -/
def hzFor (header : Header) (kind : ChipKind) : UInt32 :=
  (if (header.clock kind).declared then header.clock kind else header.fmClock).raw &&& 0x3FFFFFFF

theorem openingChips_eq (header : Header) :
    header.openingChips =
      (Site.all.filter header.declares).map fun site => (site, (header.clock site.kind).hz) := by
  rw [openingChips, Site.all, List.filter_flatMap, List.map_flatMap]
  congr 1
  funext kind
  simp only [ClockField.hz_eq_and]
  by_cases hraw : (header.clock kind).raw = 0
  · rw [if_pos hraw]
    simp [declares, ClockField.declared, hraw]
  · rw [if_neg hraw]
    by_cases hdual : (header.clock kind).raw &&& 0x40000000 = 0
    · have hsingle : (header.clock kind).dual = false := by
        rw [← Bool.not_eq_true, ClockField.dual_iff_and, not_not]
        exact hdual
      rw [if_pos hdual]
      simp [declares, ClockField.declared, hraw, hsingle]
    · rw [if_neg hdual]
      simp [declares, ClockField.declared, hraw, ClockField.dual_iff_and.mpr hdual]

end Header

variable {σ : Type} [ChipEngine σ]

/-- **A log begins with the chips that its header declares.** -/
theorem Deck.activeChips_ofHeader (engines : Factory σ) (header : Header) :
    (ofHeader engines header).value.board.activeChips = header.openingChips := by
  rw [header.openingChips_eq, Board.activeChips]
  have hactive : (fun site => ((ofHeader engines header).value.board.socket site).isActive) =
      header.declares := funext fun site => (ofHeader_chips engines header site).1
  rw [hactive]
  refine List.map_congr_left fun site hsite => ?_
  rw [(ofHeader_chips engines header site).2 (List.mem_filter.mp hsite).2]

/-! ## 2. Second chips and clocks -/

/-- The chips on a deck are those of a log with a certain header. -/
structure Deck.Staffed (header : Header) (deck : Deck σ) : Prop where
  /-- A second chip stands beside a first one. -/
  paired : ∀ kind, (deck.board.socket ⟨kind, .secondary⟩).isActive = true →
    (deck.board.socket ⟨kind, .primary⟩).isActive = true
  /-- Chips run at the clock that the header has for their kind. -/
  hz : ∀ site, (deck.board.socket site).isActive = true →
    (deck.board.socket site).hz = header.hzFor site.kind
  /-- The kinds that the header declares are there. -/
  declared : ∀ kind, (header.clock kind).declared = true →
    (deck.board.socket ⟨kind, .primary⟩).isActive = true
  /-- A clock that is open is that of the header. -/
  pending : ∀ field, deck.pendingFm = some field → field = header.fmClock

namespace Deck.Staffed

variable {engines : Factory σ} {header : Header} {d e : Deck σ}

omit [ChipEngine σ] in
/-- Nothing but chips and the open clock matters. -/
theorem of_sameChips (h : d.Staffed header) (hchips : e.board.SameChips d.board)
    (hpending : ∀ field, e.pendingFm = some field → d.pendingFm = some field) :
    e.Staffed header where
  paired kind hsecondary := by
    rw [(hchips _).active] at hsecondary ⊢
    exact h.paired kind hsecondary
  hz site hsite := by
    rw [(hchips site).active] at hsite
    rw [(hchips site).hz]
    exact h.hz site hsite
  declared kind hkind := by
    rw [(hchips _).active]
    exact h.declared kind hkind
  pending field hfield := h.pending field (hpending field hfield)

/-- A log begins so. -/
theorem ofHeader (engines : Factory σ) (header : Header) :
    (Deck.ofHeader engines header).value.Staffed header where
  paired kind hsecondary := by
    rw [(ofHeader_chips engines header _).1, Header.declares, Bool.and_eq_true] at hsecondary
    rw [(ofHeader_chips engines header _).1, Header.declares, hsecondary.1]
    rfl
  hz site hsite := by
    obtain ⟨hactive, hhz⟩ := ofHeader_chips engines header site
    have hdeclares := hactive.symm.trans hsite
    have hdeclared : (header.clock site.kind).declared = true := by
      rw [Header.declares, Bool.and_eq_true] at hdeclares
      exact hdeclares.1
    rw [hhz hdeclares, Header.hzFor, if_pos hdeclared, ClockField.hz_eq_and]
  declared kind hkind := by
    rw [(ofHeader_chips engines header _).1, Header.declares, hkind]
    rfl
  pending field hfield := by
    rw [(ofHeader_rest engines header).2.2] at hfield
    split at hfield
    · exact (Option.some.inj hfield).symm
    · cases hfield

/-- To start the engines of a kind at the open clock is in order. -/
theorem activate (h : d.Staffed header) (kind : ChipKind) :
    { d with
      board := (d.board.activate engines kind header.fmClock).value.2
      pendingFm := none }.Staffed header := by
  have hsocket := Board.socket_activate engines kind header.fmClock d.board
  have hstarted : ∀ s : Socket σ, ∀ make field, (s.started make field).isActive = true :=
    fun _ _ _ => rfl
  refine ⟨fun other hsecondary => ?_, fun site hsite => ?_, fun other hother => ?_, nofun⟩
  · simp only [hsocket] at hsecondary ⊢
    split
    case isTrue => exact hstarted _ _ _
    case isFalse hprimary =>
      -- without a new first chip there was one before, as there is a second one
      split at hsecondary
      case isTrue hnew =>
        rw [Bool.eq_true_of_not_eq_false fun hidle =>
          hprimary ⟨hnew.1, hnew.2.1, .inl trivial, hidle⟩]
      case isFalse => exact h.paired other hsecondary
  · simp only [hsocket] at hsite ⊢
    split
    case isTrue hnew =>
      obtain ⟨rfl, hidle, -⟩ := hnew
      -- a kind that the header declares has a first chip already
      have hopen : (header.clock site.kind).declared = false := by
        rw [← Bool.not_eq_true]
        intro hdeclared
        rw [Board.isActive] at hidle
        exact Bool.false_ne_true (hidle.symm.trans (h.declared site.kind hdeclared))
      rw [Header.hzFor, hopen, if_neg Bool.false_ne_true, ← ClockField.hz_eq_and]
      rfl
    case isFalse hold =>
      rw [if_neg hold] at hsite
      exact h.hz site hsite
  · simp only [hsocket]
    split
    case isTrue => exact hstarted _ _ _
    case isFalse => exact h.declared other hother

/-- Commands keep it so. -/
theorem execute (h : d.Staffed header) (engines : Factory σ) (command : Command) :
    (d.execute engines command).value.Staffed header := by
  have hsettled : (d.settle engines command).value.Staffed header := by
    rcases settle_cases engines command d with ⟨-, hsettle⟩ | ⟨kind, field, -, hopen, hsettle⟩
    · rwa [hsettle]
    · rw [hsettle, h.pending field hopen]
      exact h.activate kind
  refine hsettled.of_sameChips (sameChips_execute engines command d) fun field hfield => ?_
  rw [pendingFm_execute] at hfield
  rw [(settle_keeps engines command d).2.2]
  exact hfield

/-- So do whole runs. -/
theorem chain (h : d.Staffed header) {turns : List (Turn σ)}
    (hchain : Chain engines d turns e) : e.Staffed header :=
  hchain.invariant (motive := fun _ deck => deck.Staffed header)
    (fun hrests hdeck => hdeck.of_sameChips hrests.sameChips fun _ hfield =>
      hrests.pendingFm ▸ hfield)
    (fun _ command hdeck => hdeck.execute engines command) [] h

end Deck.Staffed

/-! ## 3. Sessions -/

namespace Session

/-- What has become of the chip of a site after a script. -/
structure Story (engines : Factory σ) (image : ByteArray) (session : Session σ)
    (recorded : Session (Recorded σ)) (calls : List Call) (site : Site) : Prop where
  /-- Its engine was made once, if there is one. -/
  made : (history engines image session calls).count (.created site) =
    if (session.after calls).isActive site then 1 else 0
  /-- If there is none, nothing was heard, whatever was written. -/
  idle : (session.after calls).isActive site = false →
    heardBy site (history engines image session calls) = [] ∧
      (recorded.after calls).recordOf site = none
  /-- If there is one, it was started once, before all else, and has not been replaced since. -/
  lives : (session.after calls).isActive site = true →
    ((session.after calls).socket site).hz = session.header.hzFor site.kind ∧
      ∃ since,
        heardBy site (history engines image session calls) =
          .created () :: .call () (.start (session.header.hzFor site.kind)) ::
            (EngineEvent.calls since).map (.call ()) ∧
        (∀ call ∈ EngineEvent.calls since, call.isStart = false) ∧
        (recorded.after calls).recordOf site =
          some (.told (.start (session.header.hzFor site.kind)) :: since) ∧
        ((session.after calls).socket site).voice.map Voice.engine =
          some (EngineEvent.applyAll
            (.told (.start (session.header.hzFor site.kind)) :: since) (engines site)) ∧
        ∀ more, ∃ later, (recorded.after (calls ++ more)).recordOf site =
          some (.told (.start (session.header.hzFor site.kind)) :: (since ++ later))

variable {engines : Factory σ} {image : ByteArray} {session : Session σ}
  {recorded : Session (Recorded σ)}

/-- At any time the chips of a session are those of a log with its header. -/
theorem staffed_after (h : (load engines image).value = .ok session) (calls : List Call) :
    (session.after calls).playback.deck.Staffed session.header := by
  obtain ⟨header, -, hheader, -, -, -, hdeck, -⟩ := load_deck h
  have hopening : session.playback.deck.Staffed session.header := by
    rw [hdeck, hheader]
    exact .ofHeader engines header
  exact hopening.chain (chain_after calls session)

/-- A session with records has the same history. -/
theorem Alike.history_eq (h : session.Alike (recording engines) recorded) (calls : List Call) :
    history engines image session calls =
      history (Recorded.factory engines) image recorded calls := by
  rw [history, history, (h.performAll calls).1,
    events_load_alike (likeness_recording engines) (recording_empty engines)]

/-- What is recorded stays on record. -/
theorem recordOf_append {calls : List Call} {site : Site} {record : List EngineEvent}
    (h : (recorded.after calls).recordOf site = some record) (more : List Call) :
    ∃ later, (recorded.after (calls ++ more)).recordOf site = some (record ++ later) := by
  obtain ⟨voice, hvoice, rfl⟩ := Option.map_eq_some_iff.mp h
  obtain ⟨voice', later, hlater, -, hrecord, -, -⟩ :=
    (hears_performAll more (recorded.after calls) site).grown hvoice
  refine ⟨later, ?_⟩
  rw [after_append, ← hrecord]
  exact congrArg (Option.map _) hlater

/-- **Every chip has its story.** -/
theorem story (h : (load engines image).value = .ok session)
    (hrecorded : (load (Recorded.factory engines) image).value = .ok recorded)
    (halike : session.Alike (recording engines) recorded) (calls : List Call) (site : Site) :
    Story engines image session recorded calls site := by
  have hbehind : (session.after calls).socket site =
      ((recorded.after calls).socket site).map Recorded.engine :=
    ((halike.performAll calls).2.2.playback.deck.board site).behind
  have hactive : (session.after calls).isActive site =
      ((recorded.after calls).socket site).isActive := by
    rw [isActive, hbehind, Socket.isActive_map]
  have hclock : ((session.after calls).socket site).hz = ((recorded.after calls).socket site).hz := by
    rw [hbehind, Socket.hz_map]
  have hears := hears_history hrecorded calls site
  rw [← halike.history_eq] at hears
  rcases hears.life rfl (by rw [Board.socket_empty]; rfl) with
    ⟨hnothing, hidle⟩ | ⟨hthere, since, hlife⟩
  · have hidle : ((recorded.after calls).socket site).isActive = false := hidle
    refine ⟨?_, fun _ => ⟨hnothing, ?_⟩, fun hsite => ?_⟩
    · rw [Event.count_created, hnothing, hactive, hidle]
      rfl
    · rw [recordOf, Option.map_eq_none_iff]
      simpa [Socket.isActive] using hidle
    · rw [hactive, hidle] at hsite
      cases hsite
  · have hsite : (session.after calls).isActive site = true := hactive.trans hthere
    have hhz := (staffed_after h calls).hz site hsite
    have hstart : ((recorded.after calls).socket site).hz = session.header.hzFor site.kind :=
      hclock.symm.trans hhz
    have hrecord : (recorded.after calls).recordOf site =
        some (.told (.start (session.header.hzFor site.kind)) :: since) := by
      rw [← hstart]
      exact hlife.record
    have hdeeds : heardBy site (history engines image session calls) =
        .created () :: .call () (.start (session.header.hzFor site.kind)) ::
          (EngineEvent.calls since).map (.call ()) := by
      rw [← hstart]
      exact hlife.deeds
    refine ⟨?_, fun hidle => ?_, fun _ => ⟨hhz, since, hdeeds, hlife.startedOnce, hrecord, ?_,
      recordOf_append hrecord⟩⟩
    · rw [Event.count_created, hlife.count_created, hsite, if_pos rfl]
    · rw [hsite] at hidle
      cases hidle
    · rw [halike.engine_after calls site, hrecord, Option.map_some]

/-- **The chips of a session.**  A session begins with the chips that its header declares.  Whatever
script is run, a second chip stands beside a first one and runs at the same clock, and every chip
has its story: made once, started once and first of all, told what the journal says, never
replaced; or not there, and told nothing. -/
theorem chips_live_once (h : (load engines image).value = .ok session) :
    Header.parse image = .ok session.header ∧
      session.chips = session.header.openingChips ∧
      (∀ calls kind, (session.after calls).isActive ⟨kind, .secondary⟩ = true →
        (session.after calls).isActive ⟨kind, .primary⟩ = true ∧
          ((session.after calls).socket ⟨kind, .secondary⟩).hz =
            ((session.after calls).socket ⟨kind, .primary⟩).hz) ∧
      ∃ recorded, (load (Recorded.factory engines) image).value = .ok recorded ∧
        ∀ calls site, Story engines image session recorded calls site := by
  obtain ⟨header, hparse, hheader, -, -, -, hdeck, -⟩ := load_deck h
  obtain ⟨recorded, hrecorded, halike⟩ := load_recorded h
  refine ⟨by rw [hparse, hheader], ?_, fun calls kind hsecondary => ?_, recorded, hrecorded,
    story h hrecorded halike⟩
  · rw [chips, hdeck, Deck.activeChips_ofHeader, hheader]
  · have hstaffed := staffed_after h calls
    have hprimary := hstaffed.paired kind hsecondary
    exact ⟨hprimary, (hstaffed.hz _ hsecondary).trans (hstaffed.hz _ hprimary).symm⟩

/-- Two SN76489, the second of which nobody writes to, and a write to a YM2612 that is not there. -/
theorem two_psgs_live_once : ∃ session,
    (load Bundled.factory (sampleLog [0x50, 0x9F, 0x52, 0x2B, 0x80, 0x66])).value = .ok session ∧
    session.chips = [(⟨.sn76489, .primary⟩, 3579545), (⟨.sn76489, .secondary⟩, 3579545)] ∧
    (history Bundled.factory (sampleLog [0x50, 0x9F, 0x52, 0x2B, 0x80, 0x66]) session
      [.step, .step, .tick]).count (.created ⟨.sn76489, .secondary⟩) = 1 ∧
    heardBy ⟨.ym2612, .primary⟩ (history Bundled.factory
      (sampleLog [0x50, 0x9F, 0x52, 0x2B, 0x80, 0x66]) session [.step, .step, .tick]) = [] := by
  have hrun : ((Header.parse (sampleLog [0x50, 0x9F, 0x52, 0x2B, 0x80, 0x66])).toOption.map
      fun header =>
        let session := (opened Bundled.factory
          (sampleLog [0x50, 0x9F, 0x52, 0x2B, 0x80, 0x66]) header).after [.step, .step, .tick]
        (header.openingChips, session.isActive ⟨.sn76489, .secondary⟩,
          session.isActive ⟨.ym2612, .primary⟩)) =
      some ([(⟨.sn76489, .primary⟩, 3579545), (⟨.sn76489, .secondary⟩, 3579545)], true, false) := by
    decide +kernel
  obtain ⟨header, hparse, -, hload⟩ := @load_sampleLog [0x50, 0x9F, 0x52, 0x2B, 0x80, 0x66] rfl
  rw [hparse] at hrun
  obtain ⟨hopening, hactive⟩ := Prod.mk.inj (Option.some.inj hrun)
  obtain ⟨hsecond, hmissing⟩ := Prod.mk.inj hactive
  obtain ⟨-, hchips, -, recorded, -, hstory⟩ := chips_live_once hload
  refine ⟨_, hload, hchips.trans hopening, ?_, ((hstory _ _).idle hmissing).1⟩
  rw [(hstory _ _).made, hsecond, if_pos rfl]

end Session

end ChipLog
