/-
# Which chips are given their settings

The header of a log has settings for two kinds of chip: taps and width of the noise register of the
SN76489, and the interface register of the SegaPCM.  When a log is opened, they are given to the
chips of these kinds, right after the start of their engines, and no chip is ever given any later.

Each of the two settings is passed on by a function of its own, and the two do not agree about second
chips: a second SN76489 is given its settings, a second SegaPCM is not (`Deck.toldTo_ofHeader`).  So
all chips that are there have been given the settings of their kind exactly if there is no second
SegaPCM among them (`Session.settings_miss_only_the_second_segaPcm`).
-/
import ChipLog.Proofs.Session.Chips

namespace ChipLog

open Event (heardBy toldTo)

/-! ## 1. Settings -/

/-- The settings that a call brings, if it is one that does. -/
def EngineCall.settings? : EngineCall → Option UInt32
  | configure flags => some flags
  | _ => none

namespace Event

/-- The settings that a chip is given. -/
def settingsOf (chip : Site) (events : List (Event Site)) : List UInt32 :=
  (toldTo chip events).filterMap EngineCall.settings?

theorem settingsOf_append (chip : Site) (first second : List (Event Site)) :
    settingsOf chip (first ++ second) = settingsOf chip first ++ settingsOf chip second := by
  rw [settingsOf, toldTo_append, List.filterMap_append]
  rfl

/-- Settings are among the deeds. -/
theorem settingsOf_filter_isDeed (chip : Site) (events : List (Event Site)) :
    settingsOf chip (events.filter isDeed) = settingsOf chip events := by
  rw [settingsOf, toldTo_filter_isDeed, settingsOf]

end Event

namespace Header

/-- The settings that a header has for chips of a kind. -/
def settings? (header : Header) : ChipKind → Option UInt32
  | .sn76489 => some header.psgFlags
  | .segaPcm => some header.segaPcmInterface
  | _ => none

/-- The settings of a header that are passed on to the chip of a site. -/
def passedOn (header : Header) (site : Site) : List UInt32 :=
  if site = ⟨.segaPcm, .secondary⟩ then [] else (header.settings? site.kind).toList

/-- A second chip is declared together with a first one. -/
theorem declares_primary {header : Header} {kind : ChipKind} {rank : Rank}
    (h : header.declares ⟨kind, rank⟩ = true) : header.declares ⟨kind, .primary⟩ = true := by
  rw [declares, Bool.and_eq_true] at h
  rw [declares, h.1]
  rfl

end Header

variable {σ : Type} [ChipEngine σ]

/-! ## 2. The opening -/

namespace Deck

theorem toldTo_activateAll (engines : Factory σ) (declared : List (ChipKind × ClockField))
    (board : Board σ) (site : Site) :
    toldTo site (activateAll engines declared board).events = [] := by
  induction declared generalizing board with
  | nil => rfl
  | cons chip rest ih =>
    obtain ⟨kind, field⟩ := chip
    rw [activateAll, Logged.events_bind, Event.toldTo_append, Board.toldTo_activate, ih]
    rfl

/-- A setting is heard at the site that it is for. -/
theorem toldTo_configure (site other : Site) (flags : UInt32) (board : Board σ) :
    toldTo other (board.send site [.configure flags]).events =
      if other = site ∧ (board.socket site).isActive = true then [.configure flags] else [] :=
  Board.toldTo_send (by simp [EngineCall.isStart]) site other board

/-- Both noise generators are given their settings, if there is a first one. -/
theorem toldTo_configurePsg (header : Header) (board : Board σ) (site : Site) :
    toldTo site (configurePsg header board).events =
      if site.kind = .sn76489 ∧ board.isActive .sn76489 = true ∧
          (board.socket site).isActive = true
      then [.configure header.psgFlags] else [] := by
  obtain ⟨kind, rank⟩ := site
  unfold configurePsg
  cases hactive : board.isActive .sn76489 with
  | false => simp
  | true =>
    have hsecond := (Board.sameChips_send ⟨.sn76489, .primary⟩ [.configure header.psgFlags] board
      ⟨.sn76489, .secondary⟩).active
    rw [if_pos rfl, Logged.events_bind, Event.toldTo_append, toldTo_configure, toldTo_configure,
      hsecond]
    cases rank with
    | primary => by_cases hkind : kind = .sn76489 <;> simp [hkind]
    | secondary => by_cases hkind : kind = .sn76489 <;> simp [hkind]

/-- Of the sample players, the first one is given its settings. -/
theorem toldTo_configureSegaPcm (header : Header) (board : Board σ) (site : Site) :
    toldTo site (configureSegaPcm header board).events =
      if site = ⟨.segaPcm, .primary⟩ ∧ board.isActive .segaPcm = true
      then [.configure header.segaPcmInterface] else [] := by
  unfold configureSegaPcm
  cases hactive : board.isActive .segaPcm with
  | false => simp
  | true =>
    have hprimary : (board.socket ⟨.segaPcm, .primary⟩).isActive = true := hactive
    rw [if_pos rfl, Logged.events_bind, Event.toldTo_append, toldTo_configure, hprimary]
    rfl

/-- The chips are there before they are given any settings. -/
theorem isActive_activateAll_declared (engines : Factory σ) (header : Header) (site : Site) :
    ((activateAll engines header.declared .empty).value.socket site).isActive =
      header.declares site := by
  have hchips := (configureSegaPcm_keeps engines header _).2.trans
    (configurePsg_keeps engines header (activateAll engines header.declared .empty).value).2
  rw [← (ofHeader_chips engines header site).1, board_ofHeader, (hchips site).active]

/-- What is told at the opening are the settings of the noise generators, and then those of the
sample player. -/
theorem toldTo_ofHeader_eq_append (engines : Factory σ) (header : Header) (site : Site) :
    toldTo site (ofHeader engines header).events =
      toldTo site (configurePsg header (activateAll engines header.declared .empty).value).events ++
        toldTo site (configureSegaPcm header (configurePsg header
          (activateAll engines header.declared .empty).value).value).events := by
  unfold ofHeader
  simp only [Logged.events_bind, Event.toldTo_append, toldTo_activateAll, List.nil_append]
  split
  · exact congrArg _ (List.append_nil _)
  · exact congrArg _ (List.append_nil _)

/-- **When a log is opened, the chips that are there are given the settings of their kind, except for
a second SegaPCM.** -/
theorem toldTo_ofHeader (engines : Factory σ) (header : Header) (site : Site) :
    toldTo site (ofHeader engines header).events =
      if header.declares site then (header.passedOn site).map .configure else [] := by
  have hactive := isActive_activateAll_declared engines header
  have hpsg : (activateAll engines header.declared .empty).value.isActive .sn76489 =
      header.declares ⟨.sn76489, .primary⟩ := hactive ⟨.sn76489, .primary⟩
  have hsegaPcm : (configurePsg header
      (activateAll engines header.declared .empty).value).value.isActive .segaPcm =
        header.declares ⟨.segaPcm, .primary⟩ :=
    ((configurePsg_keeps engines header _).2 ⟨.segaPcm, .primary⟩).active.trans (hactive _)
  rw [toldTo_ofHeader_eq_append, toldTo_configurePsg, toldTo_configureSegaPcm, hactive, hpsg,
    hsegaPcm]
  obtain ⟨kind, rank⟩ := site
  cases hdeclares : header.declares ⟨kind, rank⟩ with
  | false =>
    have hfirst : ¬(Site.mk kind rank = ⟨.segaPcm, .primary⟩ ∧
        header.declares ⟨.segaPcm, .primary⟩ = true) := fun h =>
      Bool.false_ne_true (hdeclares.symm.trans (h.1 ▸ h.2))
    rw [if_neg hfirst]
    simp
  | true =>
    have hprimary := Header.declares_primary hdeclares
    cases kind with
    | sn76489 => simp [hprimary, Header.passedOn, Header.settings?]
    | segaPcm => cases rank <;> simp [hprimary, Header.passedOn, Header.settings?]
    | _ => simp [Header.passedOn, Header.settings?]

/-! ## 3. Later on -/

/-- No command brings settings. -/
theorem settingsOf_execute (engines : Factory σ) (command : Command) (deck : Deck σ) (site : Site) :
    Event.settingsOf site (deck.execute engines command).events = [] := by
  rw [Event.settingsOf, toldTo_execute]
  cases horder : command.order? deck.banks deck.dacPosition with
  | none => rfl
  | some order =>
    dsimp only
    rw [List.filterMap_eq_nil_iff]
    intro call hcall
    split at hcall
    case isTrue =>
      have hwrite := Command.isWrite_of_order? horder call hcall
      cases call <;> first | rfl | cases hwrite
    case isFalse => cases hcall

/-- Chips that no FM clock is for are there from the start or never. -/
theorem Chain.sameChip {engines : Factory σ} {d e : Deck σ} {turns : List (Turn σ)}
    (h : Chain engines d turns e) {site : Site} (hkind : takesFmClock site.kind = false) :
    (e.board.socket site).SameChip (d.board.socket site) := by
  refine h.invariant
    (motive := fun _ deck => (deck.board.socket site).SameChip (d.board.socket site))
    (fun hrests hdeck => ?_) (fun deck command hdeck => ?_) [] ⟨rfl, rfl⟩
  · exact ⟨(hrests.sameChips site).active.trans hdeck.active,
      (hrests.sameChips site).hz.trans hdeck.hz⟩
  · have hsettled : (deck.settle engines command).value.board.socket site =
        deck.board.socket site := by
      rcases settle_cases engines command deck with ⟨-, hsettle⟩ | ⟨kind, field, hfm, -, hsettle⟩
      · rw [hsettle]
        rfl
      · have hother : site.kind ≠ kind := by
          rintro rfl
          rw [takesFmClock_of_fmKind? hfm] at hkind
          cases hkind
        rw [hsettle]
        exact (Board.socket_activate engines kind field deck.board site).trans
          (if_neg fun hall => hother hall.1)
    have hchip := sameChips_execute engines command deck site
    rw [hsettled] at hchip
    exact ⟨hchip.active.trans hdeck.active, hchip.hz.trans hdeck.hz⟩

end Deck

/-! ## 4. Sessions -/

namespace Session

/-- Every chip that is there has been given the settings of its kind, once, and no other settings
have been given. -/
def Configured (engines : Factory σ) (image : ByteArray) (session : Session σ) : Prop :=
  ∀ calls site, Event.settingsOf site (history engines image session calls) =
    if (session.after calls).isActive site then (session.header.settings? site.kind).toList else []

variable {engines : Factory σ} {image : ByteArray} {session : Session σ}

/-- No script brings settings. -/
theorem settingsOf_performAll (calls : List Call) (session : Session σ) (site : Site) :
    Event.settingsOf site (session.performAll calls).events = [] := by
  rw [← Event.settingsOf_filter_isDeed]
  refine (congrArg (Event.settingsOf site) (deeds_performAll calls session)).trans ?_
  induction session.turns calls with
  | nil => rfl
  | cons turn turns ih =>
    rw [List.flatMap_cons, Event.settingsOf_append, ih, Logged.deeds,
      Event.settingsOf_filter_isDeed]
    exact congrArg (· ++ []) (Deck.settingsOf_execute session.engines turn.command turn.deck site)

/-- What the chips of a session are told while its log is opened. -/
theorem toldTo_load (h : (load engines image).value = .ok session) (site : Site) :
    toldTo site (load engines image).events =
      if session.isActive site then (session.header.passedOn site).map .configure else [] := by
  obtain ⟨header, -, hheader, -, -, -, hdeck, hdeeds⟩ := load_deck h
  have hactive : session.isActive site = header.declares site := by
    rw [isActive, Session.socket, hdeck]
    exact (Deck.ofHeader_chips engines header site).1
  rw [← Event.toldTo_filter_isDeed]
  refine (congrArg (toldTo site) hdeeds).trans ?_
  rw [Logged.deeds, Event.toldTo_filter_isDeed, Deck.toldTo_ofHeader, hactive, hheader]

/-- While its log is opened, a chip hears of its engine, of its start and of what it is told. -/
theorem heardBy_load (h : (load engines image).value = .ok session) {site : Site}
    (hsite : session.isActive site = true) :
    heardBy site (load engines image).events =
      .created () :: .call () (.start (session.header.hzFor site.kind)) ::
        (session.header.passedOn site).map fun flags => .call () (.configure flags) := by
  obtain ⟨recorded, hrecorded, halike⟩ := load_recorded h
  obtain ⟨-, since, hheard, hcalls, -⟩ := (story h hrecorded halike [] site).lives hsite
  have hnil : history engines image session [] = (load engines image).events := List.append_nil _
  rw [hnil] at hheard
  have htold := (Event.toldTo_of_heardBy hheard hcalls).symm.trans (toldTo_load h site)
  rw [if_pos hsite] at htold
  rw [hheard, htold, List.map_map]
  rfl

/-- What a chip is given is what the opening of the log gives it. -/
theorem settingsOf_history (h : (load engines image).value = .ok session) (calls : List Call)
    (site : Site) :
    Event.settingsOf site (history engines image session calls) =
      if session.isActive site then session.header.passedOn site else [] := by
  rw [history, Event.settingsOf_append, settingsOf_performAll, List.append_nil, Event.settingsOf,
    toldTo_load h]
  split
  · rw [List.filterMap_map]
    exact List.filterMap_some
  · rfl

/-- Chips of the kinds that have settings are there from the start or never. -/
theorem isActive_after_of_settings? {header : Header} {site : Site}
    (h : header.settings? site.kind ≠ none) (calls : List Call) (session : Session σ) :
    (session.after calls).isActive site = session.isActive site := by
  have hkind : Deck.takesFmClock site.kind = false := by
    obtain ⟨kind, rank⟩ := site
    cases kind <;> first | rfl | exact absurd rfl h
  exact ((chain_after calls session).sameChip hkind).active

/-- **Settings miss only the second SegaPCM.**  When a log is opened, every chip that is there hears
of its engine, of its start and of the settings of its kind, once -- but a second SegaPCM hears of no
settings.  No script brings any more.  So the chips have been given their settings exactly if there
is no second SegaPCM. -/
theorem settings_miss_only_the_second_segaPcm (h : (load engines image).value = .ok session) :
    (∀ site, session.isActive site = true →
      heardBy site (load engines image).events =
        .created () :: .call () (.start (session.header.hzFor site.kind)) ::
          (session.header.passedOn site).map fun flags => .call () (.configure flags)) ∧
    (∀ calls site, Event.settingsOf site (history engines image session calls) =
      if session.isActive site then session.header.passedOn site else []) ∧
    (Configured engines image session ↔ session.isActive ⟨.segaPcm, .secondary⟩ = false) := by
  refine ⟨fun site hsite => heardBy_load h hsite, settingsOf_history h, fun hall => ?_,
    fun hsecond calls site => ?_⟩
  · -- a second chip would have to be given what it is not given
    rw [← Bool.not_eq_true]
    intro hsecond
    have hgiven := (settingsOf_history h [] ⟨.segaPcm, .secondary⟩).symm.trans (hall [] _)
    rw [after_nil, if_pos hsecond, if_pos hsecond] at hgiven
    cases hgiven
  · rw [settingsOf_history h]
    by_cases hkind : session.header.settings? site.kind = none
    · rw [Header.passedOn, hkind]
      simp
    · rw [isActive_after_of_settings? hkind]
      by_cases hsite : site = ⟨.segaPcm, .secondary⟩
      · rw [hsite, hsecond]
        rfl
      · rw [Header.passedOn, if_neg hsite]

/-- A log of version 1.51 for two SegaPCM at 4000000 Hz with a word in the interface register. -/
def twoSegaPcmLog : ByteArray :=
  Header.ident ++ (Bytes.digits 4 0 ++ Bytes.digits 4 0x151 ++ List.replicate 44 0
    ++ Bytes.digits 4 0x403D0900 ++ Bytes.digits 4 0xF80D ++ [0x66]).toByteArray

/-- The first of two SegaPCM is given the interface register, the second one is not. -/
theorem settings_miss_the_second_of_two_segaPcm : ∃ session,
    (load Bundled.factory twoSegaPcmLog).value = .ok session ∧
    heardBy ⟨.segaPcm, .primary⟩ (load Bundled.factory twoSegaPcmLog).events =
      [.created (), .call () (.start 4000000), .call () (.configure 0xF80D)] ∧
    heardBy ⟨.segaPcm, .secondary⟩ (load Bundled.factory twoSegaPcmLog).events =
      [.created (), .call () (.start 4000000)] := by
  have hrun : ((Header.parse twoSegaPcmLog).toOption.map fun header =>
      ((opened Bundled.factory twoSegaPcmLog header).isActive ⟨.segaPcm, .primary⟩,
        (opened Bundled.factory twoSegaPcmLog header).isActive ⟨.segaPcm, .secondary⟩,
        header.hzFor .segaPcm, header.segaPcmInterface)) =
      some (true, true, 4000000, 0xF80D) := by decide +kernel
  obtain ⟨header, hparse, -, hload⟩ := @load_of_dataStart twoSegaPcmLog 64 rfl
  rw [hparse] at hrun
  obtain ⟨hfirst, hrest⟩ := Prod.mk.inj (Option.some.inj hrun)
  obtain ⟨hsecond, hrest⟩ := Prod.mk.inj hrest
  obtain ⟨hhz, hinterface⟩ := Prod.mk.inj hrest
  obtain ⟨hopening, -⟩ := settings_miss_only_the_second_segaPcm hload
  refine ⟨_, hload, ?_, ?_⟩
  · have hheard := hopening ⟨.segaPcm, .primary⟩ hfirst
    rw [show (opened Bundled.factory twoSegaPcmLog header).header = header from rfl, hhz] at hheard
    rw [hheard, Header.passedOn, if_neg (by decide), Header.settings?, hinterface]
    rfl
  · have hheard := hopening ⟨.segaPcm, .secondary⟩ hsecond
    rw [show (opened Bundled.factory twoSegaPcmLog header).header = header from rfl, hhz] at hheard
    exact hheard

/-- So it is not true that all chips are given their settings. -/
theorem not_all_segaPcm_configured : ¬ ∀ (image : ByteArray) (session : Session Bundled),
    (load Bundled.factory image).value = .ok session → Configured Bundled.factory image session := by
  intro hall
  have hrun : ((Header.parse twoSegaPcmLog).toOption.map fun header =>
      (Event.settingsOf ⟨.segaPcm, .secondary⟩ (history Bundled.factory twoSegaPcmLog
          (opened Bundled.factory twoSegaPcmLog header) []),
        (opened Bundled.factory twoSegaPcmLog header).isActive ⟨.segaPcm, .secondary⟩,
        header.settings? .segaPcm)) =
      some ([], true, some 0xF80D) := by decide +kernel
  obtain ⟨header, hparse, -, hload⟩ := @load_of_dataStart twoSegaPcmLog 64 rfl
  rw [hparse] at hrun
  obtain ⟨hgiven, hrest⟩ := Prod.mk.inj (Option.some.inj hrun)
  obtain ⟨hactive, hsettings⟩ := Prod.mk.inj hrest
  have hconfigured := hall twoSegaPcmLog _ hload [] ⟨.segaPcm, .secondary⟩
  rw [hgiven, after_nil, hactive, if_pos rfl,
    show (opened Bundled.factory twoSegaPcmLog header).header = header from rfl,
    hsettings] at hconfigured
  cases hconfigured

end Session

end ChipLog
