/-
# The deck with which a log begins

When a log is opened, engines are started for the chips that its header declares, and some of them
are given settings.  This module says what there is on the deck then, and that the engines have
heard of it what the journal says.

Main statements: a site has an engine exactly if the header declares it, and the engine runs at
the frequency of its clock field (`Deck.ofHeader_chips`); the banks are empty, the next converter
byte is the first one, and an FM clock is open exactly if the header has one (`Deck.ofHeader_rest`).
-/
import ChipLog.Playback.Deck
import ChipLog.Proofs.Board.Hearing

namespace ChipLog

/-! ## 1. What a header declares -/

namespace Header

/-- Whether a header declares the chip of a site. -/
def declares (header : Header) (site : Site) : Bool :=
  (header.clock site.kind).declared && (site.rank == .primary || (header.clock site.kind).dual)

theorem mem_declared_iff {header : Header} {kind : ChipKind} {field : ClockField} :
    (kind, field) ∈ header.declared ↔ field = header.clock kind ∧ field.declared = true := by
  rw [declared, List.mem_filter, List.mem_map]
  constructor
  · rintro ⟨⟨other, -, hpair⟩, hfield⟩
    cases hpair
    exact ⟨rfl, hfield⟩
  · rintro ⟨rfl, hfield⟩
    exact ⟨⟨kind, kind.mem_all, rfl⟩, hfield⟩

/-- No kind is declared twice. -/
theorem nodup_declared (header : Header) : (header.declared.map Prod.fst).Nodup := by
  have hall : ChipKind.all.Nodup := by decide
  refine List.Nodup.sublist ?_ hall
  have hkinds : (ChipKind.all.map fun kind => (kind, header.clock kind)).map Prod.fst =
      ChipKind.all := by
    rw [List.map_map]
    exact List.map_id _
  have hsub := (List.filter_sublist (p := fun chip : ChipKind × ClockField => chip.2.declared)
    (l := ChipKind.all.map fun kind => (kind, header.clock kind))).map Prod.fst
  rwa [hkinds] at hsub

end Header

namespace Deck

variable {σ : Type} [ChipEngine σ]

/-! ## 2. Starting engines -/

theorem hears_activateAll (engines : Factory σ) (declared : List (ChipKind × ClockField))
    (board : Board σ) :
    board.Hears engines (activateAll engines declared board).events
      (activateAll engines declared board).value := by
  induction declared generalizing board with
  | nil => exact .refl engines board
  | cons chip rest ih =>
    obtain ⟨kind, field⟩ := chip
    exact (Board.hears_activate engines kind field board).trans (ih _)

/-- Kinds that are not in the list are left alone. -/
theorem socket_activateAll_of_notMem (engines : Factory σ)
    {declared : List (ChipKind × ClockField)} (board : Board σ) {site : Site}
    (h : site.kind ∉ declared.map Prod.fst) :
    (activateAll engines declared board).value.socket site = board.socket site := by
  induction declared generalizing board with
  | nil => rfl
  | cons chip rest ih =>
    obtain ⟨kind, field⟩ := chip
    rw [List.map_cons, List.mem_cons, not_or] at h
    obtain ⟨hkind, hrest⟩ := h
    have hfirst : (board.activate engines kind field).value.2.socket site = board.socket site := by
      rw [Board.socket_activate, if_neg fun hall => hkind hall.1]
    exact (ih _ hrest).trans hfirst

/-- A kind in the list gets the engines that its clock field is for. -/
theorem socket_activateAll_of_mem (engines : Factory σ)
    {declared : List (ChipKind × ClockField)} (hnodup : (declared.map Prod.fst).Nodup)
    (board : Board σ)
    (hempty : ∀ site : Site, site.kind ∈ declared.map Prod.fst →
      (board.socket site).isActive = false)
    {site : Site} {field : ClockField} (h : (site.kind, field) ∈ declared) :
    (activateAll engines declared board).value.socket site =
      if site.rank = .primary ∨ field.dual = true
      then (board.socket site).started (engines site) field else board.socket site := by
  induction declared generalizing board with
  | nil => cases h
  | cons chip rest ih =>
    obtain ⟨kind, first⟩ := chip
    obtain ⟨hkind, hrest⟩ := List.nodup_cons.mp hnodup
    have hkind : kind ∉ rest.map Prod.fst := hkind
    have hidle := hempty site (List.mem_map_of_mem h)
    have hprimary := hempty ⟨site.kind, .primary⟩ (List.mem_map_of_mem h)
    have hstep : (activateAll engines ((kind, first) :: rest) board).value =
        (activateAll engines rest (board.activate engines kind first).value.2).value := rfl
    rw [hstep]
    rcases List.mem_cons.mp h with hhead | htail
    · obtain ⟨hsite, rfl⟩ := Prod.mk.inj hhead
      have hboard : board.isActive kind = false := by rw [← hsite]; exact hprimary
      rw [socket_activateAll_of_notMem engines _ (by rw [hsite]; exact hkind),
        Board.socket_activate]
      simp [hsite, hboard, hidle]
    · have hne : ∀ other : Site, other.kind ∈ rest.map Prod.fst → other.kind ≠ kind := by
        intro other hmem hother
        rw [hother] at hmem
        exact hkind hmem
      have hkeep : ∀ other : Site, other.kind ∈ rest.map Prod.fst →
          (board.activate engines kind first).value.2.socket other = board.socket other := by
        intro other hmem
        rw [Board.socket_activate, if_neg fun hall => hne other hmem hall.1]
      have hsite := hkeep site (List.mem_map_of_mem htail)
      rw [← hsite]
      refine ih hrest _ (fun other hmem => ?_) htail
      rw [hkeep other hmem]
      exact hempty other (List.mem_cons_of_mem _ hmem)

/-! ## 3. Settings -/

/-- Settings are heard, and leave the chips as they are. -/
theorem configure_keeps (engines : Factory σ) (site : Site) (flags : UInt32) (board : Board σ) :
    board.Hears engines (board.send site [.configure flags]).events
        (board.send site [.configure flags]).value ∧
      (board.send site [.configure flags]).value.SameChips board :=
  ⟨Board.hears_send (by simp [EngineCall.isStart]) engines site board,
    Board.sameChips_send site _ board⟩

theorem configurePsg_keeps (engines : Factory σ) (header : Header) (board : Board σ) :
    board.Hears engines (configurePsg header board).events (configurePsg header board).value ∧
      (configurePsg header board).value.SameChips board := by
  unfold configurePsg
  split
  · obtain ⟨hheard, hchips⟩ := configure_keeps engines ⟨.sn76489, .primary⟩ header.psgFlags board
    obtain ⟨hheard', hchips'⟩ := configure_keeps engines ⟨.sn76489, .secondary⟩ header.psgFlags
      (board.send ⟨.sn76489, .primary⟩ [.configure header.psgFlags]).value
    exact ⟨hheard.trans hheard', hchips'.trans hchips⟩
  · exact ⟨.refl engines board, .refl board⟩

theorem configureSegaPcm_keeps (engines : Factory σ) (header : Header) (board : Board σ) :
    board.Hears engines (configureSegaPcm header board).events
        (configureSegaPcm header board).value ∧
      (configureSegaPcm header board).value.SameChips board := by
  unfold configureSegaPcm
  split
  · obtain ⟨hheard, hchips⟩ :=
      configure_keeps engines ⟨.segaPcm, .primary⟩ header.segaPcmInterface board
    exact ⟨hheard.of_deeds rfl, hchips⟩
  · exact ⟨.refl engines board, .refl board⟩

/-! ## 4. The whole deck -/

theorem board_ofHeader (engines : Factory σ) (header : Header) :
    (ofHeader engines header).value.board =
      (configureSegaPcm header (configurePsg header
        (activateAll engines header.declared .empty).value).value).value := by
  unfold ofHeader
  split <;> rfl

/-- Apart from engines, a log begins with nothing but an FM clock that may be open. -/
theorem ofHeader_rest (engines : Factory σ) (header : Header) :
    (ofHeader engines header).value.banks = .empty ∧
      (ofHeader engines header).value.dacPosition = 0 ∧
      (ofHeader engines header).value.pendingFm =
        if header.awaitsFm then some header.fmClock else none := by
  unfold ofHeader
  split
  · exact ⟨rfl, rfl, rfl⟩
  · exact ⟨rfl, rfl, rfl⟩

/-- **The engines hear of the opening of a log what its journal says.** -/
theorem hears_ofHeader (engines : Factory σ) (header : Header) :
    Board.empty.Hears engines (ofHeader engines header).events
      (ofHeader engines header).value.board := by
  have hall := ((hears_activateAll engines header.declared .empty).trans
    (configurePsg_keeps engines header _).1).trans (configureSegaPcm_keeps engines header _).1
  rw [board_ofHeader]
  refine hall.of_deeds ?_
  unfold ofHeader
  split
  · simp [Logged.note, Event.isDeed]
  · simp

/-- **A log begins with the chips that its header declares, at the frequencies of their clock
fields.** -/
theorem ofHeader_chips (engines : Factory σ) (header : Header) (site : Site) :
    ((ofHeader engines header).value.board.socket site).isActive = header.declares site ∧
      (header.declares site = true →
        ((ofHeader engines header).value.board.socket site).hz = (header.clock site.kind).hz) := by
  have hchip := (configureSegaPcm_keeps engines header _).2.trans
    (configurePsg_keeps engines header (activateAll engines header.declared .empty).value).2 site
  rw [board_ofHeader, hchip.active, hchip.hz]
  unfold Header.declares
  cases hdeclared : (header.clock site.kind).declared with
  | false =>
    have hnot : site.kind ∉ header.declared.map Prod.fst := by
      intro hmem
      obtain ⟨⟨kind, field⟩, hchip, hkind⟩ := List.mem_map.mp hmem
      obtain ⟨rfl, hfield⟩ := Header.mem_declared_iff.mp hchip
      have hkind : kind = site.kind := hkind
      rw [hkind, hdeclared] at hfield
      cases hfield
    rw [socket_activateAll_of_notMem engines _ hnot, Board.socket_empty]
    exact ⟨rfl, fun h => by cases h⟩
  | true =>
    have hmem := Header.mem_declared_iff.mpr ⟨rfl, hdeclared⟩
    rw [socket_activateAll_of_mem engines header.nodup_declared .empty
      (fun other _ => by rw [Board.socket_empty]; rfl) hmem, Board.socket_empty]
    by_cases hrank : site.rank = .primary ∨ (header.clock site.kind).dual = true
    · rw [if_pos hrank]
      have hdeclares : (true && (site.rank == .primary || (header.clock site.kind).dual)) = true := by
        simpa using hrank
      exact ⟨hdeclares.symm, fun _ => rfl⟩
    · rw [if_neg hrank]
      have hdeclares : (true && (site.rank == .primary || (header.clock site.kind).dual)) = false := by
        simpa [not_or] using hrank
      rw [hdeclares]
      exact ⟨rfl, fun h => by cases h⟩

end Deck

end ChipLog
