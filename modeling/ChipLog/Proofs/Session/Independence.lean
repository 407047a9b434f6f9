/-
# Commands do not depend on engines or frames

A log can be played with engines of any make, and the frames between its commands can be asked for
one by one, in one go or not at all.  The commands take no notice: two sessions of one log that are
given the same steps and seeks, whatever else they are asked for and whatever engines they have,
end with the same sample data, the same chips and the same open FM clock, and the engines of each
chip have been told the same in the same order (`command_side_stands_alone`).

Frames differ, of course, and so do the phases of the voices and whatever an engine makes of its
calls.  So the sessions are compared by what a command can see of a socket: whether there is an
engine, and at which clock (`likeness_sameChip`).
-/
import ChipLog.Proofs.Playback.Likeness
import ChipLog.Proofs.Session.Turns

namespace ChipLog

open Event (heardBy)

variable {σ τ : Type} [ChipEngine σ] [ChipEngine τ]

/-! ## 1. Decks on which the same commands do the same -/

/-- What a command can see of a socket outlasts calls and the start of engines of any make. -/
theorem likeness_sameChip (engines : Factory σ) (engines' : Factory τ) :
    Likeness (fun _ (s : Socket σ) (t : Socket τ) => s.SameChip t) engines engines' where
  active h := h.active
  send {_ s t} calls h := by
    have hs := Socket.sameChip_send calls s
    have ht := Socket.sameChip_send calls t
    exact ⟨(hs.active.trans h.active).trans ht.active.symm, (hs.hz.trans h.hz).trans ht.hz.symm⟩
  install {site s t} field h hs := by
    have ht : t.isActive = false := by rw [← h.active, hs]
    rw [Socket.install_of_inactive hs, Socket.install_of_inactive ht]
    exact ⟨rfl, rfl⟩

/-- Two decks that a command cannot tell apart, but for what it does not look at. -/
abbrev Deck.Agrees (d : Deck σ) (e : Deck τ) : Prop :=
  Deck.Alike (fun _ (s : Socket σ) (t : Socket τ) => s.SameChip t) d e

namespace Deck.Agrees

variable {engines : Factory σ} {engines' : Factory τ} {d d' : Deck σ} {e e' : Deck τ}

omit [ChipEngine τ] in
/-- Rests make no difference to a command. -/
theorem rest (h : d.Agrees e) (hrests : d.Rests engines d') : d'.Agrees e := by
  exact ⟨hrests.sameChips.trans h.board, hrests.banks.trans h.banks,
    hrests.pendingFm.trans h.pendingFm, hrests.dacPosition.trans h.dacPosition⟩

omit [ChipEngine σ] [ChipEngine τ] in
theorem symm (h : d.Agrees e) : e.Agrees d :=
  ⟨Board.SameChips.symm h.board, h.banks.symm, h.pendingFm.symm, h.dacPosition.symm⟩

theorem execute (h : d.Agrees e) (command : Command) :
    (d.execute engines command).deeds = (e.execute engines' command).deeds ∧
      (d.execute engines command).value.Agrees (e.execute engines' command).value := by
  obtain ⟨hevents, hagrees⟩ := Deck.Alike.execute (likeness_sameChip engines engines') h command
  exact ⟨congrArg (List.filter Event.isDeed) hevents, hagrees⟩

/-- Two runs with the same commands do the same deeds. -/
theorem chain {turns : List (Turn σ)} {turns' : List (Turn τ)} (h : d.Agrees e)
    (first : Chain engines d turns d') (second : Chain engines' e turns' e')
    (hcommands : turns.map Turn.command = turns'.map Turn.command) :
    (turns.flatMap fun turn => (turn.result engines).deeds) =
        (turns'.flatMap fun turn => (turn.result engines').deeds) ∧
      d'.Agrees e' := by
  refine Chain.lockstep (R := fun _ d e => d.Agrees e) ?_ ?_ ?_ first second hcommands h
  · intro turns d d' e hrests hagrees
    exact hagrees.rest hrests
  · intro turns d e e' hrests hagrees
    exact (hagrees.symm.rest hrests).symm
  · intro turns d e command hagrees
    exact hagrees.execute command

end Deck.Agrees

/-! ## 2. Sessions -/

namespace Session

variable {engines : Factory σ} {image : ByteArray} {session : Session σ}

/-- **What commands do depends on the log and on the steps and seeks, and on nothing else.**  A log
that opens with some engines opens with any others.  After scripts with the same steps and seeks,
which may differ in frames, mutes and looks at the tag, both sessions have the same banks, the
same place of the next converter byte, the same open FM clock and the same chips at the same
clocks.  And for each chip, what was done to it since the opening, the making of its engine and
all calls to it, is one and the same list in both journals, and is what both engines have heard. -/
theorem command_side_stands_alone (h : (load engines image).value = .ok session)
    (engines' : Factory τ) :
    ∃ session' : Session τ, (load engines' image).value = .ok session' ∧
      ∀ calls calls' : List Call, calls.filterMap Call.move? = calls'.filterMap Call.move? →
        (session.after calls).playback.deck.banks = (session'.after calls').playback.deck.banks ∧
        (session.after calls).playback.deck.dacPosition =
          (session'.after calls').playback.deck.dacPosition ∧
        (session.after calls).playback.deck.pendingFm =
          (session'.after calls').playback.deck.pendingFm ∧
        (session.after calls).chips = (session'.after calls').chips ∧
        ∀ site, ∃ heard,
          heardBy site (history engines image session calls) = heard ∧
          heardBy site (history engines' image session' calls') = heard ∧
          Socket.Hears (engines site) heard {} ((session.after calls).socket site) ∧
          Socket.Hears (engines' site) heard {} ((session'.after calls').socket site) := by
  obtain ⟨header, hparse, -, himage, hengines, hline, hdeck, hopening⟩ := load_deck h
  have h' : (load engines' image).value = .ok (opened engines' image header) :=
    load_eq_ok_iff.mpr ⟨header, hparse, rfl⟩
  obtain ⟨header', hparse', -, himage', hengines', hline', hdeck', hopening'⟩ := load_deck h'
  cases hparse.symm.trans hparse'
  refine ⟨opened engines' image header, h', fun calls calls' hmoves => ?_⟩
  generalize opened engines' image header = session' at *
  have halike := Deck.alike_ofHeader (likeness_sameChip engines engines') (fun _ => ⟨rfl, rfl⟩) header
  have hstart : session.playback.deck.Agrees session'.playback.deck := by
    rw [hdeck, hdeck']
    exact halike.2
  have hcommands : (session.turns calls).map Turn.command =
      (session'.turns calls').map Turn.command := by
    rw [commands_turns, commands_turns, himage, himage', hline, hline', hmoves]
  obtain ⟨hdeeds, hend⟩ := hstart.chain (chain_after calls session) (chain_after calls' session')
    hcommands
  rw [← deeds_performAll, ← deeds_performAll] at hdeeds
  refine ⟨hend.banks, hend.dacPosition, hend.pendingFm, Board.activeChips_eq hend.board, ?_⟩
  intro site
  have hheard : heardBy site (history engines' image session' calls') =
      heardBy site (history engines image session calls) := by
    have hload : (load engines image).deeds = (load engines' image).deeds := by
      rw [hopening, hopening']
      exact congrArg (List.filter Event.isDeed) halike.1
    have hhistory : (history engines image session calls).filter Event.isDeed =
        (history engines' image session' calls').filter Event.isDeed := by
      rw [history, history, List.filter_append, List.filter_append]
      exact congr (congrArg _ hload) hdeeds
    rw [← Event.heardBy_filter_isDeed, ← hhistory, Event.heardBy_filter_isDeed]
  have hears := hears_history h calls site
  have hears' := hears_history h' calls' site
  rw [Board.socket_empty] at hears hears'
  rw [hheard] at hears'
  exact ⟨_, rfl, hheard, hears, hears'⟩

/-- A YM2612 whose converter plays two bytes.  Another session, with silent engines, frames in
other places and a muted chip, tells its YM2612 the same. -/
theorem silent_ym2612_is_told_the_same : ∃ session session',
    (load Bundled.factory converterLog).value = .ok session ∧
    (load (fun site => SilentChip.ofKind site.kind) converterLog).value = .ok session' ∧
    (session'.after [.tick, .step, .step, .setAudible ⟨.ym2612, .primary⟩ false, .step,
      .step]).chips = [(⟨.ym2612, .primary⟩, 7670454)] ∧
    heardBy ⟨.ym2612, .primary⟩ (history (fun site => SilentChip.ofKind site.kind) converterLog
      session' [.tick, .step, .step, .setAudible ⟨.ym2612, .primary⟩ false, .step, .step]) =
        [.created (), .call () (.start 7670454), .call () (.bus 0 0x2B), .call () (.bus 1 0x80),
          .call () (.bus 0 0x2A), .call () (.bus 1 0x7F)] := by
  have hrun : ((Header.parse converterLog).toOption.map fun header =>
      let session := opened Bundled.factory converterLog header
      ((session.after [.step, .render 2, .step, .step, .step]).chips,
        heardBy ⟨.ym2612, .primary⟩ (history Bundled.factory converterLog session
          [.step, .render 2, .step, .step, .step]))) =
      some ([(⟨.ym2612, .primary⟩, 7670454)],
        [.created (), .call () (.start 7670454), .call () (.bus 0 0x2B), .call () (.bus 1 0x80),
          .call () (.bus 0 0x2A), .call () (.bus 1 0x7F)]) := by decide +kernel
  obtain ⟨header, hparse, -, hload⟩ := @load_of_dataStart converterLog 64 rfl
  rw [hparse] at hrun
  obtain ⟨hfirst, hfirst'⟩ := Prod.mk.inj (Option.some.inj hrun)
  obtain ⟨session', hload', hsame⟩ :=
    command_side_stands_alone hload fun site => SilentChip.ofKind site.kind
  obtain ⟨-, -, -, hchips, hsites⟩ := hsame [.step, .render 2, .step, .step, .step]
    [.tick, .step, .step, .setAudible ⟨.ym2612, .primary⟩ false, .step, .step] rfl
  obtain ⟨heard, hheard, hheard', -, -⟩ := hsites ⟨.ym2612, .primary⟩
  exact ⟨_, session', hload, hload', hchips.symm.trans hfirst,
    hheard'.trans (hheard.symm.trans hfirst')⟩

end Session

end ChipLog
