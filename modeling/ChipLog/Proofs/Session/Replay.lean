/-
# A second pass does the same

A log that is played in a loop goes back to its loop point at the end, and is expected to sound as
before.  The session is not as before, though: the data blocks of the loop come a second time, and
are put behind what their banks hold.  This module says when the second pass does the same deeds as
the first one: if no read of the first pass went beyond the end of its bank, and the converter goes
on from the same place, or is sent to a place before it plays (`Session.second_pass_repeats`).

The two passes are compared turn by turn (`Deck.Repeats`).  At no turn are their banks the same, and
one bank is not even a beginning of the other by the way that it grew.  But what a bank of the first
pass holds at some turn is a beginning of what it holds at the end of the pass; there the second pass
begins, and its banks only grow from there.
-/
import ChipLog.Proofs.Session.Turns

namespace ChipLog

open Event (heardBy)

/-! ## 1. What a pass must not do -/

variable {σ : Type} [ChipEngine σ]

omit [ChipEngine σ] in
/-- Whether all that a turn reads from the banks is there. -/
def Turn.inRange (turn : Turn σ) : Bool :=
  match turn.command with
  | .dacWrite _ =>
    !turn.deck.board.isActive .ym2612 ||
      (turn.deck.banks.byteAt? Deck.dacBank turn.deck.dacPosition).isSome
  | .ramCopy copy =>
    (turn.deck.banks.range? copy.bank copy.readOffset.toNat copy.length.toNat).any fun range =>
      !range.2
  | _ => true

/-- Whether the converter is sent to a place before it plays. -/
def Command.seeksFirst : List Command → Bool
  | [] => true
  | dacWrite _ :: _ => false
  | dacSeek _ :: _ => true
  | _ :: commands => seeksFirst commands

/-- The converter is sent to a place before each of its bytes. -/
theorem Command.seeksFirst_iff {commands : List Command} :
    seeksFirst commands = true ↔
      ∀ before frames later, commands = before ++ dacWrite frames :: later →
        ∃ position, dacSeek position ∈ before := by
  induction commands with
  | nil =>
    refine iff_of_true rfl fun before frames later h => ?_
    cases before <;> cases h
  | cons command commands ih =>
    cases command with
    | dacWrite frames =>
      refine iff_of_false Bool.false_ne_true fun h => ?_
      obtain ⟨position, hposition⟩ := h [] frames commands rfl
      cases hposition
    | dacSeek position =>
      refine iff_of_true rfl fun before frames later h => ?_
      cases before with
      | nil => cases h
      | cons first before =>
        obtain ⟨rfl, -⟩ := List.cons.inj h
        exact ⟨position, List.mem_cons_self⟩
    | _ =>
      -- other commands have no say in it
      refine Iff.trans ih ⟨fun h before frames later hcommands => ?_,
        fun h before frames later hcommands => ?_⟩
      · cases before with
        | nil => cases hcommands
        | cons first before =>
          obtain ⟨position, hposition⟩ := h before frames later (List.cons.inj hcommands).2
          exact ⟨position, List.mem_cons_of_mem _ hposition⟩
      · obtain ⟨position, hposition⟩ :=
          h (_ :: before) frames later (congrArg (List.cons _) hcommands)
        rcases List.mem_cons.mp hposition with hhead | htail
        · cases hhead
        · exact ⟨position, htail⟩

/-! ## 2. Two passes, turn by turn -/

/-- What is passed on depends on the chips, and not on their engines. -/
theorem Board.deeds_pass {b c : Board σ} (h : b.SameChips c) (order : Option Order) :
    (b.pass order).deeds = (c.pass order).deeds := by
  cases order with
  | none => rfl
  | some order =>
    show (b.send order.1 order.2).deeds = (c.send order.1 order.2).deeds
    rw [Board.deeds_send, Board.deeds_send, (h order.1).active]

/-- A deck of the first pass, which ends with certain banks, and the deck of the second pass at the
same turn. -/
structure Deck.Repeats (last : Banks) (turns : List (Turn σ)) (d e : Deck σ) : Prop where
  chips : d.board.SameChips e.board
  settled : d.pendingFm = none
  settled' : e.pendingFm = none
  /-- The first pass still has to bring what its banks will hold. -/
  growing : Command.stockAll (turns.map Turn.command) d.banks = last
  /-- The second pass began where the first one ended. -/
  grown : last.Grows e.banks
  inRange : ∀ turn ∈ turns, turn.inRange = true
  converter : d.dacPosition = e.dacPosition ∨
    Command.seeksFirst (turns.map Turn.command) = true

namespace Deck.Repeats

variable {engines : Factory σ} {last : Banks} {turns : List (Turn σ)} {d d' e e' : Deck σ}

theorem rest (h : Repeats last turns d e) (hrests : d.Rests engines d') :
    Repeats last turns d' e where
  chips := hrests.sameChips.trans h.chips
  settled := hrests.pendingFm.trans h.settled
  settled' := h.settled'
  growing := by rw [hrests.banks]; exact h.growing
  grown := h.grown
  inRange := h.inRange
  converter := by rw [hrests.dacPosition]; exact h.converter

theorem rest' (h : Repeats last turns d e) (hrests : e.Rests engines e') :
    Repeats last turns d e' where
  chips := h.chips.trans hrests.sameChips.symm
  settled := h.settled
  settled' := hrests.pendingFm.trans h.settled'
  growing := h.growing
  grown := by rw [hrests.banks]; exact h.grown
  inRange := h.inRange
  converter := by rw [hrests.dacPosition]; exact h.converter

omit [ChipEngine σ] in
/-- What was there for the first pass is there for the second one. -/
theorem grows (h : Repeats last turns d e) : d.banks.Grows e.banks := by
  have hrest := Command.grows_stockAll (turns.map Turn.command) d.banks
  rw [h.growing] at hrest
  exact hrest.trans h.grown

omit [ChipEngine σ] in
/-- When the converter plays, it goes on from the same place in both passes. -/
theorem dacPosition_eq {frames : UInt8} (h : Repeats last (⟨.dacWrite frames, d⟩ :: turns) d e) :
    d.dacPosition = e.dacPosition := by
  rcases h.converter with hsame | hfirst
  · exact hsame
  · cases hfirst

omit [ChipEngine σ] in
/-- The converter has the same byte in both passes. -/
theorem byteAt?_eq {frames : UInt8} (h : Repeats last (⟨.dacWrite frames, d⟩ :: turns) d e)
    (hactive : d.board.isActive .ym2612 = true) :
    d.banks.byteAt? Deck.dacBank d.dacPosition = e.banks.byteAt? Deck.dacBank e.dacPosition := by
  have hrange := h.inRange _ List.mem_cons_self
  simp only [Turn.inRange, hactive, Bool.not_true, Bool.false_or] at hrange
  obtain ⟨byte, hbyte⟩ := Option.isSome_iff_exists.mp hrange
  rw [← h.dacPosition_eq, hbyte, h.grows.byteAt? hbyte]

omit [ChipEngine σ] in
/-- A copy finds the same bytes in both passes. -/
theorem range?_eq {copy : RamCopy} (h : Repeats last (⟨.ramCopy copy, d⟩ :: turns) d e) :
    d.banks.range? copy.bank copy.readOffset.toNat copy.length.toNat =
      e.banks.range? copy.bank copy.readOffset.toNat copy.length.toNat := by
  have hrange := h.inRange _ List.mem_cons_self
  simp only [Turn.inRange, Option.any_eq_true] at hrange
  obtain ⟨⟨data, clamped⟩, hdata, hclamped⟩ := hrange
  cases clamped with
  | true => cases hclamped
  | false => rw [hdata, h.grows.range? hdata]

/-- **A turn does the same deeds in both passes.** -/
theorem deeds {command : Command} (h : Repeats last (⟨command, d⟩ :: turns) d e) :
    (d.execute engines command).deeds = (e.execute engines command).deeds := by
  have hfirst : (d.execute engines command).deeds =
      (e.board.pass (command.order? d.banks d.dacPosition)).deeds := by
    rw [deeds_execute, settle_of_decided h.settled, ← Board.deeds_pass h.chips]
    exact List.nil_append _
  have hsecond : (e.execute engines command).deeds =
      (e.board.pass (command.order? e.banks e.dacPosition)).deeds := by
    rw [deeds_execute, settle_of_decided h.settled']
    exact List.nil_append _
  rw [hfirst, hsecond]
  cases command with
  | dacWrite frames =>
    cases hactive : d.board.isActive .ym2612 with
    | true => rw [Command.order?, Command.order?, h.byteAt?_eq hactive]
    | false =>
      -- there may be a byte in the second pass only, but nobody takes it
      have hidle : (e.board.socket ⟨.ym2612, .primary⟩).isActive = false :=
        (h.chips _).active.symm.trans hactive
      have hnothing : ∀ banks dacPosition,
          (e.board.pass ((Command.dacWrite frames).order? banks dacPosition)).deeds = [] := by
        intro banks dacPosition
        rw [Command.order?]
        cases banks.byteAt? Deck.dacBank dacPosition with
        | none => rfl
        | some byte =>
          rw [Option.map_some, Board.pass, Board.send_of_inactive _ hidle]
          rfl
      rw [hnothing, hnothing]
  | ramCopy copy =>
    rw [Command.order?, Command.order?, RamCopy.order?, RamCopy.order?, h.range?_eq]
  | _ => rfl

/-- **After a turn both passes are at the same next turn.** -/
theorem turn {command : Command} (h : Repeats last (⟨command, d⟩ :: turns) d e) :
    Repeats last turns (d.execute engines command).value (e.execute engines command).value := by
  obtain ⟨hsettled, hchips⟩ := @execute_of_nothing _ _ engines command d (.inl h.settled)
  obtain ⟨hsettled', hchips'⟩ := @execute_of_nothing _ _ engines command e (.inl h.settled')
  have hactive : (d.execute engines command).value.board.isActive .ym2612 =
      d.board.isActive .ym2612 := (hchips ⟨.ym2612, .primary⟩).active
  have hactive' : (e.execute engines command).value.board.isActive .ym2612 =
      d.board.isActive .ym2612 :=
    ((hchips'.trans h.chips.symm) ⟨.ym2612, .primary⟩).active
  refine ⟨hchips.trans (h.chips.trans hchips'.symm), hsettled.trans h.settled,
    hsettled'.trans h.settled', ?_, ?_, ?_, ?_⟩
  · rw [banks_execute]
    exact h.growing
  · rw [banks_execute]
    exact h.grown.trans (command.grows_stock _)
  · intro turn hturn
    exact h.inRange turn (List.mem_cons_of_mem _ hturn)
  · rw [dacPosition_execute, dacPosition_execute, hactive, hactive']
    cases command with
    | dacSeek position => exact .inl rfl
    | dacWrite frames =>
      left
      rw [Command.dacAfter, Command.dacAfter, ← h.dacPosition_eq]
      cases hym : d.board.isActive .ym2612 with
      | false => rfl
      | true => rw [h.byteAt?_eq hym, h.dacPosition_eq]
    | _ => exact h.converter

end Deck.Repeats

/-! ## 3. Sessions -/

namespace Session

/-- Going back after a pass to the end leads to where the pass began. -/
theorem timeline_again {start : Session σ} {first : List Call} {count : Nat}
    (hterminated : start.timeline.terminated = false) (hended : start.timeline.ended = false)
    (hfirst : first.filterMap Call.move? = List.replicate count .step)
    (hend : .ok .endOfStream ∈ (start.replies first).filterMap Reply.step?) :
    ((start.after first).seek start.playback.position).timeline = start.timeline := by
  have hrun := timeline_performAll first start
  rw [hfirst] at hrun
  have hreplies : (start.replies first).filterMap Reply.step? = _ := congrArg Prod.fst hrun
  have hlast : (start.after first).timeline = _ := congrArg Prod.snd hrun
  rw [hreplies] at hend
  obtain ⟨hmoved, hrunning⟩ := Timeline.run_to_end hterminated hended hend
  rw [← hlast] at hmoved hrunning
  have hseek : ((start.after first).seek start.playback.position).timeline =
      (start.after first).timeline.seek start.timeline.position := timeline_seek _ _
  rw [hseek, Timeline.seek, if_pos hmoved, ← hended, hrunning, ← hterminated]

/-- **A second pass does the same.**  From any running session whose FM chip is decided, let a script
without seeks come to the end of the stream with some steps, and go back.  If all that the first pass
read from the banks was there, and the converter is back where it was or is sent to a place before
each of its bytes, then any script without seeks and with as many steps has the same outcomes of its
steps, and does the same deeds.  Each engine hears the same in both passes. -/
theorem second_pass_repeats {start : Session σ} {first second : List Call} {count : Nat}
    (hterminated : start.timeline.terminated = false) (hended : start.timeline.ended = false)
    (hsettled : start.playback.deck.pendingFm = none)
    (hfirst : first.filterMap Call.move? = List.replicate count .step)
    (hsecond : second.filterMap Call.move? = List.replicate count .step)
    (hend : .ok .endOfStream ∈ (start.replies first).filterMap Reply.step?)
    (hrange : ∀ turn ∈ start.turns first, turn.inRange = true)
    (hconverter : (start.after first).playback.deck.dacPosition = start.playback.deck.dacPosition ∨
      ∀ before frames later, (start.turns first).map Turn.command =
        before ++ .dacWrite frames :: later → ∃ position, .dacSeek position ∈ before) :
    let again := (start.after first).seek start.playback.position
    (again.replies second).filterMap Reply.step? = (start.replies first).filterMap Reply.step? ∧
      (again.performAll second).deeds = (start.performAll first).deeds ∧
      ∀ site, ∃ heard,
        heardBy site (start.performAll first).events = heard ∧
        heardBy site (again.performAll second).events = heard ∧
        Socket.Hears (start.engines site) heard (start.socket site)
          ((start.after first).socket site) ∧
        Socket.Hears (start.engines site) heard (again.socket site)
          ((again.after second).socket site) := by
  intro again
  -- the outcomes: the timeline is back where it was
  have hline : again.timeline = start.timeline :=
    timeline_again hterminated hended hfirst hend
  have himage : again.image = start.image := image_after first start
  have hengines : again.engines = start.engines := engines_after first start
  have hrun := timeline_performAll second again
  rw [hsecond, ← hfirst, hline, himage, ← timeline_performAll first start] at hrun
  -- the deeds: the second pass is in step with the first one
  have hcommands : (start.turns first).map Turn.command =
      (again.turns second).map Turn.command := by
    rw [commands_turns, commands_turns, hfirst, hsecond, hline, himage]
  have hchain := chain_after first start
  have hchain' := chain_after second again
  rw [hengines] at hchain'
  obtain ⟨hpending, hchips⟩ := hchain.unchanged (.inl hsettled)
  have hbegin : Deck.Repeats (start.after first).playback.deck.banks (start.turns first)
      start.playback.deck again.playback.deck :=
    ⟨hchips.symm, hsettled, hpending.trans hsettled, hchain.banks_eq.symm, .refl _, hrange,
      hconverter.imp Eq.symm Command.seeksFirst_iff.mpr⟩
  obtain ⟨hdeeds, -⟩ := Deck.Chain.lockstep
    (R := Deck.Repeats (start.after first).playback.deck.banks)
    (fun hrests h => h.rest hrests) (fun hrests h => h.rest' hrests)
    (fun _ h => ⟨h.deeds, h.turn⟩) hchain hchain' hcommands hbegin
  have hsame : (again.performAll second).deeds = (start.performAll first).deeds := by
    rw [deeds_performAll, deeds_performAll, hengines]
    exact hdeeds.symm
  refine ⟨congrArg Prod.fst hrun, hsame, fun site => ⟨_, rfl, ?_, ?_, ?_⟩⟩
  · rw [← Event.heardBy_filter_isDeed site (again.performAll second).events]
    exact (congrArg (heardBy site) hsame).trans (Event.heardBy_filter_isDeed site _)
  · exact hears_performAll first start site
  · have hears := (hears_performAll second again).of_deeds hsame site
    rw [hengines] at hears
    exact hears

/-- The loop of a log brings its two converter bytes once more, and they are played as before. -/
theorem converterLog_second_pass : ∃ session,
    (load Bundled.factory converterLog).value = .ok session ∧
    let start := session.after [.step]
    let again := (start.after [.step, .render 2, .step, .step, .step, .step]).seek
      start.playback.position
    start.playback.position = 67 ∧
      (again.replies [.tick, .step, .step, .step, .step, .step]).filterMap Reply.step? =
        [.ok (.wait 0), .ok (.wait 0), .ok (.wait 3), .ok (.wait 4), .ok .endOfStream] ∧
      (again.performAll [.tick, .step, .step, .step, .step, .step]).deeds =
        [.call ⟨.ym2612, .primary⟩ (.bus 0 0x2A), .call ⟨.ym2612, .primary⟩ (.bus 1 0x7F),
          .call ⟨.ym2612, .primary⟩ (.bus 0 0x2A), .call ⟨.ym2612, .primary⟩ (.bus 1 0x81)] := by
  have hrun : ((Header.parse converterLog).toOption.map fun header =>
      let start := (opened Bundled.factory converterLog header).after [.step]
      let first : List Call := [.step, .render 2, .step, .step, .step, .step]
      (start.timeline, start.playback.deck.pendingFm, (start.performAll first).deeds,
        (start.turns first).all Turn.inRange,
        Command.seeksFirst ((start.turns first).map Turn.command))) =
      some (⟨67, false, false⟩, none,
        [.call ⟨.ym2612, .primary⟩ (.bus 0 0x2A), .call ⟨.ym2612, .primary⟩ (.bus 1 0x7F),
          .call ⟨.ym2612, .primary⟩ (.bus 0 0x2A), .call ⟨.ym2612, .primary⟩ (.bus 1 0x81)],
        true, true) := by decide +kernel
  obtain ⟨header, hparse, -, hload⟩ := @load_of_dataStart converterLog 64 rfl
  rw [hparse] at hrun
  obtain ⟨hline, hrun⟩ := Prod.mk.inj (Option.some.inj hrun)
  obtain ⟨hsettled, hrun⟩ := Prod.mk.inj hrun
  obtain ⟨hdeeds, hrun⟩ := Prod.mk.inj hrun
  obtain ⟨hrange, hseeks⟩ := Prod.mk.inj hrun
  refine ⟨_, hload, congrArg Timeline.position hline, ?_⟩
  generalize hstart : (opened Bundled.factory converterLog header).after [.step] = start at *
  have himage : start.image = converterLog := by
    rw [← hstart, image_after]
    rfl
  have hreplies : (start.replies [.step, .render 2, .step, .step, .step, .step]).filterMap
      Reply.step? =
        [.ok (.wait 0), .ok (.wait 0), .ok (.wait 3), .ok (.wait 4), .ok .endOfStream] := by
    have houtcomes := congrArg Prod.fst
      (timeline_performAll [.step, .render 2, .step, .step, .step, .step] start)
    rw [hline, himage] at houtcomes
    exact houtcomes
  obtain ⟨hagain, hagain', -⟩ := @second_pass_repeats _ _ start
    [.step, .render 2, .step, .step, .step, .step] [.tick, .step, .step, .step, .step, .step] 5
    (congrArg Timeline.terminated hline) (congrArg Timeline.ended hline) hsettled rfl rfl
    (by rw [hreplies]; simp) (List.all_eq_true.mp hrange)
    (.inr (Command.seeksFirst_iff.mp hseeks))
  exact ⟨hagain.trans hreplies, hagain'.trans hdeeds⟩

end Session

end ChipLog
