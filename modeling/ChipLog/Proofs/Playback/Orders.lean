/-
# What a command comes down to

There are some twenty commands, and carrying out each of them takes a path of its own.  All the
same, every one of them comes down to at most four things:

* it decides the kind of an FM chip that is still open (`Command.fmKind?`);
* it has something to say to one chip (`Command.order?`), with the sample data at hand;
* it brings sample data for a bank (`Command.stock`);
* it moves the place of the next converter byte (`Command.dacAfter`).

Main statement: apart from notices, to carry out a command is to do these things in turn
(`Deck.execute_sameDeeds`).  What a command does to the banks, to the place of the next converter
byte, to the open FM clock and to the engines is read off it, so that nobody has to go through the
commands again.
-/
import ChipLog.Playback.Deck
import ChipLog.Proofs.Board.Hearing

namespace ChipLog

/-! ## 1. The same deeds -/

namespace Logged

variable {ι α β : Type}

/-- The same result and the same deeds; notices may differ. -/
structure SameDeeds (x y : Logged ι α) : Prop where
  value : x.value = y.value
  deeds : x.deeds = y.deeds

theorem SameDeeds.refl (x : Logged ι α) : SameDeeds x x := ⟨rfl, rfl⟩

/-- What both do first makes no difference. -/
theorem SameDeeds.bind (x : Logged ι α) {f g : α → Logged ι β}
    (h : SameDeeds (f x.value) (g x.value)) : SameDeeds (x >>= f) (x >>= g) :=
  ⟨h.value, by rw [deeds_bind, deeds_bind, h.deeds]⟩

end Logged

open Event (heardBy toldTo)
open Logged (SameDeeds)

/-! ## 2. Orders -/

namespace EngineCall

/-- Whether a call writes to the bus or to a memory. -/
def isWrite : EngineCall → Bool
  | bus _ _ | rom _ _ _ _ | ram _ _ => true
  | start _ | configure _ => false

theorem isStart_of_isWrite (call : EngineCall) (h : call.isWrite = true) :
    call.isStart = false := by
  cases call <;> first | rfl | cases h

end EngineCall

/-- An order: a site, and what its engine is told. -/
abbrev Order : Type := Site × List EngineCall

/-- What the contents of a data block are for, unless they are for a bank or for nobody. -/
def BlockContents.order? (rank : Rank) : BlockContents → Option Order
  | stream _ _ | packed _ _ _ => none
  | rom type size offset data =>
    type.target?.map fun target =>
      (⟨target.1, rank⟩, [.rom target.2 size.toNat offset.toNat data])
  | ram type offset data =>
    type.target?.map fun kind => (⟨kind, rank⟩, [.ram offset.toNat data])

/-- Sample data goes behind what its bank holds; other contents leave the banks as they are. -/
def BlockContents.stock (banks : Banks) : BlockContents → Banks
  | stream bank data => banks.append bank data
  | _ => banks

/-- What a data block is for. -/
def DataBlock.order? (block : DataBlock) : Option Order :=
  block.contents.toOption.bind (BlockContents.order? block.rank)

/-- The banks after a data block. -/
def DataBlock.stock (block : DataBlock) (banks : Banks) : Banks :=
  block.contents.toOption.elim banks (BlockContents.stock banks)

/-- What a copy is for, as far as its bank reaches. -/
def RamCopy.order? (banks : Banks) (copy : RamCopy) : Option Order :=
  if copy.bank = Deck.rf5c68Bank then
    (banks.range? copy.bank copy.readOffset.toNat copy.length.toNat).map fun range =>
      (⟨.rf5c68, .primary⟩, [.ram copy.writeOffset.toNat range.1])
  else none

namespace Command

/-- The kind that a command decides for an FM chip whose kind is open. -/
def fmKind? : Command → Option ChipKind
  | registerWrite kind .primary _ _ _ => if Deck.takesFmClock kind then some kind else none
  | dacWrite _ => some .ym2612
  | _ => none

/-- What a command has to say, and to which chip. -/
def order? (banks : Banks) (dacPosition : Nat) : Command → Option Order
  | psgWrite rank value => some (⟨.sn76489, rank⟩, [.bus 0 value])
  | psgStereo rank value => some (⟨.sn76489, rank⟩, [.bus 1 value])
  | registerWrite kind rank pair register value =>
    some (⟨kind, rank⟩, EngineCall.register pair register value)
  | dataBlock block => block.order?
  | ramCopy copy => copy.order? banks
  | dacWrite _ =>
    (banks.byteAt? Deck.dacBank dacPosition).map fun byte =>
      (⟨.ym2612, .primary⟩, EngineCall.register 0 Deck.dacRegister byte)
  | rf5c68Register register value =>
    some (⟨.rf5c68, .primary⟩, EngineCall.indexed register value)
  | rf5c68Memory address value => some (⟨.rf5c68, .primary⟩, EngineCall.memory address value)
  | multiPcmWrite rank register value => some (⟨.multiPcm, rank⟩, [.bus register value])
  | multiPcmBank rank channel offset => some (⟨.multiPcm, rank⟩, EngineCall.bank channel offset)
  | segaPcmMemory rank address value => some (⟨.segaPcm, rank⟩, EngineCall.memory address value)
  | pwmWrite _ _ | ymf278bWrite _ _ _ | ymf271Write _ _ _ | dacSeek _ | wait _ | waitSixtieth
  | waitFiftieth | waitShort _ | endOfData => none

/-- The banks after a command. -/
def stock (banks : Banks) : Command → Banks
  | dataBlock block => block.stock banks
  | _ => banks

/-- Commands only ever put sample data behind what is there. -/
theorem grows_stock (command : Command) (banks : Banks) : banks.Grows (command.stock banks) := by
  cases command with
  | dataBlock block =>
    rw [stock, DataBlock.stock]
    cases block.contents with
    | error fault => exact .refl banks
    | ok contents =>
      cases contents with
      | stream bank data => exact banks.grows_append bank data
      | _ => exact .refl banks
  | _ => exact .refl banks

/-- The banks after some commands. -/
def stockAll (commands : List Command) (banks : Banks) : Banks :=
  commands.foldl (fun banks command => command.stock banks) banks

theorem grows_stockAll (commands : List Command) (banks : Banks) :
    banks.Grows (stockAll commands banks) := by
  induction commands generalizing banks with
  | nil => exact .refl banks
  | cons command commands ih => exact (command.grows_stock banks).trans (ih _)

/-- The place of the next converter byte after a command, which depends on whether there is a
YM2612 to take one. -/
def dacAfter (banks : Banks) (active : Bool) (dacPosition : Nat) : Command → Nat
  | dacSeek position => position.toNat
  | dacWrite _ =>
    if active ∧ (banks.byteAt? Deck.dacBank dacPosition).isSome then dacPosition + 1
    else dacPosition
  | _ => dacPosition

/-- Orders are writes to the bus or to a memory. -/
theorem isWrite_of_order? {banks : Banks} {dacPosition : Nat} {command : Command} {order : Order}
    (h : command.order? banks dacPosition = some order) :
    ∀ call ∈ order.2, call.isWrite = true := by
  cases command with
  | dataBlock block =>
    obtain ⟨contents, -, hcontents⟩ := Option.bind_eq_some_iff.mp h
    cases contents with
    | rom type size offset data =>
      obtain ⟨target, -, rfl⟩ := Option.map_eq_some_iff.mp hcontents
      simp [EngineCall.isWrite]
    | ram type offset data =>
      obtain ⟨kind, -, rfl⟩ := Option.map_eq_some_iff.mp hcontents
      simp [EngineCall.isWrite]
    | stream bank data => cases hcontents
    | packed bank packing size => cases hcontents
  | ramCopy copy =>
    have hcopy : copy.order? banks = some order := h
    unfold RamCopy.order? at hcopy
    split at hcopy
    · obtain ⟨range, -, rfl⟩ := Option.map_eq_some_iff.mp hcopy
      simp [EngineCall.isWrite]
    · cases hcopy
  | dacWrite frames =>
    obtain ⟨byte, -, rfl⟩ := Option.map_eq_some_iff.mp h
    simp [EngineCall.isWrite, EngineCall.register]
  | _ =>
    cases h <;>
      simp [EngineCall.isWrite, EngineCall.register, EngineCall.indexed, EngineCall.memory,
        EngineCall.bank]

/-- An order never starts an engine. -/
theorem isStart_of_order? {banks : Banks} {dacPosition : Nat} {command : Command} {order : Order}
    (h : command.order? banks dacPosition = some order) :
    ∀ call ∈ order.2, call.isStart = false :=
  fun call hcall => call.isStart_of_isWrite (isWrite_of_order? h call hcall)

end Command

/-! ## 3. Carrying out -/

namespace Board

variable {σ : Type} [ChipEngine σ]

/-- Pass on an order, if there is one. -/
def pass (board : Board σ) : Option Order → Logged Site (Board σ)
  | some order => board.send order.1 order.2
  | none => pure board

/-- What is sent to an empty socket goes nowhere. -/
theorem send_of_inactive (site : Site) {board : Board σ}
    (h : (board.socket site).isActive = false) (calls : List EngineCall) :
    board.send site calls = pure board := by
  have hsocket : (board.socket site).send calls = pure (board.socket site) := by
    cases hvoice : (board.socket site).voice with
    | none => rw [Socket.send, hvoice]
    | some voice => simp [Socket.isActive, hvoice] at h
  rw [send, hsocket]
  exact congrArg (fun board => (pure board : Logged Site (Board σ))) (board.setSocket_self site)

end Board

namespace Deck

variable {σ : Type} [ChipEngine σ]

/-- Decide the kind of the FM chip, if the command does that. -/
def settle (engines : Factory σ) (command : Command) (deck : Deck σ) : Logged Site (Deck σ) :=
  match command.fmKind? with
  | some kind => deck.decideFm engines kind
  | none => pure deck

/-- Do the rest of a command. -/
def obey (command : Command) (deck : Deck σ) : Logged Site (Deck σ) := do
  let board ← deck.board.pass (command.order? deck.banks deck.dacPosition)
  pure {
    deck with
    board
    banks := command.stock deck.banks
    dacPosition := command.dacAfter deck.banks (deck.board.isActive .ym2612) deck.dacPosition }

/-- A kind that is no FM kind decides nothing. -/
theorem decideFm_of_not_takesFmClock {engines : Factory σ} {kind : ChipKind} {deck : Deck σ}
    (h : takesFmClock kind = false) : deck.decideFm engines kind = pure deck := by
  unfold decideFm
  split
  · rw [h, if_neg Bool.false_ne_true]
  · rfl

/-- A command that only has something to say. -/
theorem send_sameDeeds {command : Command} {site : Site} {calls : List EngineCall} (deck : Deck σ)
    (horder : command.order? deck.banks deck.dacPosition = some (site, calls))
    (hstock : command.stock deck.banks = deck.banks)
    (hdac : ∀ active, command.dacAfter deck.banks active deck.dacPosition = deck.dacPosition) :
    SameDeeds (deck.send site calls) (deck.obey command) := by
  unfold obey
  rw [horder, hstock, hdac]
  exact SameDeeds.refl _

theorem writeDac_sameDeeds (engines : Factory σ) (frames : UInt8) (deck : Deck σ) :
    SameDeeds (deck.writeDac engines)
      (deck.settle engines (.dacWrite frames) >>= obey (.dacWrite frames)) := by
  refine SameDeeds.bind (deck.decideFm engines .ym2612) ?_
  generalize (deck.decideFm engines .ym2612).value = deck
  have hdac : ∀ active, (Command.dacWrite frames).dacAfter deck.banks active deck.dacPosition =
      if active ∧ (deck.banks.byteAt? dacBank deck.dacPosition).isSome then deck.dacPosition + 1
      else deck.dacPosition := fun _ => rfl
  have horder : (Command.dacWrite frames).order? deck.banks deck.dacPosition =
      (deck.banks.byteAt? dacBank deck.dacPosition).map fun byte =>
        (⟨.ym2612, .primary⟩, EngineCall.register 0 dacRegister byte) := rfl
  unfold obey
  rw [hdac, horder]
  cases hbyte : deck.banks.byteAt? dacBank deck.dacPosition with
  | none =>
    split
    · exact ⟨by simp [Board.pass, Command.stock], by simp [Board.pass]⟩
    · exact ⟨by simp [Board.pass, Command.stock], by simp [Board.pass]⟩
  | some byte =>
    cases hactive : deck.board.isActive .ym2612 with
    | true => exact ⟨rfl, by simp [Board.pass, send]⟩
    | false =>
      -- an order for an empty socket goes nowhere
      have hsend := Board.send_of_inactive ⟨.ym2612, .primary⟩ hactive
      exact ⟨by simp [Board.pass, hsend, Command.stock], by simp [Board.pass, hsend]⟩

theorem loadBlock_sameDeeds (block : DataBlock) (deck : Deck σ) :
    SameDeeds (deck.loadBlock block) (deck.obey (.dataBlock block)) := by
  unfold loadBlock obey
  simp only [Command.order?, Command.stock, Command.dacAfter, DataBlock.order?, DataBlock.stock]
  cases hcontents : block.contents with
  | error fault => exact ⟨rfl, rfl⟩
  | ok contents =>
    simp only [Except.toOption, Option.bind_some, Option.elim_some]
    cases contents with
    | stream bank data => exact ⟨rfl, rfl⟩
    | packed bank packing size => exact ⟨rfl, rfl⟩
    | rom type size offset data =>
      simp only [loadContents, BlockContents.order?, BlockContents.stock]
      cases type.target? with
      | none => exact ⟨rfl, rfl⟩
      | some target => exact ⟨rfl, by simp [Board.pass, send]⟩
    | ram type offset data =>
      simp only [loadContents, BlockContents.order?, BlockContents.stock]
      cases type.target? with
      | none => exact ⟨rfl, rfl⟩
      | some kind => exact ⟨rfl, by simp [Board.pass, send]⟩

theorem copyRam_sameDeeds (copy : RamCopy) (deck : Deck σ) :
    SameDeeds (deck.copyRam copy) (deck.obey (.ramCopy copy)) := by
  unfold copyRam obey
  simp only [Command.order?, Command.stock, Command.dacAfter, RamCopy.order?]
  cases deck.banks.range? copy.bank copy.readOffset.toNat copy.length.toNat with
  | none =>
    rw [Option.map_none, ite_self]
    exact ⟨rfl, rfl⟩
  | some range =>
    obtain ⟨data, clamped⟩ := range
    by_cases hbank : copy.bank = rf5c68Bank
    · simp only [if_pos hbank]
      cases clamped with
      | false => exact ⟨rfl, by simp [Board.pass, send]⟩
      | true => exact ⟨rfl, by simp [Board.pass, send]⟩
    · simp only [if_neg hbank]
      cases clamped with
      | false => exact ⟨rfl, rfl⟩
      | true => exact ⟨rfl, rfl⟩

/-- **Apart from notices, a command decides the FM chip, passes on its order, brings its data and
moves the place of the next converter byte.** -/
theorem execute_sameDeeds (engines : Factory σ) (command : Command) (deck : Deck σ) :
    SameDeeds (deck.execute engines command) (deck.settle engines command >>= obey command) := by
  cases command with
  | registerWrite kind rank pair register value =>
    have htell : ∀ deck : Deck σ,
        SameDeeds (deck.send ⟨kind, rank⟩ (EngineCall.register pair register value))
          (deck.obey (.registerWrite kind rank pair register value)) :=
      fun deck => send_sameDeeds deck rfl rfl fun _ => rfl
    cases rank with
    | secondary => exact ⟨(htell deck).value, (htell deck).deeds⟩
    | primary =>
      cases hkind : takesFmClock kind with
      | true =>
        have hsettle : deck.settle engines (.registerWrite kind .primary pair register value) =
            deck.decideFm engines kind := by
          simp [settle, Command.fmKind?, hkind]
        rw [hsettle]
        exact SameDeeds.bind _ (htell _)
      | false =>
        have hsettle : deck.settle engines (.registerWrite kind .primary pair register value) =
            deck.decideFm engines kind := by
          rw [decideFm_of_not_takesFmClock hkind]
          simp [settle, Command.fmKind?, hkind]
        rw [hsettle]
        exact SameDeeds.bind _ (htell _)
  | dacWrite frames => exact writeDac_sameDeeds engines frames deck
  | dataBlock block => exact loadBlock_sameDeeds block deck
  | ramCopy copy => exact copyRam_sameDeeds copy deck
  | psgWrite rank value => exact send_sameDeeds deck rfl rfl fun _ => rfl
  | psgStereo rank value => exact send_sameDeeds deck rfl rfl fun _ => rfl
  | rf5c68Register register value => exact send_sameDeeds deck rfl rfl fun _ => rfl
  | rf5c68Memory address value => exact send_sameDeeds deck rfl rfl fun _ => rfl
  | multiPcmWrite rank register value => exact send_sameDeeds deck rfl rfl fun _ => rfl
  | multiPcmBank rank channel offset => exact send_sameDeeds deck rfl rfl fun _ => rfl
  | segaPcmMemory rank address value => exact send_sameDeeds deck rfl rfl fun _ => rfl
  | dacSeek position => exact ⟨rfl, rfl⟩
  | pwmWrite register value => exact ⟨rfl, rfl⟩
  | ymf278bWrite part register value => exact ⟨rfl, rfl⟩
  | ymf271Write part register value => exact ⟨rfl, rfl⟩
  | wait frames => exact ⟨rfl, rfl⟩
  | waitSixtieth => exact ⟨rfl, rfl⟩
  | waitFiftieth => exact ⟨rfl, rfl⟩
  | waitShort n => exact ⟨rfl, rfl⟩
  | endOfData => exact ⟨rfl, rfl⟩

/-! ## 4. Deciding -/

theorem takesFmClock_of_fmKind? {command : Command} {kind : ChipKind}
    (h : command.fmKind? = some kind) : takesFmClock kind = true := by
  unfold Command.fmKind? at h
  split at h
  · split at h
    case isTrue htakes =>
      cases h
      exact htakes
    case isFalse => cases h
  · cases h
    rfl
  · cases h

variable {engines : Factory σ} {command : Command} {deck : Deck σ}

/-- Once the FM chip is decided, or if there is none, nothing is left to decide. -/
theorem settle_of_decided (h : deck.pendingFm = none) :
    deck.settle engines command = pure deck := by
  unfold settle
  split
  · rw [decideFm, h]
  · rfl

/-- A command that is not for an FM chip decides nothing. -/
theorem settle_of_fmKind?_eq_none (h : command.fmKind? = none) :
    deck.settle engines command = pure deck := by
  rw [settle, h]

/-- A command for an FM chip decides the kind, if it is open. -/
theorem settle_of_fmKind? {kind : ChipKind} {field : ClockField} (h : command.fmKind? = some kind)
    (hopen : deck.pendingFm = some field) :
    deck.settle engines command =
      (deck.board.activate engines kind field >>= fun activated =>
        pure { deck with board := activated.2, pendingFm := none }) := by
  simp only [settle, h, decideFm, hopen, takesFmClock_of_fmKind? h, if_true]

/-- **Settling does nothing, or it switches on the chips of the kind that the command decides.** -/
theorem settle_cases (engines : Factory σ) (command : Command) (deck : Deck σ) :
    ((deck.pendingFm = none ∨ command.fmKind? = none) ∧
      deck.settle engines command = pure deck) ∨
    ∃ kind field, command.fmKind? = some kind ∧ deck.pendingFm = some field ∧
      deck.settle engines command =
        (deck.board.activate engines kind field >>= fun activated =>
          pure { deck with board := activated.2, pendingFm := none }) := by
  cases hkind : command.fmKind? with
  | none => exact .inl ⟨.inr rfl, settle_of_fmKind?_eq_none hkind⟩
  | some kind =>
    cases hopen : deck.pendingFm with
    | none => exact .inl ⟨.inl rfl, settle_of_decided hopen⟩
    | some field => exact .inr ⟨kind, field, rfl, rfl, settle_of_fmKind? hkind hopen⟩

/-- Deciding leaves the sample data alone, and nothing is open afterwards that the command could
have decided. -/
theorem settle_keeps (engines : Factory σ) (command : Command) (deck : Deck σ) :
    (deck.settle engines command).value.banks = deck.banks ∧
      (deck.settle engines command).value.dacPosition = deck.dacPosition ∧
      (deck.settle engines command).value.pendingFm =
        if command.fmKind?.isSome then none else deck.pendingFm := by
  rcases settle_cases engines command deck with ⟨hnothing, hsettle⟩ | ⟨kind, field, hkind, -, hsettle⟩
  · rw [hsettle]
    refine ⟨rfl, rfl, ?_⟩
    rcases hnothing with hdecided | hkind
    · exact hdecided.trans (by rw [hdecided, ite_self])
    · rw [hkind]
      rfl
  · rw [hsettle, hkind]
    exact ⟨rfl, rfl, rfl⟩

theorem hears_settle (engines : Factory σ) (command : Command) (deck : Deck σ) :
    deck.board.Hears engines (deck.settle engines command).events
      (deck.settle engines command).value.board := by
  rcases settle_cases engines command deck with ⟨-, hsettle⟩ | ⟨kind, field, -, -, hsettle⟩
  · rw [hsettle]
    exact .refl engines deck.board
  · rw [hsettle]
    simpa using Board.hears_activate engines kind field deck.board

/-- Deciding the FM chip tells no chip anything but to start. -/
theorem toldTo_settle (engines : Factory σ) (command : Command) (deck : Deck σ) (site : Site) :
    toldTo site (deck.settle engines command).events = [] := by
  rcases settle_cases engines command deck with ⟨-, hsettle⟩ | ⟨kind, field, -, -, hsettle⟩
  · rw [hsettle]
    rfl
  · rw [hsettle]
    simpa using Board.toldTo_activate engines kind field deck.board site

/-! ## 5. What a command does -/

theorem banks_execute (engines : Factory σ) (command : Command) (deck : Deck σ) :
    (deck.execute engines command).value.banks = command.stock deck.banks := by
  rw [(execute_sameDeeds engines command deck).value]
  exact congrArg command.stock (settle_keeps engines command deck).1

theorem pendingFm_execute (engines : Factory σ) (command : Command) (deck : Deck σ) :
    (deck.execute engines command).value.pendingFm =
      if command.fmKind?.isSome then none else deck.pendingFm := by
  rw [(execute_sameDeeds engines command deck).value]
  exact (settle_keeps engines command deck).2.2

/-- What is done to the board: the FM chip is decided, and the order is passed on. -/
theorem board_execute (engines : Factory σ) (command : Command) (deck : Deck σ) :
    (deck.execute engines command).value.board =
      ((deck.settle engines command).value.board.pass
        (command.order? deck.banks deck.dacPosition)).value := by
  obtain ⟨hbanks, hdac, -⟩ := settle_keeps engines command deck
  rw [(execute_sameDeeds engines command deck).value, ← hbanks, ← hdac]
  rfl

theorem deeds_execute (engines : Factory σ) (command : Command) (deck : Deck σ) :
    (deck.execute engines command).deeds =
      (deck.settle engines command).deeds ++
        ((deck.settle engines command).value.board.pass
          (command.order? deck.banks deck.dacPosition)).deeds := by
  obtain ⟨hbanks, hdac, -⟩ := settle_keeps engines command deck
  rw [(execute_sameDeeds engines command deck).deeds, ← hbanks, ← hdac]
  simp [obey]

/-- After the FM chip is decided, a command leaves all chips as they are. -/
theorem sameChips_execute (engines : Factory σ) (command : Command) (deck : Deck σ) :
    (deck.execute engines command).value.board.SameChips
      (deck.settle engines command).value.board := by
  rw [board_execute]
  cases command.order? deck.banks deck.dacPosition with
  | none => exact .refl _
  | some order => exact Board.sameChips_send order.1 order.2 _

/-- A command that has nothing to decide leaves an open clock and all chips as they are. -/
theorem execute_of_nothing (engines : Factory σ) {command : Command} {deck : Deck σ}
    (h : deck.pendingFm = none ∨ command.fmKind? = none) :
    (deck.execute engines command).value.pendingFm = deck.pendingFm ∧
      (deck.execute engines command).value.board.SameChips deck.board := by
  have hchips := sameChips_execute engines command deck
  rw [pendingFm_execute]
  rcases h with hdecided | hkind
  · rw [settle_of_decided hdecided] at hchips
    exact ⟨by rw [hdecided, ite_self], hchips⟩
  · rw [settle_of_fmKind?_eq_none hkind] at hchips
    exact ⟨by rw [hkind]; rfl, hchips⟩

/-- The place of the next converter byte moves on if there is a YM2612 in the end. -/
theorem dacPosition_execute (engines : Factory σ) (command : Command) (deck : Deck σ) :
    (deck.execute engines command).value.dacPosition =
      command.dacAfter deck.banks
        ((deck.execute engines command).value.board.isActive .ym2612) deck.dacPosition := by
  obtain ⟨hbanks, hdac, -⟩ := settle_keeps engines command deck
  have hactive : (deck.execute engines command).value.board.isActive .ym2612 =
      (deck.settle engines command).value.board.isActive .ym2612 :=
    (sameChips_execute engines command deck ⟨.ym2612, .primary⟩).active
  rw [hactive, (execute_sameDeeds engines command deck).value, ← hbanks, ← hdac]
  rfl

/-- A chip hears of the deciding and of the order. -/
theorem heardBy_execute (engines : Factory σ) (command : Command) (deck : Deck σ) (site : Site) :
    heardBy site (deck.execute engines command).events =
      heardBy site (deck.settle engines command).events ++
        heardBy site ((deck.settle engines command).value.board.pass
          (command.order? deck.banks deck.dacPosition)).events := by
  have hdeeds : heardBy site (deck.execute engines command).events =
      heardBy site (deck.execute engines command).deeds :=
    (Event.heardBy_filter_isDeed site _).symm
  rw [hdeeds, deeds_execute, Event.heardBy_append, Logged.deeds, Logged.deeds,
    Event.heardBy_filter_isDeed, Event.heardBy_filter_isDeed]

/-- **A chip is told the order of a command, if it is for it and there is an engine in the end.**
Nothing else is told to any chip. -/
theorem toldTo_execute (engines : Factory σ) (command : Command) (deck : Deck σ) (site : Site) :
    toldTo site (deck.execute engines command).events =
      match command.order? deck.banks deck.dacPosition with
      | some order =>
        if site = order.1 ∧
          ((deck.execute engines command).value.board.socket order.1).isActive = true
        then order.2 else []
      | none => [] := by
  have hsettle := toldTo_settle engines command deck site
  rw [toldTo] at hsettle ⊢
  rw [heardBy_execute, List.filterMap_append, hsettle, List.nil_append]
  cases horder : command.order? deck.banks deck.dacPosition with
  | none => rfl
  | some order =>
    simp only [(sameChips_execute engines command deck order.1).active]
    exact Board.toldTo_send (Command.isStart_of_order? horder) order.1 site _

/-- **The engines hear of a command what the journal says.** -/
theorem hears_execute (engines : Factory σ) (command : Command) (deck : Deck σ) :
    deck.board.Hears engines (deck.execute engines command).events
      (deck.execute engines command).value.board := by
  have hpass : (deck.settle engines command).value.board.Hears engines
      ((deck.settle engines command).value.board.pass
        (command.order? deck.banks deck.dacPosition)).events
      ((deck.settle engines command).value.board.pass
        (command.order? deck.banks deck.dacPosition)).value := by
    cases horder : command.order? deck.banks deck.dacPosition with
    | none => exact .refl engines _
    | some order => exact Board.hears_send (Command.isStart_of_order? horder) engines _ _
  rw [board_execute]
  refine ((hears_settle engines command deck).trans hpass).of_deeds ?_
  rw [List.filter_append]
  exact (deeds_execute engines command deck).symm

end Deck

end ChipLog
