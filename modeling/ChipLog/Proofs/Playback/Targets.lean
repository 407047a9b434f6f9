/-
# Commands for one chip

Most commands are for one chip, which they name by themselves, whatever the state of the player is
(`Command.target?`): bus writes, writes to memories, bank switches, and the blocks of a ROM or of a
sample memory.  What such a command has to say is known from the command alone as well
(`Command.calls`).  Not among them are the commands that read sample data at hand, and those that move
the converter.

Once the FM chip is decided, to carry out a command for one chip is to tell that chip what the
command has to say, and nothing else (`Deck.execute_of_target?`).  So such commands can trade
places if they are for different chips (`Deck.execute_comm`).
-/
import ChipLog.Proofs.Header.Fields
import ChipLog.Proofs.Playback.Orders

namespace ChipLog

/-! ## 1. Targets -/

/-- The chip that a block of a ROM or of a sample memory is for, if its type is known. -/
def DataBlock.target? (block : DataBlock) : Option Site :=
  match block.category with
  | .rom => (RomType.ofByte block.type).target?.map fun target => ⟨target.1, block.rank⟩
  | .ram => (RamType.ofByte block.type).target?.map fun kind => ⟨kind, block.rank⟩
  | .stream | .packed => none

namespace Command

/-- The chip that a command is for, if it is for one. -/
def target? : Command → Option Site
  | psgWrite rank _ | psgStereo rank _ => some ⟨.sn76489, rank⟩
  | registerWrite kind rank _ _ _ => some ⟨kind, rank⟩
  | rf5c68Register _ _ | rf5c68Memory _ _ => some ⟨.rf5c68, .primary⟩
  | multiPcmWrite rank _ _ | multiPcmBank rank _ _ => some ⟨.multiPcm, rank⟩
  | segaPcmMemory rank _ _ => some ⟨.segaPcm, rank⟩
  | dataBlock block => block.target?
  | ramCopy _ | dacWrite _ | dacSeek _ | pwmWrite _ _ | ymf278bWrite _ _ _ | ymf271Write _ _ _
  | wait _ | waitSixtieth | waitFiftieth | waitShort _ | endOfData => none

/-- What a command for one chip has to say to it. -/
def calls (command : Command) : List EngineCall :=
  ((command.order? .empty 0).map Prod.snd).getD []

/-- The commands that go by: waits, and writes to chips that no engine can be made for. -/
def goesBy : Command → Bool
  | wait _ | waitSixtieth | waitFiftieth | waitShort _ | pwmWrite _ _ | ymf278bWrite _ _ _
  | ymf271Write _ _ _ => true
  | _ => false

end Command

/-- The contents of a block with a target are for that chip, and bring no sample data for a bank. -/
theorem DataBlock.contents_of_target? {block : DataBlock} {site : Site} {contents : BlockContents}
    (h : block.target? = some site) (hcontents : block.contents = .ok contents) :
    (∃ calls, contents.order? block.rank = some (site, calls)) ∧
      ∀ banks, contents.stock banks = banks := by
  unfold DataBlock.target? at h
  unfold DataBlock.contents at hcontents
  cases hcategory : block.category with
  | stream => rw [hcategory] at h; cases h
  | packed => rw [hcategory] at h; cases h
  | rom =>
    rw [hcategory] at h hcontents
    obtain ⟨target, htarget, rfl⟩ := Option.map_eq_some_iff.mp h
    obtain ⟨size, -, hcontents⟩ := Fault.eq_ok_of_bind hcontents
    obtain ⟨offset, -, hcontents⟩ := Fault.eq_ok_of_bind hcontents
    obtain ⟨data, -, hcontents⟩ := Fault.eq_ok_of_bind hcontents
    cases hcontents
    exact ⟨⟨_, by rw [BlockContents.order?, htarget]; rfl⟩, fun _ => rfl⟩
  | ram =>
    rw [hcategory] at h hcontents
    obtain ⟨kind, hkind, rfl⟩ := Option.map_eq_some_iff.mp h
    obtain ⟨offset, -, hcontents⟩ := Fault.eq_ok_of_bind hcontents
    obtain ⟨data, -, hcontents⟩ := Fault.eq_ok_of_bind hcontents
    cases hcontents
    exact ⟨⟨_, by rw [BlockContents.order?, hkind]; rfl⟩, fun _ => rfl⟩

namespace Command

variable {command : Command} {site : Site}

/-- **A command for one chip has the same to say to it in every state**; a block that is too short
has nothing to say. -/
theorem order?_of_target? (h : command.target? = some site) (banks : Banks) (dacPosition : Nat) :
    command.order? banks dacPosition = some (site, command.calls) ∨
      command.order? banks dacPosition = none ∧ command.calls = [] := by
  cases command with
  | dataBlock block =>
    have horder : (dataBlock block).order? banks dacPosition = block.order? := rfl
    have hcalls : (dataBlock block).calls = (block.order?.map Prod.snd).getD [] := rfl
    rw [horder, hcalls]
    cases hcontents : block.contents with
    | error fault => simp [DataBlock.order?, hcontents, Except.toOption]
    | ok contents =>
      obtain ⟨⟨calls, hsame⟩, -⟩ := block.contents_of_target? h hcontents
      simp [DataBlock.order?, hcontents, Except.toOption, hsame]
  | ramCopy _ | dacWrite _ | dacSeek _ | pwmWrite _ _ | ymf278bWrite _ _ _ | ymf271Write _ _ _
  | wait _ | waitSixtieth | waitFiftieth | waitShort _ | endOfData => cases h
  | _ => cases h; exact .inl rfl

/-- A command for one chip takes no time. -/
theorem duration_of_target? (h : command.target? = some site) : command.duration = 0 := by
  cases command with
  | wait _ | waitSixtieth | waitFiftieth | waitShort _ | dacWrite _ => cases h
  | _ => rfl

theorem ne_endOfData_of_target? (h : command.target? = some site) : command ≠ .endOfData := by
  rintro rfl
  cases h

/-- A command for one chip brings no sample data for a bank. -/
theorem stock_of_target? (h : command.target? = some site) (banks : Banks) :
    command.stock banks = banks := by
  cases command with
  | dataBlock block =>
    rw [stock, DataBlock.stock]
    cases hcontents : block.contents with
    | error fault => rfl
    | ok contents => exact (block.contents_of_target? h hcontents).2 banks
  | _ => rfl

/-- A command for one chip leaves the place of the next converter byte. -/
theorem dacAfter_of_target? (h : command.target? = some site) (banks : Banks) (active : Bool)
    (dacPosition : Nat) : command.dacAfter banks active dacPosition = dacPosition := by
  cases command with
  | dacWrite _ | dacSeek _ => cases h
  | _ => rfl

end Command

/-! ## 2. Telling a chip -/

variable {σ : Type} [ChipEngine σ]

/-- To tell an engine nothing is to leave it alone. -/
theorem Socket.send_nil (socket : Socket σ) : (socket.send []).value = socket := by
  cases hvoice : socket.voice with
  | none => simp [send, hvoice]
  | some voice => cases socket; simp_all [send, Voice.send]

namespace Board

theorem value_send (site : Site) (calls : List EngineCall) (board : Board σ) :
    (board.send site calls).value =
      board.setSocket site ((board.socket site).send calls).value := rfl

/-- **What is told to different chips can be told in either order.** -/
theorem send_comm {a b : Site} (h : a ≠ b) (first second : List EngineCall) (board : Board σ) :
    ((board.send a first).value.send b second).value =
      ((board.send b second).value.send a first).value := by
  apply ext_socket
  intro site
  by_cases ha : site = a
  · subst ha
    simp [socket_send, h]
  · by_cases hb : site = b
    · subst hb
      simp [socket_send, ha]
    · simp [socket_send, ha, hb]

end Board

/-! ## 3. Carrying out -/

namespace Deck

variable {command : Command} {site : Site} {deck : Deck σ}

/-- **To carry out a command for one chip is to tell that chip what the command has to say.** -/
theorem execute_of_target? (engines : Factory σ) (h : command.target? = some site)
    (hdecided : deck.pendingFm = none) :
    (deck.execute engines command).value =
        { deck with board := (deck.board.send site command.calls).value } ∧
      (deck.execute engines command).deeds =
        if (deck.board.socket site).isActive then command.calls.map (.call site) else [] := by
  have hsame := execute_sameDeeds engines command deck
  rw [settle_of_decided hdecided] at hsame
  have hpass : (deck.board.pass (command.order? deck.banks deck.dacPosition)).value =
        (deck.board.send site command.calls).value ∧
      (deck.board.pass (command.order? deck.banks deck.dacPosition)).deeds =
        if (deck.board.socket site).isActive then command.calls.map (.call site) else [] := by
    rcases Command.order?_of_target? h deck.banks deck.dacPosition with horder | ⟨horder, hcalls⟩
    · rw [horder]
      exact ⟨rfl, Board.deeds_send site command.calls deck.board⟩
    · rw [horder, hcalls, Board.value_send, Socket.send_nil, Board.setSocket_self]
      exact ⟨rfl, by simp [Board.pass]⟩
  constructor
  · rw [hsame.value]
    show (obey command deck).value = _
    unfold obey
    simp only [Logged.value_bind, Logged.value_pure, hpass.1, Command.stock_of_target? h,
      Command.dacAfter_of_target? h]
  · have hdeeds : (obey command deck).deeds =
        (deck.board.pass (command.order? deck.banks deck.dacPosition)).deeds := by
      rw [obey, Logged.deeds_bind]
      exact List.append_nil _
    rw [hsame.deeds]
    show (obey command deck).deeds = _
    rw [hdeeds, hpass.2]

/-- **Commands for different chips can trade places.** -/
theorem execute_comm (engines : Factory σ) {first second : Command} {a b : Site}
    (hfirst : first.target? = some a) (hsecond : second.target? = some b) (hsites : a ≠ b)
    (hdecided : deck.pendingFm = none) :
    ((deck.execute engines first).value.execute engines second).value =
      ((deck.execute engines second).value.execute engines first).value := by
  have hdecided' : ∀ board, ({ deck with board } : Deck σ).pendingFm = none := fun _ => hdecided
  rw [(execute_of_target? engines hfirst hdecided).1, (execute_of_target? engines hsecond hdecided).1,
    (execute_of_target? engines hsecond (hdecided' _)).1,
    (execute_of_target? engines hfirst (hdecided' _)).1]
  exact congrArg (fun board => ({ deck with board } : Deck σ))
    (Board.send_comm hsites first.calls second.calls deck.board)

/-- **Commands that go by do nothing.** -/
theorem execute_of_goesBy (engines : Factory σ) (deck : Deck σ) (h : command.goesBy = true) :
    (deck.execute engines command).value = deck ∧ (deck.execute engines command).deeds = [] := by
  cases command with
  | pwmWrite _ _ | ymf278bWrite _ _ _ | ymf271Write _ _ _ | wait _ | waitSixtieth | waitFiftieth
  | waitShort _ => exact ⟨rfl, rfl⟩
  | _ => cases h

end Deck

end ChipLog
