/-
# Decks on the machine

What commands do to a deck is mostly looking things up and passing them on.  A few things are computed
on the way: how many engines were started, the length of what is left of a block or a bank, the end of
a range, the place of the next converter byte, and the first of two bus addresses.  Each of these stays
in its word because of something that was found out before.  A block that is too short for its numbers
has failed before its rest is measured (`contents_eq`), a range that begins inside a bank ends there
(`range?_eq`), and a converter byte that was read is not the last address (`writeDac_eq`).

There is one thing that a machine may have too little of: the data of a bank must fit into its memory
(`Banks.Fits`).  A machine that is short of it stops, which is not the same as a panic (`Within`).

Main statement: with memory for the banks, whatever a command does is reached (`execute_within`).
-/
import ChipLog.Command.Block
import ChipLog.Proofs.Machine.Checked
import ChipLog.Proofs.Playback.Opening
import ChipLog.Proofs.Playback.Orders

namespace ChipLog

/-- Every bank fits into the memory of the machine. -/
def Banks.Fits (banks : Banks) : Prop := ∀ number, (banks.bank number).size ≤ Machine.maxSize

/-- A bank that has grown fits only if it did before. -/
theorem Banks.Grows.fits {b c : Banks} (h : b.Grows c) (hc : c.Fits) : b.Fits := by
  intro number
  obtain ⟨more, hmore⟩ := h number
  have hsize := hc number
  rw [hmore, ByteArray.size_append] at hsize
  omega

theorem Banks.fits_empty : empty.Fits := by
  intro number
  rw [bank_empty]
  exact Nat.zero_le _

namespace Machine

/-! ## 1. Memory -/

/-- The machine comes to an answer if something fits into its memory, and stops for want of memory
if it does not. -/
structure Within {α : Type} (fits : Prop) (x : Checked α) (a : α) : Prop where
  reached : fits → x = .ok a
  refused : ¬ fits → x = .error .memory

namespace Within

variable {α β : Type} {fits fits' : Prop} {x : Checked α} {a : α}

theorem of_eq (hfits : fits) (h : x = .ok a) : Within fits x a :=
  ⟨fun _ => h, fun hnot => absurd hfits hnot⟩

theorem map (h : Within fits x a) (f : α → β) : Within fits (f <$> x) (f a) :=
  ⟨fun hfits => by rw [h.reached hfits]; rfl, fun hnot => by rw [h.refused hnot]; rfl⟩

/-- **Step by step within the memory**, where a later step needs no less of it. -/
theorem bind {f : α → Checked β} {b : β} (h : Within fits x a) (hmore : fits' → fits)
    (hf : fits → Within fits' (f a) b) : Within fits' (x >>= f) b := by
  by_cases hfits : fits
  · rw [h.reached hfits]
    exact hf hfits
  · rw [h.refused hfits]
    exact ⟨fun hfits' => absurd (hmore hfits') hfits, fun _ => rfl⟩

end Within

/-! ## 2. Starting engines -/

section Starting

variable {σ : Type} [ChipEngine σ]

/-- Make an engine for one rank and start it, unless there is one, and count it. -/
def switchOn (field : ClockField) (make : Rank → σ) (rank : Rank) (count : Nat) (pair : Pair σ) :
    Checked (Nat × Pair σ) :=
  if (pair.socket rank).isActive then return (count, pair)
  else do
    let count ← add count 1
    return (count, (pair.switchOn field make rank).value)

/-- Start the engines that a clock field declares, as far as they are missing, and count them. -/
def activatePair (field : ClockField) (make : Rank → σ) (pair : Pair σ) :
    Checked (Nat × Pair σ) := do
  let (count, pair) ← switchOn field make .primary 0 pair
  if field.dual then switchOn field make .secondary count pair else return (count, pair)

/-- Start the engines that a clock field declares for a kind, unless it has one. -/
def activate (engines : Factory σ) (kind : ChipKind) (field : ClockField) (board : Board σ) :
    Checked (Bool × Board σ) :=
  if board.isActive kind then return (false, board)
  else do
    let (count, pair) ←
      activatePair field (fun rank => engines ⟨kind, rank⟩) (board.slot kind)
    return (0 < count, board.setSlot kind pair)

/-- Start the engines that a header declares. -/
def activateAll (engines : Factory σ) :
    List (ChipKind × ClockField) → Board σ → Checked (Board σ)
  | [], board => return board
  | (kind, field) :: rest, board => do
    let (_, board) ← activate engines kind field board
    activateAll engines rest board

/-- The deck with which a log begins. -/
def openDeck (engines : Factory σ) (header : Header) : Checked (Deck σ) := do
  let board ← activateAll engines header.declared .empty
  let board := (Deck.configurePsg header board).value
  let board := (Deck.configureSegaPcm header board).value
  return { board, pendingFm := if header.awaitsFm then some header.fmClock else none }

/-- There is one engine more, unless there was one. -/
theorem activeCount_switchOn (field : ClockField) (make : Rank → σ) (rank : Rank) (pair : Pair σ) :
    (pair.switchOn field make rank).value.activeCount =
      pair.activeCount + if (pair.socket rank).isActive then 0 else 1 := by
  unfold Pair.switchOn
  split
  case isTrue => rfl
  case isFalse hidle =>
    have hidle : (pair.socket rank).isActive = false := Bool.eq_false_iff.mpr hidle
    have hinstalled := (pair.socket rank).isActive_install field (make rank)
    cases rank <;>
      simp_all [Pair.activeCount, Pair.socket, Pair.setSocket, List.countP_cons, Nat.add_comm]

/-- There is room for another engine in the count. -/
theorem switchOn_eq (field : ClockField) (make : Rank → σ) (rank : Rank) {count : Nat}
    (hcount : count < maxSize) (pair : Pair σ) :
    switchOn field make rank count pair =
      .ok (count + ((pair.switchOn field make rank).value.activeCount - pair.activeCount),
        (pair.switchOn field make rank).value) := by
  have hone := activeCount_switchOn field make rank pair
  unfold maxSize at hcount
  unfold switchOn
  split
  case isTrue hactive =>
    rw [Pair.switchOn, if_pos hactive, Logged.value_pure, Nat.sub_self]
    rfl
  case isFalse hidle =>
    rw [if_neg hidle] at hone
    rw [add_of_lt (by omega), hone, Nat.add_sub_cancel_left]
    rfl

theorem activatePair_eq (field : ClockField) (make : Rank → σ) (pair : Pair σ) :
    activatePair field make pair = .ok (pair.activate field make).value := by
  have hfirst := activeCount_switchOn field make .primary pair
  unfold activatePair Pair.activate
  rw [switchOn_eq field make .primary (by decide) pair, Logged.value_bind]
  generalize (pair.switchOn field make .primary).value = first at hfirst ⊢
  have hcount : first.activeCount - pair.activeCount < maxSize := by
    rw [hfirst, Nat.add_sub_cancel_left]
    split <;> decide
  have hboth := activeCount_switchOn field make .secondary first
  show (if field.dual then
      switchOn field make .secondary (0 + (first.activeCount - pair.activeCount)) first
    else .ok (0 + (first.activeCount - pair.activeCount), first)) = _
  rw [Nat.zero_add, switchOn_eq field make .secondary hcount first]
  split
  case isFalse => rfl
  case isTrue =>
    -- the engines of both ranks are counted from what there was at first
    have hsum : first.activeCount - pair.activeCount +
        ((first.switchOn field make .secondary).value.activeCount - first.activeCount) =
          (first.switchOn field make .secondary).value.activeCount - pair.activeCount := by
      omega
    rw [hsum]
    rfl

theorem activate_eq (engines : Factory σ) (kind : ChipKind) (field : ClockField) (board : Board σ) :
    activate engines kind field board = .ok (board.activate engines kind field).value := by
  unfold activate Board.activate
  split
  case isTrue => rfl
  case isFalse =>
    rw [activatePair_eq]
    rfl

theorem activateAll_eq (engines : Factory σ) (fields : List (ChipKind × ClockField))
    (board : Board σ) :
    activateAll engines fields board = .ok (Deck.activateAll engines fields board).value := by
  induction fields generalizing board with
  | nil => rfl
  | cons entry fields ih =>
    rw [activateAll, activate_eq]
    exact ih _

/-- **The engines of every header can be started.** -/
theorem openDeck_eq (engines : Factory σ) (header : Header) :
    openDeck engines header = .ok (Deck.ofHeader engines header).value := by
  obtain ⟨hbanks, hdacPosition, hpending⟩ := Deck.ofHeader_rest engines header
  have hboard := Deck.board_ofHeader engines header
  unfold openDeck
  rw [activateAll_eq]
  generalize (Deck.ofHeader engines header).value = deck at *
  obtain ⟨board, banks, pendingFm, dacPosition⟩ := deck
  cases hboard
  cases hbanks
  cases hdacPosition
  cases hpending
  rfl

end Starting

/-! ## 3. Blocks and banks -/

/-- What the payload of a block holds. -/
def contents (block : DataBlock) : Reading BlockContents :=
  let payload := block.payload
  match block.category with
  | .stream => pure (.stream block.id payload)
  | .packed => do
    let packing ← readU8 payload 0
    let size ← readU32 payload 1
    pure (.packed block.id (.ofByte packing) size)
  | .rom => do
    let size ← readU32 payload 0
    let offset ← readU32 payload 4
    let rest ← sub payload.size 8
    let data ← slice payload 8 rest
    pure (.rom (.ofByte block.type) size offset data)
  | .ram => do
    let offset ← readU16 payload 0
    let rest ← sub payload.size 2
    let data ← slice payload 2 rest
    pure (.ram (.ofByte block.type) offset data)

/-- Put data behind what a bank holds. -/
def append (number : UInt8) (data : ByteArray) (banks : Banks) : Checked Banks :=
  if (banks.bank number).size + data.size ≤ maxSize then .ok (banks.append number data)
  else .error .memory

/-- Up to `length` bytes of a bank, and whether there are fewer than that. -/
def range? (banks : Banks) (number : UInt8) (start length : Nat) :
    Checked (Option (ByteArray × Bool)) :=
  let bytes := banks.bank number
  if bytes.size ≤ start then return none
  else do
    let available ← sub bytes.size start
    let stop ← add start (min length available)
    let part ← range bytes start stop
    return some (part, available < length)

/-- **A block of any size has its contents looked at**: what is left of it is measured behind the
numbers in front of it. -/
theorem contents_eq {block : DataBlock} (hsize : block.payload.size ≤ maxSize) :
    contents block = reached block.contents := by
  unfold contents DataBlock.contents
  dsimp only
  cases block.category with
  | stream => rfl
  | packed =>
    dsimp only
    rw [readU8_eq]
    refine reached_bind fun packing _ => ?_
    rw [readU32_eq hsize]
    exact reached_bind fun size _ => rfl
  | rom =>
    dsimp only
    rw [readU32_eq hsize]
    refine reached_bind fun size _ => ?_
    rw [readU32_eq hsize]
    refine reached_bind fun offset hoffset => ?_
    rw [lift_bind (sub_of_le (le_of_readNumber hoffset)), slice_eq hsize]
    exact reached_bind fun data _ => rfl
  | ram =>
    dsimp only
    rw [readU16_eq hsize]
    refine reached_bind fun offset hoffset => ?_
    rw [lift_bind (sub_of_le (le_of_readNumber hoffset)), slice_eq hsize]
    exact reached_bind fun data _ => rfl

/-- **Banks grow as long as there is memory.** -/
theorem append_within {banks : Banks} (hfits : banks.Fits) (number : UInt8) (data : ByteArray) :
    Within (banks.append number data).Fits (append number data banks)
      (banks.append number data) := by
  have hself : ((banks.append number data).bank number).size =
      (banks.bank number).size + data.size := by
    rw [Banks.bank_append_self, ByteArray.size_append]
  unfold append
  constructor
  · intro hafter
    exact if_pos (hself ▸ hafter number)
  · intro hnot
    refine if_neg fun hsize => hnot fun other => ?_
    by_cases hsame : Banks.index other = Banks.index number
    · have hbank : (banks.append number data).bank other = (banks.append number data).bank number := by
        simp only [Banks.bank, hsame]
      rw [hbank, hself]
      exact hsize
    · rw [Banks.bank_append_of_ne data banks hsame]
      exact hfits other

/-- **Any range can be asked for**: one that begins inside a bank is cut off at its end. -/
theorem range?_eq {banks : Banks} (hfits : banks.Fits) (number : UInt8) (start length : Nat) :
    range? banks number start length = .ok (banks.range? number start length) := by
  have hsize := hfits number
  unfold range? Banks.range?
  dsimp only
  generalize banks.bank number = bytes at hsize ⊢
  unfold maxSize at hsize
  by_cases hstart : start < bytes.size
  · have hstop : start + min length (bytes.size - start) ≤ bytes.size := by omega
    rw [if_pos hstart, if_neg (Nat.not_le.mpr hstart), sub_of_le (Nat.le_of_lt hstart)]
    show (do
      let stop ← add start (min length (bytes.size - start))
      let part ← range bytes start stop
      return some (part, decide (bytes.size - start < length))) = _
    rw [add_of_lt (by omega)]
    show (do
      let part ← range bytes start (start + min length (bytes.size - start))
      return some (part, decide (bytes.size - start < length))) = _
    rw [range_of_le (Nat.le_add_right _ _) hstop]
    rfl
  · rw [if_neg hstart, if_pos (Nat.le_of_not_lt hstart)]
    rfl

/-! ## 4. Commands -/

section Commands

variable {σ : Type} [ChipEngine σ]

/-- Write a register at one of the pairs of bus addresses. -/
def registerCalls (pair register value : UInt8) : Checked (List EngineCall) := do
  let base ← shiftUp 8 pair.toNat 1
  return [.bus (UInt8.ofNat base) register, .bus (UInt8.ofNat base ||| 1) value]

/-- A command for a chip decides the kind of the FM chip, if that is still open. -/
def decideFm (engines : Factory σ) (kind : ChipKind) (deck : Deck σ) : Checked (Deck σ) :=
  match deck.pendingFm with
  | some field =>
    if Deck.takesFmClock kind then do
      let (_, board) ← activate engines kind field deck.board
      return { deck with board, pendingFm := none }
    else return deck
  | none => return deck

/-- Write a register.  Only a write to the primary chip decides the kind of the FM chip. -/
def writeRegister (engines : Factory σ) (kind : ChipKind) (pair register value : UInt8)
    (deck : Deck σ) : (rank : Rank) → Checked (Deck σ)
  | .primary => do
    let deck ← decideFm engines kind deck
    let calls ← registerCalls pair register value
    return (deck.send ⟨kind, .primary⟩ calls).value
  | .secondary => do
    let calls ← registerCalls pair register value
    return (deck.send ⟨kind, .secondary⟩ calls).value

/-- Give the next converter byte to the YM2612. -/
def writeDac (engines : Factory σ) (deck : Deck σ) : Checked (Deck σ) := do
  let deck ← decideFm engines .ym2612 deck
  if deck.board.isActive .ym2612 then
    match deck.banks.byteAt? Deck.dacBank deck.dacPosition with
    | some byte =>
      let dacPosition ← add deck.dacPosition 1
      let calls ← registerCalls 0 Deck.dacRegister byte
      return { (deck.send ⟨.ym2612, .primary⟩ calls).value with dacPosition }
    | none => return deck
  else return deck

/-- Put the contents of a data block where they belong. -/
def loadContents (block : DataBlock) (contents : BlockContents) (deck : Deck σ) :
    Checked (Deck σ) :=
  match contents with
  | .stream bank data => do
    let banks ← append bank data deck.banks
    return { deck with banks }
  | _ => return (deck.loadContents block contents).value

/-- Take a data block.  One without contents is passed over. -/
def loadBlock (block : DataBlock) (deck : Deck σ) : Checked (Deck σ) := do
  match ← (contents block).run with
  | .ok contents => loadContents block contents deck
  | .error _ => return deck

/-- Copy part of a bank into the memory of a chip. -/
def copyRam (copy : RamCopy) (deck : Deck σ) : Checked (Deck σ) := do
  match ← range? deck.banks copy.bank copy.readOffset.toNat copy.length.toNat with
  | some (data, _) =>
    if copy.bank = Deck.rf5c68Bank then
      return (deck.send ⟨.rf5c68, .primary⟩ [.ram copy.writeOffset.toNat data]).value
    else return deck
  | none => return deck

/-- Carry out a command. -/
def execute (engines : Factory σ) (command : Command) (deck : Deck σ) : Checked (Deck σ) :=
  match command with
  | .registerWrite kind rank pair register value =>
    writeRegister engines kind pair register value deck rank
  | .dataBlock block => loadBlock block deck
  | .ramCopy copy => copyRam copy deck
  | .dacWrite _ => writeDac engines deck
  | command => return (deck.execute engines command).value

theorem registerCalls_eq (pair register value : UInt8) :
    registerCalls pair register value = .ok (EngineCall.register pair register value) := by
  have hbase : UInt8.ofNat (pair.toNat <<< 1 % 2 ^ 8) = pair * 2 := by
    rw [← UInt8.toNat_inj, UInt8.toNat_ofNat', UInt8.toNat_mul, Nat.shiftLeft_eq]
    simp
  unfold registerCalls
  rw [shiftUp, if_pos (by decide)]
  show Except.ok [EngineCall.bus (UInt8.ofNat _) register, .bus (UInt8.ofNat _ ||| 1) value] = _
  rw [hbase]
  rfl

theorem decideFm_eq (engines : Factory σ) (kind : ChipKind) (deck : Deck σ) :
    decideFm engines kind deck = .ok (deck.decideFm engines kind).value := by
  unfold decideFm Deck.decideFm
  cases deck.pendingFm with
  | none => rfl
  | some field =>
    dsimp only
    split
    case isTrue =>
      rw [activate_eq]
      rfl
    case isFalse => rfl

theorem writeRegister_eq (engines : Factory σ) (kind : ChipKind) (rank : Rank)
    (pair register value : UInt8) (deck : Deck σ) :
    writeRegister engines kind pair register value deck rank =
      .ok (deck.execute engines (.registerWrite kind rank pair register value)).value := by
  cases rank with
  | primary =>
    unfold writeRegister
    rw [decideFm_eq, registerCalls_eq]
    rfl
  | secondary =>
    unfold writeRegister
    rw [registerCalls_eq]
    rfl

/-- **A converter byte is never the last address.** -/
theorem writeDac_eq (engines : Factory σ) {deck : Deck σ} (hfits : deck.banks.Fits) :
    writeDac engines deck = .ok (deck.writeDac engines).value := by
  have hbanks : (deck.decideFm engines .ym2612).value.banks = deck.banks := by
    unfold Deck.decideFm
    split
    · split <;> rfl
    · rfl
  unfold writeDac Deck.writeDac
  rw [decideFm_eq, Logged.value_bind]
  rw [← hbanks] at hfits
  generalize (deck.decideFm engines .ym2612).value = deck at hfits ⊢
  show (if deck.board.isActive .ym2612 then _ else _) = Except.ok (Logged.value (if _ then _ else _))
  split
  case isFalse => rfl
  case isTrue =>
    cases hbyte : deck.banks.byteAt? Deck.dacBank deck.dacPosition with
    | none => rfl
    | some byte =>
      obtain ⟨hplace, -⟩ := getElem?_eq_some_iff.mp hbyte
      have hbank := hfits Deck.dacBank
      unfold maxSize at hbank
      dsimp only
      rw [add_of_lt (by omega), registerCalls_eq]
      rfl

theorem copyRam_eq {deck : Deck σ} (hfits : deck.banks.Fits) (copy : RamCopy) :
    copyRam copy deck = .ok (deck.copyRam copy).value := by
  unfold copyRam Deck.copyRam
  rw [range?_eq hfits]
  cases deck.banks.range? copy.bank copy.readOffset.toNat copy.length.toNat with
  | none => rfl
  | some found =>
    obtain ⟨data, clamped⟩ := found
    have hnotice : ∀ rest : Logged Site (Deck σ), (do
        if clamped then
          Logged.note (.copyClamped copy.length.toNat data.size copy.bank)
        rest).value = rest.value := by
      intro rest
      cases clamped <;> rfl
    dsimp only
    rw [hnotice]
    by_cases hbank : copy.bank = Deck.rf5c68Bank
    · rw [if_pos hbank]
      exact if_pos hbank
    · rw [if_neg hbank]
      exact if_neg hbank

/-- Contents of the other layouts go past the banks. -/
theorem banks_loadContents (deck : Deck σ) (block : DataBlock) {contents : BlockContents}
    (h : ∀ bank data, contents ≠ .stream bank data) :
    (deck.loadContents block contents).value.banks = deck.banks := by
  unfold Deck.loadContents
  cases contents with
  | stream bank data => exact absurd rfl (h bank data)
  | packed bank packing size => rfl
  | rom type size offset data => dsimp only; split <;> rfl
  | ram type offset data => dsimp only; split <;> rfl

theorem loadBlock_within {deck : Deck σ} (hfits : deck.banks.Fits) {block : DataBlock}
    (hsize : block.payload.size ≤ maxSize) :
    Within (deck.loadBlock block).value.banks.Fits (loadBlock block deck)
      (deck.loadBlock block).value := by
  unfold loadBlock Deck.loadBlock
  rw [contents_eq hsize]
  cases block.contents with
  | error fault => exact .of_eq hfits rfl
  | ok contents =>
    cases contents with
    | stream bank data =>
      exact (append_within hfits bank data).map fun banks => { deck with banks }
    | _ =>
      refine .of_eq ?_ rfl
      dsimp only
      rw [banks_loadContents]
      · exact hfits
      · exact fun _ _ h => nomatch h

/-- **Whatever a command does is reached**, as long as there is memory for the banks. -/
theorem execute_within (engines : Factory σ) {command : Command} {deck : Deck σ}
    (hfits : deck.banks.Fits)
    (hsize : ∀ block, command = .dataBlock block → block.payload.size ≤ maxSize) :
    Within (deck.execute engines command).value.banks.Fits (execute engines command deck)
      (deck.execute engines command).value := by
  have hstock : (deck.execute engines command).value.banks = command.stock deck.banks :=
    Deck.banks_execute engines command deck
  -- all but a data block leave the banks as they are
  cases command with
  | dataBlock block => exact loadBlock_within hfits (hsize block rfl)
  | registerWrite kind rank pair register value =>
    exact .of_eq (hstock ▸ hfits) (writeRegister_eq engines kind rank pair register value deck)
  | ramCopy copy => exact .of_eq (hstock ▸ hfits) (copyRam_eq hfits copy)
  | dacWrite frames => exact .of_eq (hstock ▸ hfits) (writeDac_eq engines hfits)
  | _ => exact .of_eq (hstock ▸ hfits) rfl

end Commands

end Machine

end ChipLog
