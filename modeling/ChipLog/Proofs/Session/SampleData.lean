/-
# Banks hold what the stream has brought

A log brings its sample data in data blocks, and the type of such a block is the number of the bank
that the data is for.  This module says what there is in the banks of a session at any time: of the
blocks that were carried out, those for a bank, one behind the other (`Session.banks_hold_the_blocks`).
A block that is carried out once more, after a seek back, is there once more.

Blocks of other types bring something else, or data that is packed, and stay out of the banks
(`DataBlock.stock_eq`).  What is left are the commands that bring no block, and all that a session does
between commands; neither has anything to do with the banks (`Session.banks_perform`).
-/
import ChipLog.Proofs.Command.Grammar
import ChipLog.Proofs.Header.Fields
import ChipLog.Proofs.Playback.Rounds
import ChipLog.Proofs.Session.Turns

namespace ChipLog

/-! ## 1. Blocks of sample data -/

/-- The layout that contents come in. -/
def BlockContents.category : BlockContents → BlockCategory
  | stream .. => .stream
  | packed .. => .packed
  | rom .. => .rom
  | ram .. => .ram

namespace DataBlock

/-- A block lies in an image: the opcode, a byte that does not count, the type, the size with the
rank in its top bit, and the payload. -/
def LiesAt (block : DataBlock) (image : ByteArray) (pos : Nat) : Prop :=
  block.size.toNat = block.payload.size ∧ block.payload.size < 2 ^ 31 ∧
    ∃ reserved, Bytes.StandsAt image pos
      ([0x67, reserved, block.type].toByteArray ++
        (Bytes.numeral 4 (block.payload.size + block.rank.bit (2 ^ 31)) ++ block.payload))

/-- **A block is read exactly where it lies.** -/
theorem parse_eq_ok_iff {image : ByteArray} {pos length : Nat} {block : DataBlock} :
    Command.parse image pos = .ok (.dataBlock block, length) ↔
      block.LiesAt image pos ∧ length = 7 + block.payload.size := by
  -- the row of the grammar has its opcode apart from the two bytes behind it
  have hrow : block.size.toNat = block.payload.size → ∀ slack : Command.Slack,
      (Command.dataBlock block).encodeWith slack =
        [0x67, slack.reserved, block.type].toByteArray ++
          (Bytes.numeral 4 (block.payload.size + block.rank.bit (2 ^ 31)) ++ block.payload) := by
    intro hsize slack
    rw [Bytes.toByteArray_cons, ByteArray.append_assoc, ← hsize]
    rfl
  have hlength : ∀ reserved, ([0x67, reserved, block.type].toByteArray ++
      (Bytes.numeral 4 (block.payload.size + block.rank.bit (2 ^ 31)) ++ block.payload)).size =
        7 + block.payload.size := by
    intro reserved
    rw [ByteArray.size_append, ByteArray.size_append, List.size_toByteArray, Bytes.size_numeral,
      ← Nat.add_assoc]
    rfl
  rw [Command.parse_eq_ok_iff]
  constructor
  · rintro ⟨⟨hsize, hlt⟩, slack, hstands, rfl⟩
    rw [hrow hsize] at hstands ⊢
    exact ⟨⟨hsize, hsize ▸ hlt, slack.reserved, hstands⟩, hlength slack.reserved⟩
  · rintro ⟨⟨hsize, hlt, reserved, hstands⟩, rfl⟩
    refine ⟨⟨hsize, hsize.symm ▸ hlt⟩, { reserved }, ?_, ?_⟩
    · rwa [hrow hsize]
    · rw [hrow hsize, hlength]

/-- Types below 64, and no others, are those of sample data that is not packed. -/
theorem category_eq_stream_iff (block : DataBlock) :
    block.category = .stream ↔ block.type < 64 := by
  have htype : block.type < 64 ↔ block.type.toNat < 64 := UInt8.lt_iff_toNat_lt
  rw [htype, category]
  split
  case h_1 h => exact iff_of_true rfl (by omega)
  case h_2 h => exact iff_of_false (fun h => nomatch h) (by omega)
  case h_3 h => exact iff_of_false (fun h => nomatch h) (by omega)
  case h_4 h _ _ => exact iff_of_false (fun h => nomatch h) fun hlt => h (Nat.div_eq_of_lt hlt)

/-- Contents are laid out as the category of their block says. -/
theorem category_of_contents {block : DataBlock} {contents : BlockContents}
    (h : block.contents = .ok contents) : block.category = contents.category := by
  unfold DataBlock.contents at h
  cases hcategory : block.category with
  | stream =>
    rw [hcategory] at h
    cases h
    rfl
  | packed =>
    rw [hcategory] at h
    obtain ⟨packing, -, h⟩ := Fault.eq_ok_of_bind h
    obtain ⟨size, -, h⟩ := Fault.eq_ok_of_bind h
    cases h
    rfl
  | rom =>
    rw [hcategory] at h
    obtain ⟨size, -, h⟩ := Fault.eq_ok_of_bind h
    obtain ⟨offset, -, h⟩ := Fault.eq_ok_of_bind h
    obtain ⟨data, -, h⟩ := Fault.eq_ok_of_bind h
    cases h
    rfl
  | ram =>
    rw [hcategory] at h
    obtain ⟨offset, -, h⟩ := Fault.eq_ok_of_bind h
    obtain ⟨data, -, h⟩ := Fault.eq_ok_of_bind h
    cases h
    rfl

/-- A block goes into the bank that its type is the number of, if there is one. -/
theorem stock_eq (block : DataBlock) (banks : Banks) :
    block.stock banks =
      if block.type < 64 then banks.append block.type block.payload else banks := by
  by_cases htype : block.type < 64
  · have hid : block.id = block.type := by
      rw [id, ← UInt8.toNat_inj, UInt8.toNat_mod]
      exact Nat.mod_eq_of_lt (UInt8.lt_iff_toNat_lt.mp htype)
    rw [if_pos htype, stock, contents, block.category_eq_stream_iff.mpr htype, hid]
    rfl
  · rw [if_neg htype, stock]
    cases hcontents : block.contents with
    | error fault => rfl
    | ok contents =>
      have hcategory := category_of_contents hcontents
      cases contents with
      | stream bank data => exact absurd (block.category_eq_stream_iff.mp hcategory) htype
      | _ => rfl

end DataBlock

/-! ## 2. What commands bring -/

namespace Command

/-- The sample data that a command brings for a bank. -/
def sampleData? (bank : UInt8) : Command → Option ByteArray
  | dataBlock block => if block.type = bank then some block.payload else none
  | _ => none

/-- The sample data that some commands bring for a bank, one behind the other. -/
def sampleData (bank : UInt8) (commands : List Command) : ByteArray :=
  Bytes.joined (commands.filterMap (sampleData? bank))

theorem bank_stock (command : Command) (banks : Banks) {bank : UInt8} (hbank : bank < 64) :
    (command.stock banks).bank bank =
      banks.bank bank ++ (command.sampleData? bank).getD .empty := by
  cases command with
  | dataBlock block =>
    rw [stock, DataBlock.stock_eq, sampleData?]
    by_cases htype : block.type < 64
    · rw [if_pos htype, Banks.bank_append htype hbank]
      by_cases hsame : block.type = bank
      · rw [if_pos hsame.symm, if_pos hsame]
        rfl
      · rw [if_neg (Ne.symm hsame), if_neg hsame]
        exact ByteArray.append_empty.symm
    · have hother : block.type ≠ bank := fun hsame => htype (hsame ▸ hbank)
      rw [if_neg htype, if_neg hother]
      exact ByteArray.append_empty.symm
  | _ => exact ByteArray.append_empty.symm

/-- **After some commands a bank holds what it held before, and behind it what they have brought.** -/
theorem bank_stockAll (commands : List Command) (banks : Banks) {bank : UInt8}
    (hbank : bank < 64) :
    (stockAll commands banks).bank bank = banks.bank bank ++ sampleData bank commands := by
  induction commands generalizing banks with
  | nil => exact ByteArray.append_empty.symm
  | cons command commands ih =>
    have hstep : stockAll (command :: commands) banks = stockAll commands (command.stock banks) := rfl
    rw [hstep, ih, bank_stock command banks hbank, sampleData, sampleData, List.filterMap_cons]
    cases command.sampleData? bank with
    | none => rw [Option.getD_none, ByteArray.append_empty]
    | some data => rw [Option.getD_some, Bytes.joined_cons, ByteArray.append_assoc]

/-- Only a block of sample data changes the banks. -/
theorem block_of_stock_ne {command : Command} {banks : Banks} (h : command.stock banks ≠ banks) :
    ∃ block, command = dataBlock block ∧ block.type < 64 := by
  cases command with
  | dataBlock block =>
    rw [stock, DataBlock.stock_eq] at h
    by_cases htype : block.type < 64
    · exact ⟨block, rfl, htype⟩
    · exact absurd (if_neg htype) h
  | _ => exact absurd rfl h

end Command

/-! ## 3. Sessions -/

namespace Session

variable {σ : Type} [ChipEngine σ] {engines : Factory σ} {image : ByteArray} {session : Session σ}

/-- The sample data that a session has at hand. -/
def banks {σ : Type} (session : Session σ) : Banks := session.playback.deck.banks

/-- A script brings the sample data of the commands that it carries out. -/
theorem banks_after (calls : List Call) (session : Session σ) :
    (session.after calls).banks =
      Command.stockAll (session.timeline.commands session.image (calls.filterMap Call.move?))
        session.banks := by
  rw [← commands_turns]
  exact (chain_after calls session).banks_eq

/-- **Nothing but a block of sample data that is carried out changes the banks.** -/
theorem banks_perform {call : Call}
    (h : (session.perform call).value.2.banks ≠ session.banks) :
    call = .step ∧ (session.perform call).value.1 = .stepped (.ok (.wait 0)) ∧
      ∃ block, session.timeline.command? session.image = some (.dataBlock block) ∧
        block.type < 64 := by
  cases hturn : session.turn? call with
  | none => exact absurd (perform_of_turn?_eq_none hturn).1.banks h
  | some turn =>
    obtain ⟨hfound, hdeck, -⟩ := perform_of_turn? hturn
    have hbanks : (session.perform call).value.2.banks = turn.command.stock session.banks := by
      rw [banks, hdeck, Turn.result, Deck.banks_execute, hfound]
      rfl
    rw [hbanks] at h
    obtain ⟨block, hblock, htype⟩ := Command.block_of_stock_ne h
    cases call with
    | step =>
      obtain ⟨command, hcommand, rfl⟩ := Option.map_eq_some_iff.mp hturn
      have hblock : command = .dataBlock block := hblock
      rw [hblock] at hcommand
      refine ⟨rfl, ?_, block, hcommand, htype⟩
      obtain ⟨hterminated, hended, length, hparse⟩ := Timeline.command?_eq_some_iff.mp hcommand
      have hlast : Command.dataBlock block ≠ .endOfData := fun h => by cases h
      have hstep : (session.timeline.step session.image).1 = .ok (.wait 0) := by
        rw [Timeline.eq_of_running hterminated hended, Timeline.step_of_command hparse hlast]
        rfl
      have hresult := congrArg Prod.fst
        (timeline_step session.engines session.image session.playback)
      exact congrArg Reply.stepped (hresult.trans hstep)
    | _ => cases hturn

/-- **Banks hold what the stream has brought.**  A block is read exactly where it lies, and it is one
of sample data if its type is the number of a bank.  After any script, a bank holds the payloads of
the blocks for it that were carried out, each as often as it was carried out, in this order.  No
call but a step that carries out such a block changes the banks.  So whatever goes on, banks only
grow, and what could once be read from one can be read from it for good. -/
theorem banks_hold_the_blocks (h : (load engines image).value = .ok session) :
    (∀ pos length block, Command.parse image pos = .ok (.dataBlock block, length) ↔
      block.LiesAt image pos ∧ length = 7 + block.payload.size) ∧
    (∀ block : DataBlock, block.category = .stream ↔ block.type < 64) ∧
    (∀ calls, ∀ bank < 64, (session.after calls).banks.bank bank =
      Command.sampleData bank (Timeline.commands image (calls.filterMap Call.move?)
        ⟨session.header.dataStart, false, false⟩)) ∧
    (∀ calls call,
      ((session.after calls).perform call).value.2.banks ≠ (session.after calls).banks →
        call = .step ∧
          ((session.after calls).perform call).value.1 = .stepped (.ok (.wait 0)) ∧
          ∃ block, (session.after calls).timeline.command? image = some (.dataBlock block) ∧
            block.type < 64) ∧
    ∀ calls more,
      (session.after calls).banks.Grows (session.after (calls ++ more)).banks ∧
      (∀ bank position byte, (session.after calls).banks.byteAt? bank position = some byte →
        (session.after (calls ++ more)).banks.byteAt? bank position = some byte) ∧
      ∀ bank start length data,
        (session.after calls).banks.range? bank start length = some (data, false) →
          (session.after (calls ++ more)).banks.range? bank start length = some (data, false) := by
  obtain ⟨header, -, hheader, himage, -, hline, hdeck, -⟩ := load_deck h
  have hempty : session.banks = .empty := by
    rw [banks, hdeck]
    exact (Deck.ofHeader_rest engines header).1
  refine ⟨fun _ _ _ => DataBlock.parse_eq_ok_iff, DataBlock.category_eq_stream_iff,
    fun calls bank hbank => ?_, fun calls call hchange => ?_, fun calls more => ?_⟩
  · rw [banks_after, Command.bank_stockAll _ _ hbank, hempty, Banks.bank_empty,
      ByteArray.empty_append, hline, himage, hheader]
  · have hcall := banks_perform hchange
    rwa [image_after, himage] at hcall
  · have hgrows : (session.after calls).banks.Grows (session.after (calls ++ more)).banks := by
      rw [after_append, banks_after more]
      exact Command.grows_stockAll _ _
    exact ⟨hgrows, fun _ _ _ => hgrows.byteAt?, fun _ _ _ _ => hgrows.range?⟩

/-- A bank of two bytes; then the player goes back to the block, which is carried out once more. -/
theorem banks_hold_the_blocks_converterLog : ∃ session,
    (load Bundled.factory converterLog).value = .ok session ∧
      (session.after [.step, .step, .tick, .seek 67, .step]).banks.bank 0 =
        [0x7F, 0x81, 0x7F, 0x81].toByteArray := by
  obtain ⟨header, -, hstart, hload⟩ := @load_of_dataStart converterLog 64 rfl
  refine ⟨_, hload, ?_⟩
  have hbank := (banks_hold_the_blocks hload).2.2.1
    [.step, .step, .tick, .seek 67, .step] 0 (by decide)
  rw [hbank, show (opened Bundled.factory converterLog header).header.dataStart = 64 from hstart]
  decide +kernel

end Session

end ChipLog
