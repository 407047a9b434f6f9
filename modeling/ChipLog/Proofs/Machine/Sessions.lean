/-
# Sessions on the machine

A session on the machine is opened and used as it is everywhere else, with the same requests and the
same answers, but step by step with operations that can panic.  None of them ever does
(`never_panics`): whatever image is loaded, whatever the engines answer, and whatever is asked of the
session, the machine comes to the answer that the definitions of this library give.

What carries a run is that every session is `Ready`: its image has a size, its engines have rates of 32
bits, and its banks are in memory.  The last of these can fail.  A log that is sent back to its blocks
again and again asks for more memory than there is, and then the machine stops (`Halt.memory`); it does
not go on with a wrong sum.

The position of a session is not part of this.  It may be anywhere after a seek, and it is the reads at
that position that find out.
-/
import ChipLog.Proofs.Machine.Boards
import ChipLog.Proofs.Machine.Commands
import ChipLog.Proofs.Machine.Decks
import ChipLog.Proofs.Machine.Headers
import ChipLog.Proofs.Machine.Psg
import ChipLog.Proofs.Session.SampleData

namespace ChipLog.Machine

variable {σ : Type} [ChipEngine σ]

/-! ## 1. Steps -/

/-- The frames to be played before the next command. -/
def duration (command : Command) : Checked Nat :=
  match command with
  | .waitShort n => addWords 32 n.toNat 1
  | command => return command.duration

/-- Carry out a command that takes `length` bytes. -/
def carryOut (engines : Factory σ) (command : Command) (length : Nat) (playback : Playback σ) :
    Checked (Except Fault Step × Playback σ) := do
  let position ← add playback.position length
  let frames ← duration command
  match command with
  | .endOfData =>
    -- where the stream has ended is reported
    let _ ← sub position length
    return (.ok .endOfStream, { playback with position, ended := true })
  | command =>
    let deck ← execute engines command playback.deck
    return (.ok (.wait frames), { playback with deck, position })

/-- Take the next command. -/
def step (engines : Factory σ) (image : ByteArray) (playback : Playback σ) :
    Checked (Except Fault Step × Playback σ) :=
  if playback.terminated then return (.error .terminated, playback)
  else if playback.ended then return (.ok .endOfStream, playback)
  else do
    match ← (parse image playback.position).run with
    | .error fault => return (.error fault, { playback with terminated := true })
    | .ok (command, length) => carryOut engines command length playback

theorem duration_eq (command : Command) : duration command = .ok command.duration := by
  cases command with
  | waitShort n =>
    have hn := n.toNat_lt
    exact addWords_of_lt (by omega)
  | _ => rfl

/-- **A command that was read can be carried out**: it ends inside the image. -/
theorem carryOut_within {engines : Factory σ} {image : ByteArray} {playback : Playback σ}
    {command : Command} {length : Nat} (himage : image.size ≤ maxSize)
    (hfits : playback.deck.banks.Fits)
    (hparse : Command.parse image playback.position = .ok (command, length))
    (hrunning : ¬ playback.terminated = true) (hgoing : ¬ playback.ended = true) :
    Within (playback.step engines image).value.2.deck.banks.Fits
      (carryOut engines command length playback) (playback.step engines image).value := by
  have hend := (Command.parse_bounds hparse).2
  have hsize : ∀ block, command = .dataBlock block → block.payload.size ≤ maxSize := by
    rintro block rfl
    obtain ⟨-, hlength⟩ := DataBlock.parse_eq_ok_iff.mp hparse
    omega
  have hmove : add playback.position length = .ok (playback.position + length) := by
    unfold maxSize at himage
    exact add_of_lt (by omega)
  have hdeck := execute_within engines hfits hsize
  unfold carryOut Playback.step
  rw [hmove, duration_eq, if_neg hrunning, if_neg hgoing, hparse]
  cases command with
  | endOfData =>
    refine .of_eq hfits ?_
    show (do
      let _ ← sub (playback.position + length) length
      return (Except.ok Step.endOfStream,
        { playback with position := playback.position + length, ended := true })) = _
    rw [sub_of_le (Nat.le_add_left _ _)]
    rfl
  | _ =>
    exact hdeck.map fun deck =>
      (Except.ok _, { playback with deck, position := playback.position + length })

/-- **A step can be taken wherever the session stands.** -/
theorem step_within {engines : Factory σ} {image : ByteArray} {playback : Playback σ}
    (himage : image.size ≤ maxSize) (hfits : playback.deck.banks.Fits) :
    Within (playback.step engines image).value.2.deck.banks.Fits (step engines image playback)
      (playback.step engines image).value := by
  by_cases hterminated : playback.terminated = true
  · rw [step, if_pos hterminated, Playback.step, if_pos hterminated]
    exact .of_eq hfits rfl
  by_cases hended : playback.ended = true
  · rw [step, if_neg hterminated, if_pos hended, Playback.step, if_neg hterminated, if_pos hended]
    exact .of_eq hfits rfl
  rw [step, if_neg hterminated, if_neg hended, parse_eq himage, reached_run_bind]
  cases hparse : Command.parse image playback.position with
  | error fault =>
    rw [Playback.step, if_neg hterminated, if_neg hended, hparse]
    exact .of_eq hfits rfl
  | ok found => exact carryOut_within himage hfits hparse hterminated hended

/-! ## 2. Calls -/

/-- The tag, read when it is first asked for. -/
def tag (session : Session σ) : Checked (Except Fault (Option Tag) × Session σ) :=
  match session.cache.answer with
  | some answer => return (.ok answer, session)
  | none => do
    match ← (findTag session.image session.header.tagOffset).run with
    | .ok finding => return (.ok finding.tag?, { session with cache := ⟨some finding.tag?⟩ })
    | .error fault => return (.error fault, session)

/-- A session whose engines have gone on. -/
def goneOn (session : Session σ) (board : Board σ) : Session σ :=
  { session with
    playback := { session.playback with deck := { session.playback.deck with board } } }

/-- Do what a call asks for. -/
def perform (call : Call) (session : Session σ) : Checked (Reply × Session σ) :=
  match call with
  | .step => do
    let (result, playback) ← step session.engines session.image session.playback
    return (.stepped result, { session with playback })
  | .seek position => return (.done, session.seek position)
  | .tick => do
    let (frame, board) ← tick session.playback.deck.board
    return (.frames #[frame], goneOn session board)
  | .render count => do
    let (frames, board) ← render #[] session.playback.deck.board count
    return (.frames frames, goneOn session board)
  | .setAudible site audible => return (.done, session.setAudible site audible)
  | .tag => do
    let (answer, session) ← tag session
    return (.tag answer, session)

/-- Do what a script asks for, call by call. -/
def performAll : List Call → Session σ → Checked (List Reply × Session σ)
  | [], session => return ([], session)
  | call :: calls, session => do
    let (reply, session) ← perform call session
    let (replies, session) ← performAll calls session
    return (reply :: replies, session)

/-- What a session needs to be used on the machine. -/
structure Ready (session : Session σ) : Prop where
  image : session.image.size ≤ maxSize
  board : session.playback.deck.board.Paced
  banks : session.banks.Fits

omit [ChipEngine σ] in
theorem tag_eq {session : Session σ} (himage : session.image.size ≤ maxSize) :
    tag session = .ok session.tag.value := by
  unfold tag Session.tag TagCache.get Tag.lookUp
  cases hanswer : session.cache.answer with
  | some answer => rfl
  | none =>
    rw [findTag_eq himage, reached_run_bind]
    cases Tag.find session.image session.header.tagOffset with
    | error fault => rfl
    | ok finding => rfl

/-- **A session that is ready does what it is asked to do**, as long as there is memory. -/
theorem perform_within {session : Session σ} (h : Ready session) (call : Call) :
    Within (session.perform call).value.2.banks.Fits (perform call session)
      (session.perform call).value := by
  cases call with
  | step =>
    exact (step_within h.image h.banks).map fun (found : Except Fault Step × Playback σ) =>
      (Reply.stepped found.1, { session with playback := found.2 })
  | seek position => exact .of_eq h.banks rfl
  | tick =>
    refine .of_eq h.banks ?_
    unfold perform
    rw [tick_eq h.board]
    rfl
  | render count =>
    refine .of_eq h.banks ?_
    show (do
      let (frames, board) ← render #[] session.playback.deck.board count
      return (Reply.frames frames, goneOn session board)) = _
    rw [render_eq #[] h.board count]
    rfl
  | setAudible site audible => exact .of_eq h.banks rfl
  | tag =>
    refine .of_eq h.banks ?_
    unfold perform
    rw [tag_eq h.image]
    rfl

/-- A session stays ready, as long as there is memory. -/
theorem Ready.perform {session : Session σ} (h : Ready session) {call : Call}
    (hfits : (session.perform call).value.2.banks.Fits) :
    Ready (session.perform call).value.2 where
  image := by rw [Session.image_perform]; exact h.image
  board := (Session.hears_perform call session).paced h.board
  banks := hfits

/-- **Whatever a script asks for**, a session that is ready does it. -/
theorem performAll_within {session : Session σ} (h : Ready session) (calls : List Call) :
    Within (session.after calls).banks.Fits (performAll calls session)
      (session.performAll calls).value := by
  induction calls generalizing session with
  | nil => exact .of_eq h.banks rfl
  | cons call calls ih =>
    have hgrows : (session.perform call).value.2.banks.Grows
        (session.after (call :: calls)).banks := by
      rw [Session.after_cons, Session.banks_after]
      exact Command.grows_stockAll _ _
    refine (perform_within h call).bind hgrows.fits fun hfits => ?_
    exact (ih (h.perform hfits)).map fun (found : List Reply × Session σ) =>
      ((session.perform call).value.1 :: found.1, found.2)

/-! ## 3. Opening -/

/-- Open an image. -/
def load (engines : Factory σ) (image : ByteArray) : Checked (Except Fault (Session σ)) := do
  match ← (parseHeader image).run with
  | .ok header =>
    let deck ← openDeck engines header
    return .ok { image, header, engines, playback := { deck, position := header.dataStart } }
  | .error fault => return .error fault

/-- **Every image can be opened**, or is refused. -/
theorem load_eq (engines : Factory σ) {image : ByteArray} (himage : image.size ≤ maxSize) :
    load engines image = .ok (Session.load engines image).value := by
  unfold load Session.load Header.read
  rw [parseHeader_eq himage, reached_run_bind]
  cases Header.parse image with
  | error fault => rfl
  | ok header =>
    dsimp only
    rw [openDeck_eq]
    rfl

/-- A session that has been opened is ready. -/
theorem ready_of_load {engines : Factory σ} {image : ByteArray} {session : Session σ}
    (himage : image.size ≤ maxSize) (h : (Session.load engines image).value = .ok session) :
    Ready session := by
  obtain ⟨header, -, -, hsame, -, -, hdeck, -⟩ := Session.load_deck h
  refine ⟨hsame ▸ himage, ?_, ?_⟩
  · exact (Session.hears_history h []).paced Board.paced_empty
  · rw [Session.banks, hdeck, (Deck.ofHeader_rest engines header).1]
    exact Banks.fits_empty

/-- **No input makes the machine panic.**  At any position and for any length, in the image or not, a
cursor reads what a scan reads, a command and a tag are read or are refused with the same fault, and so
are the contents of a block and a range of a bank.  Every image is opened or refused.  After that, a
session that is asked for steps, seeks, frames, mutes and tags in any order gives the answers that it
should, with no cast of a frame losing anything; unless the blocks that it carries out bring more data
than fits into memory, and then it stops for want of that.  And whatever is done to the engine that
comes with the player, it does it.

Nothing is assumed of the other engines but that their operations return, which they do as
functions; rates and samples are whatever they please. -/
theorem never_panics (engines : Factory σ) {image : ByteArray} (himage : image.size ≤ maxSize) :
    (∀ pos, Cursor.u8 image pos = reached (Scan.u8.on image pos) ∧
      Cursor.u16 image pos = reached (Scan.u16.on image pos) ∧
      Cursor.u24 image pos = reached (Scan.u24.on image pos) ∧
      Cursor.u32 image pos = reached (Scan.u32.on image pos) ∧
      ∀ length, Cursor.slice length image pos = reached ((Scan.slice length).on image pos) ∧
        Cursor.skip length image pos = reached ((Scan.skip length).on image pos)) ∧
    (∀ pos, parse image pos = reached (Command.parse image pos)) ∧
    (∀ offset, findTag image offset = reached (Tag.find image offset)) ∧
    (∀ block : DataBlock, block.payload.size ≤ maxSize → contents block = reached block.contents) ∧
    (∀ banks : Banks, banks.Fits → ∀ number start length,
      range? banks number start length = .ok (banks.range? number start length)) ∧
    load engines image = .ok (Session.load engines image).value ∧
    (∀ session, (Session.load engines image).value = .ok session → ∀ calls,
      ((session.after calls).banks.Fits →
        performAll calls session = .ok (session.performAll calls).value) ∧
      (¬ (session.after calls).banks.Fits → performAll calls session = .error .memory)) ∧
    ∀ events, happenAll events Psg.new = .ok (EngineEvent.applyAll events Psg.new) := by
  refine ⟨Cursor.reads_eq himage, parse_eq himage, findTag_eq himage,
    fun block hsize => contents_eq hsize,
    fun banks hfits number start length => range?_eq hfits number start length,
    load_eq engines himage, fun session hload calls => ?_, happenAll_eq sound_new⟩
  have hscript := performAll_within (ready_of_load himage hload) calls
  exact ⟨hscript.reached, hscript.refused⟩

/-- A bank of two bytes, a frame, a step at the last address, and a look for the tag. -/
theorem never_panics_converterLog : ∃ session,
    load Bundled.factory Session.converterLog = .ok (.ok session) ∧
      performAll [.step, .step, .tick, .seek (2 ^ 64 - 1), .step, .tag] session =
        .ok (session.performAll [.step, .step, .tick, .seek (2 ^ 64 - 1), .step, .tag]).value ∧
      (session.after [.step, .step, .tick, .seek (2 ^ 64 - 1), .step, .tag]).banks.bank 0 =
        [0x7F, 0x81].toByteArray := by
  have hsizes : ∀ place : Fin 64, (Command.stockAll
      (Timeline.commands Session.converterLog [.step, .step, .seek (2 ^ 64 - 1), .step]
        ⟨64, false, false⟩) .empty).banks[place].size ≤ maxSize := by decide +kernel
  have hbank : (Command.stockAll
      (Timeline.commands Session.converterLog [.step, .step, .seek (2 ^ 64 - 1), .step]
        ⟨64, false, false⟩) .empty).bank 0 = [0x7F, 0x81].toByteArray := by decide +kernel
  obtain ⟨header, -, hstart, hload⟩ := @Session.load_of_dataStart Session.converterLog 64 rfl
  obtain ⟨-, -, -, -, -, hopened, hscript, -⟩ :=
    never_panics Bundled.factory (show Session.converterLog.size ≤ maxSize by decide +kernel)
  rw [hload] at hopened
  have hbanks := Session.banks_after [.step, .step, .tick, .seek (2 ^ 64 - 1), .step, .tag]
    (Session.opened Bundled.factory Session.converterLog header)
  have hline : (Session.opened Bundled.factory Session.converterLog header).timeline =
      ⟨64, false, false⟩ := congrArg (Timeline.mk · false false) hstart
  have hempty : (Session.opened Bundled.factory Session.converterLog header).banks = .empty :=
    (Deck.ofHeader_rest Bundled.factory header).1
  rw [hline, hempty] at hbanks
  refine ⟨_, hopened, (hscript _ hload _).1 fun number => ?_, ?_⟩
  · rw [hbanks]
    exact hsizes (Banks.index number)
  · rw [hbanks]
    exact hbank

end ChipLog.Machine
