/-
# Commands for different chips commute

Two commands that stand next to each other in an image can trade places if they are for different
chips.  A session that carries them out ends in the same state either way: at the same position,
with the same flags and sample data, and with every engine in the same state.  This needs that the FM
chip is decided, since the first write to an FM chip would decide it otherwise.

Main statement: `Session.neighbours_commute`.  It also says what one such step does: it changes the
socket of the chip that the command is for, and the position, and nothing else
(`step_of_target?`); and a command that goes by changes the position alone (`step_of_goesBy`).
-/
import ChipLog.Proofs.Command.Grammar
import ChipLog.Proofs.Playback.Targets
import ChipLog.Proofs.Session.Turns

namespace ChipLog.Session

variable {σ : Type} [ChipEngine σ]

/-! ## 1. One step -/

/-- A session that goes on with its command stream. -/
structure Running {σ : Type} (session : Session σ) : Prop where
  terminated : session.playback.terminated = false
  ended : session.playback.ended = false

/-- The session a command later. -/
def moved {σ : Type} (session : Session σ) (deck : Deck σ) (length : Nat) : Session σ :=
  { session with
    playback := { session.playback with deck, position := session.playback.position + length } }

theorem moved_moved {σ : Type} (session : Session σ) (deck next : Deck σ) (length length' : Nat) :
    (session.moved deck length).moved next length' = session.moved next (length + length') := by
  simp only [moved, Nat.add_assoc]

variable {session : Session σ} {command : Command} {length : Nat}

omit [ChipEngine σ] in
theorem Running.moved (h : session.Running) (deck : Deck σ) (length : Nat) :
    (session.moved deck length).Running := ⟨h.terminated, h.ended⟩

/-- A running session carries out the command at its position and moves behind it. -/
theorem Running.perform_step (h : session.Running)
    (hparse : Command.parse session.image session.playback.position = .ok (command, length))
    (hlast : command ≠ .endOfData) :
    (session.perform .step).value =
        (.stepped (.ok (.wait command.duration)),
          session.moved (session.playback.deck.execute session.engines command).value length) ∧
      (session.perform .step).deeds =
        (session.playback.deck.execute session.engines command).deeds := by
  have hstep : session.playback.step session.engines session.image =
      (do
        let deck ← session.playback.deck.execute session.engines command
        pure (.ok (.wait command.duration),
          { session.playback with deck, position := session.playback.position + length })) := by
    unfold Playback.step
    rw [if_neg (Bool.not_eq_true _ ▸ h.terminated), if_neg (Bool.not_eq_true _ ▸ h.ended), hparse]
    cases command with
    | endOfData => exact absurd rfl hlast
    | _ => rfl
  unfold perform step
  rw [hstep]
  exact ⟨rfl, by simp⟩

/-- **A command for one chip changes the socket of that chip and the position.**  Nobody else is
told anything. -/
theorem Running.step_of_target? (h : session.Running)
    (hdecided : session.playback.deck.pendingFm = none) {site : Site}
    (hparse : Command.parse session.image session.playback.position = .ok (command, length))
    (htarget : command.target? = some site) :
    (session.perform .step).value =
        (.stepped (.ok (.wait 0)),
          session.moved
            { session.playback.deck with
              board := session.playback.deck.board.setSocket site
                ((session.socket site).send command.calls).value }
            length) ∧
      (session.perform .step).deeds =
        if session.isActive site then command.calls.map (.call site) else [] := by
  obtain ⟨hvalue, hdeeds⟩ := h.perform_step hparse (Command.ne_endOfData_of_target? htarget)
  obtain ⟨hdeck, hcalls⟩ := Deck.execute_of_target? session.engines htarget hdecided
  exact ⟨by rw [hvalue, hdeck, Command.duration_of_target? htarget]; rfl, hdeeds.trans hcalls⟩

/-- **A command that goes by changes the position alone.** -/
theorem Running.step_of_goesBy (h : session.Running)
    (hparse : Command.parse session.image session.playback.position = .ok (command, length))
    (hcommand : command.goesBy = true) :
    (session.perform .step).value =
        (.stepped (.ok (.wait command.duration)), session.moved session.playback.deck length) ∧
      (session.perform .step).deeds = [] := by
  have hlast : command ≠ .endOfData := by
    rintro rfl
    cases hcommand
  obtain ⟨hvalue, hdeeds⟩ := h.perform_step hparse hlast
  obtain ⟨hdeck, hnone⟩ := Deck.execute_of_goesBy session.engines session.playback.deck hcommand
  exact ⟨by rw [hvalue, hdeck], hdeeds.trans hnone⟩

/-! ## 2. Two steps -/

/-- Two rows that stand between others are read one after the other. -/
theorem parse_neighbours {first second : Command} (hfirst : first.WellFormed)
    (hsecond : second.WellFormed) (slack slack' : Command.Slack) (front behind : ByteArray) :
    Command.parse (front ++ first.encodeWith slack ++ second.encodeWith slack' ++ behind)
        front.size = .ok (first, (first.encodeWith slack).size) ∧
      Command.parse (front ++ first.encodeWith slack ++ second.encodeWith slack' ++ behind)
        (front.size + (first.encodeWith slack).size) =
          .ok (second, (second.encodeWith slack').size) := by
  constructor
  · rw [ByteArray.append_assoc]
    exact Command.parse_append hfirst slack front _
  · rw [← ByteArray.size_append]
    exact Command.parse_append hsecond slack' _ behind

/-- Two neighbouring commands for chips are carried out one after the other. -/
theorem Running.two_steps (h : session.Running) {first second : Command} {a b : Site}
    (hfirst : first.WellFormed) (hsecond : second.WellFormed) (ha : first.target? = some a)
    (hb : second.target? = some b) (slack slack' : Command.Slack) {front behind : ByteArray}
    (hposition : session.playback.position = front.size)
    (himage : session.image =
      front ++ first.encodeWith slack ++ second.encodeWith slack' ++ behind) :
    session.replies [.step, .step] = [.stepped (.ok (.wait 0)), .stepped (.ok (.wait 0))] ∧
      session.after [.step, .step] = session.moved
        ((session.playback.deck.execute session.engines first).value.execute
          session.engines second).value
        ((first.encodeWith slack).size + (second.encodeWith slack').size) := by
  obtain ⟨hparse, hparse'⟩ := parse_neighbours hfirst hsecond slack slack' front behind
  rw [← himage, ← hposition] at hparse hparse'
  have hstep := (h.perform_step hparse (Command.ne_endOfData_of_target? ha)).1
  have hstep' := ((h.moved (session.playback.deck.execute session.engines first).value _).perform_step
    hparse' (Command.ne_endOfData_of_target? hb)).1
  rw [Command.duration_of_target? ha] at hstep
  rw [Command.duration_of_target? hb] at hstep'
  rw [replies_cons, after_cons, hstep, replies_cons, after_cons, hstep', replies_nil, after_nil]
  exact ⟨rfl, moved_moved session _ _ _ _⟩

/-! ## 3. Trading places -/

/-- **Commands for different chips are isolated and commute.**  Take a session that goes on with its
command stream and whose FM chip is decided.  If two commands for different chips stand at its
position, two steps carry them out, and they do so as well if the two trade places in the image; but
for the image, the states behind them are the same.  A step with a command for one chip changes the
socket of that chip and the position, and tells nobody else anything.  A step with a wait or with a
command for the PWM, the YMF278B or the YMF271 changes the position alone. -/
theorem neighbours_commute (session : Session σ)
    (hterminated : session.playback.terminated = false) (hended : session.playback.ended = false)
    (hdecided : session.playback.deck.pendingFm = none) :
    (∀ (first second : Command) (a b : Site) (slack slack' : Command.Slack)
        (front behind : ByteArray),
      first.WellFormed → second.WellFormed → first.target? = some a → second.target? = some b →
      a ≠ b → session.playback.position = front.size →
      session.image = front ++ first.encodeWith slack ++ second.encodeWith slack' ++ behind →
      let image := front ++ second.encodeWith slack' ++ first.encodeWith slack ++ behind
      let swapped := { session with image }
      session.replies [.step, .step] = [.stepped (.ok (.wait 0)), .stepped (.ok (.wait 0))] ∧
        swapped.replies [.step, .step] = [.stepped (.ok (.wait 0)), .stepped (.ok (.wait 0))] ∧
        swapped.after [.step, .step] = { session.after [.step, .step] with image }) ∧
    (∀ (command : Command) (length : Nat) (site : Site),
      Command.parse session.image session.playback.position = .ok (command, length) →
      command.target? = some site →
      (session.perform .step).value =
          (.stepped (.ok (.wait 0)),
            session.moved
              { session.playback.deck with
                board := session.playback.deck.board.setSocket site
                  ((session.socket site).send command.calls).value }
              length) ∧
        (session.perform .step).deeds =
          if session.isActive site then command.calls.map (.call site) else []) ∧
    (∀ (command : Command) (length : Nat),
      Command.parse session.image session.playback.position = .ok (command, length) →
      command.goesBy = true →
      (session.perform .step).value =
          (.stepped (.ok (.wait command.duration)),
            session.moved session.playback.deck length) ∧
        (session.perform .step).deeds = []) := by
  have hrunning : session.Running := ⟨hterminated, hended⟩
  refine ⟨?_, fun command length site hparse htarget =>
    hrunning.step_of_target? hdecided hparse htarget,
    fun command length hparse hcommand => hrunning.step_of_goesBy hparse hcommand⟩
  intro first second a b slack slack' front behind hfirst hsecond ha hb hsites hposition himage
    image swapped
  have hrunning' : swapped.Running := ⟨hterminated, hended⟩
  obtain ⟨hreplies, hafter⟩ :=
    hrunning.two_steps hfirst hsecond ha hb slack slack' hposition himage
  have himage' : swapped.image =
      front ++ second.encodeWith slack' ++ first.encodeWith slack ++ behind := rfl
  obtain ⟨hreplies', hafter'⟩ :=
    hrunning'.two_steps hsecond hfirst hb ha slack' slack hposition himage'
  refine ⟨hreplies, hreplies', ?_⟩
  rw [hafter', hafter, Deck.execute_comm session.engines ha hb hsites hdecided, Nat.add_comm]
  rfl

/-- A byte for the first PSG and a byte for the second one can trade places. -/
theorem neighbours_commute_sampleLog : ∃ session,
    (load Bundled.factory (sampleLog [0x50, 0x9F, 0x30, 0x8E, 0x66])).value = .ok session ∧
    let swapped := { session with image := sampleLog [0x30, 0x8E, 0x50, 0x9F, 0x66] }
    session.replies [.step, .step] = [.stepped (.ok (.wait 0)), .stepped (.ok (.wait 0))] ∧
      swapped.after [.step, .step] =
        { session.after [.step, .step] with image := swapped.image } := by
  obtain ⟨header, hparse, hstart, hload⟩ := @load_sampleLog [0x50, 0x9F, 0x30, 0x8E, 0x66] rfl
  have hawaits : (Header.parse (sampleLog [0x50, 0x9F, 0x30, 0x8E, 0x66])).map Header.awaitsFm =
      .ok false := rfl
  rw [hparse] at hawaits
  have hdecided : (opened Bundled.factory (sampleLog [0x50, 0x9F, 0x30, 0x8E, 0x66])
      header).playback.deck.pendingFm = none := by
    refine (Deck.ofHeader_rest Bundled.factory header).2.2.trans ?_
    rw [Except.ok.inj hawaits, if_neg Bool.false_ne_true]
  let first := Command.psgWrite .primary 0x9F
  let second := Command.psgWrite .secondary 0x8E
  have himage : sampleLog [0x50, 0x9F, 0x30, 0x8E, 0x66] =
      sampleLog [] ++ first.encodeWith {} ++ second.encodeWith {} ++ [0x66].toByteArray := by decide
  have hswapped : sampleLog [0x30, 0x8E, 0x50, 0x9F, 0x66] =
      sampleLog [] ++ second.encodeWith {} ++ first.encodeWith {} ++ [0x66].toByteArray := by decide
  obtain ⟨hreplies, -, hafter⟩ := (neighbours_commute _ rfl rfl hdecided).1 first second
    ⟨.sn76489, .primary⟩ ⟨.sn76489, .secondary⟩ {} {} (sampleLog []) [0x66].toByteArray trivial
    trivial rfl rfl (by decide) hstart himage
  rw [hswapped]
  exact ⟨_, hload, hreplies, hafter⟩

end ChipLog.Session
