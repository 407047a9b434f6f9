/-
# Faults that end a session

A fault in the command stream ends a session for good.  Two things make that safe, and both are
settled here for any state of a session, hence for any state that a script leads to.

* The step that meets the fault leaves everything as it was.  Only a flag is raised
  (`Session.stopped`), and no engine hears of it: what is reported is a notice
  (`step_eq_of_fault`).  That holds also for a command that is cut short behind some of its
  operands, since a command is read as a whole before any part of it is carried out.
* The flag is a latch.  No script lowers it (`terminated_after`), and a session with the flag
  answers every step with the same fault and is not changed by it (`step_of_terminated`).

What such a fault can be is known from the grammar of the stream: a byte that begins no
command, with its place, or a read beyond the end of the image.
-/
import ChipLog.Proofs.Command.Grammar
import ChipLog.Proofs.Session.Timeline

namespace ChipLog

namespace Playback

variable {σ : Type} [ChipEngine σ]
variable {engines : Factory σ} {image : ByteArray} {playback next : Playback σ} {fault : Fault}

/-! ## 1. Steps that fail -/

/-- The player as a fault leaves it behind. -/
def stopped {σ : Type} (playback : Playback σ) : Playback σ := { playback with terminated := true }

/-- A player that was stopped stays where it is. -/
theorem step_of_terminated (h : playback.terminated = true) :
    playback.step engines image = pure (.error .terminated, playback) := by
  rw [step, if_pos h]

/-- A player at the end of its stream stays where it is. -/
theorem step_of_ended (hterminated : playback.terminated = false) (hended : playback.ended = true) :
    playback.step engines image = pure (.ok .endOfStream, playback) := by
  rw [step, hterminated, if_neg Bool.false_ne_true, if_pos hended]

/-- A player that cannot read its command stops, and that is all it does. -/
theorem step_of_parse_error (hterminated : playback.terminated = false)
    (hended : playback.ended = false)
    (hparse : Command.parse image playback.position = .error fault) :
    playback.step engines image =
      ⟨(.error fault, playback.stopped), [.notice (.stopping fault)]⟩ := by
  rw [step, if_neg (by rw [hterminated]; decide), if_neg (by rw [hended]; decide), hparse]
  rfl

/-- A new fault is one that the reader of commands has found. -/
theorem parse_of_step_error (h : (playback.step engines image).value = (.error fault, next))
    (hnew : fault ≠ .terminated) :
    playback.terminated = false ∧ playback.ended = false ∧
      Command.parse image playback.position = .error fault := by
  cases hterminated : playback.terminated with
  | true =>
    rw [step_of_terminated hterminated] at h
    cases h
    exact absurd rfl hnew
  | false =>
    cases hended : playback.ended with
    | true =>
      rw [step_of_ended hterminated hended] at h
      cases h
    | false =>
      refine ⟨rfl, rfl, ?_⟩
      unfold step at h
      rw [hterminated, hended, if_neg Bool.false_ne_true, if_neg Bool.false_ne_true] at h
      split at h
      case h_1 e hparse =>
        cases h
        exact hparse
      case h_2 => cases h
      case h_3 => cases h

end Playback

namespace Session

variable {σ : Type} [ChipEngine σ]
variable {session next : Session σ} {fault : Fault}

/-! ## 2. The step that meets a fault -/

/-- The session as a fault leaves it behind: only the flag of its player is raised. -/
def stopped {σ : Type} (session : Session σ) : Session σ :=
  { session with playback := session.playback.stopped }

/-- What a session answers is what its player answers. -/
theorem playback_step_value {result : Except Fault Step}
    (h : session.step.value = (result, next)) :
    (session.playback.step session.engines session.image).value = (result, next.playback) := by
  have hvalue : (session.playback.step session.engines session.image).value =
      (session.step.value.1, session.step.value.2.playback) := rfl
  rw [hvalue, h]

/-- **A step that meets a new fault does nothing but raise the flag and report a notice.** -/
theorem step_eq_of_fault (h : session.step.value = (.error fault, next))
    (hnew : fault ≠ .terminated) :
    session.step = ⟨(.error fault, session.stopped), [.notice (.stopping fault)]⟩ := by
  obtain ⟨hterminated, hended, hparse⟩ :=
    Playback.parse_of_step_error (playback_step_value h) hnew
  rw [step, Playback.step_of_parse_error hterminated hended hparse]
  rfl

/-- What a new fault says: the byte at the position begins no command, or the image ends before the
command does. -/
theorem fault_cases (h : session.step.value = (.error fault, next)) (hnew : fault ≠ .terminated) :
    (∃ opcode, session.image[session.playback.position]? = some opcode ∧
      opcode ∉ Command.opcodes ∧ fault = .unknownOpcode opcode session.playback.position) ∨
      fault.LeavesImage session.image :=
  Command.parse_eq_error_cases (Playback.parse_of_step_error (playback_step_value h) hnew).2.2

/-! ## 3. The latch -/

/-- A stopped session answers every step in the same way and stays as it is. -/
theorem step_of_terminated (h : session.playback.terminated = true) :
    session.step = pure (.error .terminated, session) := by
  rw [step, Playback.step_of_terminated h]
  rfl

/-- A session at the end of its stream stays as it is. -/
theorem step_of_ended (hterminated : session.playback.terminated = false)
    (hended : session.playback.ended = true) :
    session.step = pure (.ok .endOfStream, session) := by
  rw [step, Playback.step_of_ended hterminated hended]
  rfl

/-- No call lowers the flag. -/
theorem terminated_perform (call : Call) (h : session.playback.terminated = true) :
    (session.perform call).value.2.playback.terminated = true := by
  cases call with
  | step =>
    show session.step.value.2.playback.terminated = true
    rw [step_of_terminated h]
    exact h
  | seek position => exact h
  | tick => exact h
  | render count => exact h
  | setAudible site audible => exact h
  | tag => exact h

/-- **No script lowers the flag.** -/
theorem terminated_after (calls : List Call) (h : session.playback.terminated = true) :
    (session.after calls).playback.terminated = true := by
  induction calls generalizing session with
  | nil => exact h
  | cons call calls ih => exact ih (terminated_perform call h)

/-- Every step of a script on a stopped session is answered in the same way. -/
theorem steps_of_terminated (calls : List Call) (h : session.playback.terminated = true) :
    ∀ result ∈ (session.replies calls).filterMap Reply.step?, result = .error .terminated := by
  induction calls generalizing session with
  | nil => intro result hmem; cases hmem
  | cons call calls ih =>
    intro result hmem
    rw [replies_cons, List.filterMap_cons] at hmem
    have hrest := ih (terminated_perform call h) result
    cases call with
    | step =>
      have hreply : (session.perform .step).value.1 = .stepped (.error .terminated) := by
        show Reply.stepped session.step.value.1 = _
        rw [step_of_terminated h]
        rfl
      rw [hreply] at hmem
      rcases List.mem_cons.mp hmem with rfl | hmem
      · rfl
      · exact hrest hmem
    | seek position => exact hrest hmem
    | tick => exact hrest hmem
    | render count => exact hrest hmem
    | setAudible site audible => exact hrest hmem
    | tag => exact hrest hmem

/-! ## 4. Faults are final and leave no trace -/

/-- **A new fault changes nothing but one flag, and that flag is for good.**  The step that
meets it reports a notice and no call of an engine, and leaves the session as it was but for
the flag; the fault names the byte at the position, if that begins no command, or a read that
leaves the image.  Whatever is asked of the session afterwards, every step of it is answered
by the same fault and changes nothing.  A step at the end of the stream changes nothing
either. -/
theorem fault_is_atomic_and_final (session : Session σ) :
    (∀ fault next, session.step.value = (.error fault, next) → fault ≠ .terminated →
      next = session.stopped ∧ session.step.events = [.notice (.stopping fault)] ∧
      ((∃ opcode, session.image[session.playback.position]? = some opcode ∧
        opcode ∉ Command.opcodes ∧ fault = .unknownOpcode opcode session.playback.position) ∨
        fault.LeavesImage session.image) ∧
      ∀ calls,
        (∀ result ∈ (next.replies calls).filterMap Reply.step?, result = .error .terminated) ∧
        (next.after calls).step = pure (.error .terminated, next.after calls)) ∧
    (session.playback.terminated = false → session.playback.ended = true →
      session.step = pure (.ok .endOfStream, session)) := by
  refine ⟨fun fault next h hnew => ?_, step_of_ended⟩
  have hstep := step_eq_of_fault h hnew
  have hnext : next = session.stopped := by
    rw [hstep] at h
    exact (congrArg Prod.snd h).symm
  have hflag : next.playback.terminated = true := by
    rw [hnext]
    rfl
  refine ⟨hnext, by rw [hstep], fault_cases h hnew, fun calls => ⟨?_, ?_⟩⟩
  · exact steps_of_terminated calls hflag
  · exact step_of_terminated (terminated_after calls hflag)

/-- A stream that ends at once, and behind its end a block whose payload is cut short. -/
def cutLog : ByteArray :=
  sampleLog [0x66, 0x67, 0x66, 0x00, 0x10, 0x00, 0x00, 0x00, 0x01, 0x02]

/-- Going back and forth, a script gets past the end of the stream and meets the block; after that
not even a step at the place where the stream ended is answered. -/
theorem cutLog_fault_is_final : ∃ session,
    (load Bundled.factory cutLog).value = .ok session ∧
    (session.after [.step]).step = pure (.ok .endOfStream, session.after [.step]) ∧
    (session.after [.step, .seek 64, .seek 65]).step.value =
      (.error (.outOfRange 72 16 74 (some .blockPayload)),
        (session.after [.step, .seek 64, .seek 65]).stopped) ∧
    ((session.after [.step, .seek 64, .seek 65]).stopped.replies
      [.seek 64, .tick, .step]).filterMap Reply.step? = [.error .terminated] := by
  obtain ⟨header, -, hstart, hload⟩ := @load_sampleLog
    [0x66, 0x67, 0x66, 0x00, 0x10, 0x00, 0x00, 0x00, 0x01, 0x02] rfl
  refine ⟨opened Bundled.factory cutLog header, hload, ?_⟩
  generalize hopened : opened Bundled.factory cutLog header = session
  have himage : session.image = cutLog := by rw [← hopened]; rfl
  have hline : session.timeline = ⟨64, false, false⟩ := by rw [← hopened, ← hstart]; rfl
  have hended : (session.after [.step]).timeline = ⟨65, true, false⟩ := by
    have := congrArg Prod.snd (timeline_performAll [.step] session)
    rw [hline, himage] at this
    exact this
  have hback : (session.after [.step, .seek 64, .seek 65]).timeline = ⟨65, false, false⟩ := by
    have := congrArg Prod.snd (timeline_performAll [.step, .seek 64, .seek 65] session)
    rw [hline, himage] at this
    exact this
  have hparse : Command.parse (session.after [.step, .seek 64, .seek 65]).image
      (session.after [.step, .seek 64, .seek 65]).playback.position =
        .error (.outOfRange 72 16 74 (some .blockPayload)) := by
    have hposition := congrArg Timeline.position hback
    rw [image_after, himage]
    exact (congrArg (Command.parse cutLog) hposition).trans rfl
  have hstep : (session.after [.step, .seek 64, .seek 65]).step.value =
      (.error (.outOfRange 72 16 74 (some .blockPayload)),
        (session.after [.step, .seek 64, .seek 65]).stopped) := by
    rw [step, Playback.step_of_parse_error (congrArg Timeline.terminated hback)
      (congrArg Timeline.ended hback) hparse]
    rfl
  refine ⟨?_, hstep, ?_⟩
  · exact (fault_is_atomic_and_final _).2 (congrArg Timeline.terminated hended)
      (congrArg Timeline.ended hended)
  · have hfinal := ((fault_is_atomic_and_final _).1 _ _ hstep (by decide)).2.2.2
      [.seek 64, .tick, .step]
    exact congrArg (fun result => [result]) (hfinal.1 _ (List.mem_singleton_self _))

end Session

end ChipLog
