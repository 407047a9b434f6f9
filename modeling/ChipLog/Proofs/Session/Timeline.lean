/-
# The timeline of a session

Where a session stands in its command stream, whether the stream has ended and whether a fault
has stopped the session: these three make up its `Timeline`.  This module says how a timeline
moves, with nothing but the bytes of the image to go by -- no chips, no banks of sample data, no
frames -- and proves that every session moves just like that.

Main statement: whatever script is run on a loaded session, the outcomes of its steps and the
timeline it ends with are those of the bare timeline under the steps and seeks of the script
alone (`timeline_after_load`).  A beginning of a script is a script, so the same holds after
every single call.

The proof is a simulation.  A step of a player takes the command apart before any chip hears of
it, and carrying out a command yields a deck, which has no place for a position or a flag
(`timeline_step`).  Everything else that a script can ask for leaves the timeline alone
(`timeline_perform`).

On its own, a step of a running timeline stops it, ends it or moves it on (`Timeline.step_cases`).
So steps that come to the end of the stream have met no fault and have moved on
(`Timeline.run_to_end`).
-/
import ChipLog.Proofs.Session.Script

namespace ChipLog

/-! ## 1. Timelines -/

/-- Where a session stands. -/
structure Timeline where
  position : Nat
  ended : Bool := false
  terminated : Bool := false
  deriving DecidableEq, Repr

/-- What moves a timeline. -/
inductive Move
  | step
  | seek (position : Nat)
  deriving DecidableEq, Repr

namespace Timeline

/-- Take the next command. -/
def step (image : ByteArray) (line : Timeline) : Except Fault Step × Timeline :=
  if line.terminated then (.error .terminated, line)
  else if line.ended then (.ok .endOfStream, line)
  else
    match Command.parse image line.position with
    | .error fault => (.error fault, { line with terminated := true })
    | .ok (.endOfData, length) =>
      (.ok .endOfStream, { line with position := line.position + length, ended := true })
    | .ok (command, length) =>
      (.ok (.wait command.duration), { line with position := line.position + length })

/-- Go to a position; going back from the end of the stream starts it again. -/
def seek (position : Nat) (line : Timeline) : Timeline :=
  { line with position, ended := if position < line.position then false else line.ended }

/-- Move on and on, and collect the outcomes of the steps. -/
def run (image : ByteArray) : List Move → Timeline → List (Except Fault Step) × Timeline
  | [], line => ([], line)
  | .step :: moves, line =>
    let (result, next) := line.step image
    let (results, last) := run image moves next
    (result :: results, last)
  | .seek position :: moves, line => run image moves (line.seek position)

theorem run_step (image : ByteArray) (moves : List Move) (line : Timeline) :
    line.run image (.step :: moves) =
      ((line.step image).1 :: ((line.step image).2.run image moves).1,
        ((line.step image).2.run image moves).2) := rfl

theorem run_seek (image : ByteArray) (position : Nat) (moves : List Move) (line : Timeline) :
    line.run image (.seek position :: moves) = (line.seek position).run image moves := rfl

/-! ## 2. Where steps lead -/

section Steps

variable {image : ByteArray} {line : Timeline}

/-- A running timeline is known by its position. -/
theorem eq_of_running (hterminated : line.terminated = false) (hended : line.ended = false) :
    line = ⟨line.position, false, false⟩ := by
  cases line
  cases hterminated
  cases hended
  rfl

/-- **What a step of a running timeline can be**: a fault stops it, or the stream ends, or it moves
on. -/
theorem step_cases (hterminated : line.terminated = false) (hended : line.ended = false) :
    (∃ fault, line.step image = (.error fault, { line with terminated := true })) ∨
      (∃ length, 0 < length ∧ line.step image =
        (.ok .endOfStream, { line with position := line.position + length, ended := true })) ∨
      ∃ frames length, 0 < length ∧ line.step image =
        (.ok (.wait frames), { line with position := line.position + length }) := by
  cases hparse : Command.parse image line.position with
  | error fault => exact .inl ⟨fault, by simp [step, hterminated, hended, hparse]⟩
  | ok parsed =>
    obtain ⟨command, length⟩ := parsed
    obtain ⟨-, hlength⟩ := Command.parse_progress hparse
    by_cases hlast : command = .endOfData
    · subst hlast
      exact .inr (.inl ⟨length, hlength, by simp [step, hterminated, hended, hparse]⟩)
    · refine .inr (.inr ⟨command.duration, length, hlength, ?_⟩)
      cases command <;> simp_all [step]

theorem step_of_terminated (h : line.terminated = true) :
    line.step image = (.error .terminated, line) := by
  simp [step, h]

theorem step_of_ended (hterminated : line.terminated = false) (hended : line.ended = true) :
    line.step image = (.ok .endOfStream, line) := by
  simp [step, hterminated, hended]

/-- Where a step leaves the timeline as it is, all further steps have the same outcome. -/
theorem run_of_still {result : Except Fault Step} (h : line.step image = (result, line))
    (count : Nat) :
    line.run image (List.replicate count .step) = (List.replicate count result, line) := by
  induction count with
  | zero => rfl
  | succ count ih => rw [List.replicate_succ, run_step, h, ih, List.replicate_succ]

/-- Steps that come to the end of the stream have moved on, and met no fault. -/
theorem run_to_end {count : Nat} (hterminated : line.terminated = false)
    (hended : line.ended = false)
    (h : .ok .endOfStream ∈ (line.run image (List.replicate count .step)).1) :
    line.position < (line.run image (List.replicate count .step)).2.position ∧
      (line.run image (List.replicate count .step)).2.terminated = false := by
  induction count generalizing line with
  | zero => cases h
  | succ count ih =>
    rw [List.replicate_succ, run_step] at h ⊢
    rcases @step_cases image _ hterminated hended with
      ⟨fault, hstep⟩ | ⟨length, hlength, hstep⟩ | ⟨frames, length, hlength, hstep⟩
    · -- a session that is stopped does not come to the end
      rw [hstep, run_of_still (step_of_terminated rfl)] at h
      rcases List.mem_cons.mp h with hhead | htail
      · cases hhead
      · cases List.eq_of_mem_replicate htail
    · have hstay := run_of_still (@step_of_ended image
        { line with position := line.position + length, ended := true } hterminated rfl) count
      simp only [hstep, hstay]
      exact ⟨Nat.lt_add_of_pos_right hlength, hterminated⟩
    · rw [hstep] at h ⊢
      rcases List.mem_cons.mp h with hhead | htail
      · cases hhead
      · obtain ⟨hposition, hrunning⟩ :=
          @ih { line with position := line.position + length } hterminated hended htail
        exact ⟨Nat.lt_trans (Nat.lt_add_of_pos_right hlength) hposition, hrunning⟩

end Steps

end Timeline

/-- The timeline of a player. -/
def Playback.timeline {σ : Type} (playback : Playback σ) : Timeline :=
  ⟨playback.position, playback.ended, playback.terminated⟩

/-- The timeline of a session. -/
def Session.timeline {σ : Type} (session : Session σ) : Timeline := session.playback.timeline

/-- How a call moves the timeline, if it does so at all. -/
def Call.move? : Call → Option Move
  | .step => some .step
  | .seek position => some (.seek position)
  | _ => none

/-! ## 3. One call -/

section Simulation

variable {σ : Type} [ChipEngine σ]

/-- **A step moves the timeline as the bytes of the image say**, whatever the command does to
the chips. -/
theorem timeline_step (engines : Factory σ) (image : ByteArray) (playback : Playback σ) :
    ((playback.step engines image).value.1, (playback.step engines image).value.2.timeline) =
      playback.timeline.step image := by
  unfold Playback.step Timeline.step
  cases ht : playback.terminated with
  | true => simp [Playback.timeline, ht]
  | false =>
    cases he : playback.ended with
    | true => simp [Playback.timeline, ht, he]
    | false =>
      simp only [Playback.timeline, ht, he, Bool.false_eq_true, if_false]
      cases Command.parse image playback.position with
      | error fault => simp
      | ok parsed =>
        obtain ⟨command, length⟩ := parsed
        -- the last command of a stream is the only one that `step` treats in a way of its own
        cases command <;> simp

omit [ChipEngine σ] in
theorem timeline_seek (position : Nat) (playback : Playback σ) :
    (playback.seek position).timeline = playback.timeline.seek position := by
  unfold Playback.seek Timeline.seek Playback.timeline
  by_cases h : position < playback.position <;> simp [h]

/-- A call that is neither a step nor a seek leaves the timeline alone and has no outcome of a
step to show. -/
theorem timeline_perform {call : Call} (h : call.move? = none) (session : Session σ) :
    (session.perform call).value.2.timeline = session.timeline ∧
      (session.perform call).value.1.step? = none := by
  cases call with
  | step => cases h
  | seek position => cases h
  | tick => exact ⟨rfl, rfl⟩
  | render count => exact ⟨rfl, rfl⟩
  | setAudible site audible => exact ⟨rfl, rfl⟩
  | tag => exact ⟨rfl, rfl⟩

/-! ## 4. Whole scripts -/

/-- **The simulation.**  From any state, a script yields the outcomes and the timeline that its
moves yield. -/
theorem timeline_performAll (calls : List Call) (session : Session σ) :
    ((session.replies calls).filterMap Reply.step?, (session.after calls).timeline) =
      session.timeline.run session.image (calls.filterMap Call.move?) := by
  induction calls generalizing session with
  | nil => rfl
  | cons call calls ih =>
    have ih := ih (session.perform call).value.2
    rw [Session.image_perform] at ih
    rw [Session.replies_cons, Session.after_cons]
    cases hmove : call.move? with
    | none =>
      obtain ⟨hline, hreply⟩ := timeline_perform hmove session
      rw [List.filterMap_cons_none hreply, List.filterMap_cons_none hmove, ih, hline]
    | some move =>
      rw [List.filterMap_cons_some hmove]
      cases call with
      | step =>
        cases hmove
        have hstep := timeline_step session.engines session.image session.playback
        have hresult : (session.perform .step).value.1.step? =
            some (session.timeline.step session.image).1 :=
          congrArg some (congrArg Prod.fst hstep)
        have hline : (session.perform .step).value.2.timeline =
            (session.timeline.step session.image).2 := congrArg Prod.snd hstep
        rw [List.filterMap_cons_some hresult, Timeline.run_step, ← hline, ← ih]
      | seek position =>
        cases hmove
        have hline : (session.perform (.seek position)).value.2.timeline =
            session.timeline.seek position := timeline_seek position session.playback
        rw [List.filterMap_cons_none rfl, Timeline.run_seek, ← hline, ih]
      | tick => cases hmove
      | render count => cases hmove
      | setAudible site audible => cases hmove
      | tag => cases hmove

/-- **A session is a timeline of its image.**  A session that was loaded stands at the start of
the command stream that its header names, and after any script the outcomes of its steps, its
position and its two flags are those of the bare timeline under the script's steps and seeks
alone.  Frames, mutes, looks at the tag and all that commands do to chips and banks leave no
trace in it. -/
theorem timeline_after_load {engines : Factory σ} {image : ByteArray} {session : Session σ}
    (h : (Session.load engines image).value = .ok session) (calls : List Call) :
    ∃ header, Header.parse image = .ok header ∧
      ((session.replies calls).filterMap Reply.step?, (session.after calls).timeline) =
        Timeline.run image (calls.filterMap Call.move?) ⟨header.dataStart, false, false⟩ := by
  obtain ⟨header, hparse, rfl⟩ := Session.load_eq_ok_iff.mp h
  exact ⟨header, hparse, timeline_performAll calls _⟩

end Simulation

/-- A byte for the PSG, a sixtieth of a second, five frames, the end -- with frames and mutes in
between, a seek back from the end, and one into the header, where no command stands. -/
theorem timeline_sampleLog : ∃ session,
    (Session.load Bundled.factory
      (Session.sampleLog [0x50, 0x9F, 0x62, 0x61, 0x05, 0x00, 0x66])).value = .ok session ∧
    ((session.replies [.step, .render 3, .step, .setAudible ⟨.sn76489, .primary⟩ false, .step,
        .tick, .step, .step, .seek 66, .tag, .step, .seek 3, .step, .step]).filterMap Reply.step? =
      [.ok (.wait 0), .ok (.wait 735), .ok (.wait 5), .ok .endOfStream, .ok .endOfStream,
        .ok (.wait 735), .error (.unknownOpcode 0x20 3), .error .terminated]) := by
  obtain ⟨header, hparse, hstart, hload⟩ :=
    @Session.load_sampleLog [0x50, 0x9F, 0x62, 0x61, 0x05, 0x00, 0x66] rfl
  refine ⟨_, hload, ?_⟩
  obtain ⟨header', hparse', hrun⟩ := timeline_after_load hload
    [.step, .render 3, .step, .setAudible ⟨.sn76489, .primary⟩ false, .step,
      .tick, .step, .step, .seek 66, .tag, .step, .seek 3, .step, .step]
  cases hparse.symm.trans hparse'
  rw [hstart] at hrun
  exact congrArg Prod.fst hrun

end ChipLog
