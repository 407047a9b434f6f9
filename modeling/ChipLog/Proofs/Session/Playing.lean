/-
# Playing is a script

To play a session is to run a script on it: steps, frames between them, and seeks back to the loop
point.  Which script that is depends on the log, but there always is one, and it ends.

* What comes of playing is what comes of that script, and the steps that a run counts are the steps in
  it (`Run.Plays.script`).  So whatever holds after every script holds after every play.
* There are at most `loops + 1` times as many steps as the image has bytes, and one more for each
  time (`play_is_a_script`).
* A script without seeks comes to the end of the stream, or to a fault, after as many steps as there
  are bytes from the place where it begins, and one more (`Timeline.run_ends`).
-/
import ChipLog.Proofs.Playback.Laps
import ChipLog.Proofs.Session.Script

namespace ChipLog

/-! ## 1. Steps and seeks of a script -/

/-- Whether a call takes a step. -/
def Call.isStep : Call → Bool
  | step => true
  | _ => false

/-- Whether a call goes to another place of the command stream. -/
def Call.isSeek : Call → Bool
  | seek _ => true
  | _ => false

/-- A script without seeks moves the timeline by its steps. -/
theorem Call.moves_of_no_seek {calls : List Call} (h : ∀ call ∈ calls, call.isSeek = false) :
    calls.filterMap Call.move? = List.replicate (calls.countP Call.isStep) .step := by
  induction calls with
  | nil => rfl
  | cons call calls ih =>
    have hrest := ih fun call hcall => h call (List.mem_cons_of_mem _ hcall)
    have hcall := h call List.mem_cons_self
    rw [List.filterMap_cons, hrest, List.countP_cons]
    cases call with
    | step => rfl
    | seek position => cases hcall
    | _ => rfl

/-- **Steps come to an end**, at the end of the stream or at a fault, after at most one for each byte
that is left and one more. -/
theorem Timeline.run_ends {image : ByteArray} {line : Timeline} {count : Nat}
    (h : image.size - line.position < count) :
    ∃ result ∈ (line.run image (List.replicate count .step)).1.take
        (image.size - line.position + 1),
      result = .ok .endOfStream ∨ ∃ fault, result = .error fault := by
  induction count generalizing line with
  | zero => exact absurd h (Nat.not_lt_zero _)
  | succ count ih =>
    rw [List.replicate_succ, run_step, List.take_succ_cons]
    cases hresult : (line.step image).1 with
    | error fault => exact ⟨_, List.mem_cons_self, .inr ⟨fault, rfl⟩⟩
    | ok step =>
      cases step with
      | endOfStream => exact ⟨_, List.mem_cons_self, .inl rfl⟩
      | wait frames =>
        obtain ⟨hpos, hsize⟩ := step_wait_bounds hresult
        obtain ⟨result, hmem, hlast⟩ := @ih (line.step image).2 (by omega)
        refine ⟨result, List.mem_cons_of_mem _ ?_, hlast⟩
        exact (List.take_prefix_take_left (by omega)).subset hmem

/-! ## 2. Scripts for a run -/

namespace Session

variable {σ : Type} [ChipEngine σ]

/-- The events of a script in two parts. -/
theorem events_performAll_append (first second : List Call) (session : Session σ) :
    (session.performAll (first ++ second)).events =
      (session.performAll first).events ++ ((session.after first).performAll second).events := by
  induction first generalizing session with
  | nil => rfl
  | cons call calls ih =>
    have hsplit : ∀ calls : List Call, (session.performAll (call :: calls)).events =
        (session.perform call).events ++
          ((session.perform call).value.2.performAll calls).events := by
      intro calls
      simp [performAll]
    rw [List.cons_append, hsplit, hsplit, ih, List.append_assoc]
    rfl

/-- A script that does what a run does on its way from `run` to `last`. -/
structure Enacts (session : Session σ) (calls : List Call) (run last : Run σ) : Prop where
  starts : session.playback = run.playback
  ends : (session.after calls).playback = last.playback
  frames : last.frames.toList =
    run.frames.toList ++ (session.replies calls).flatMap Reply.frameList
  events : last.events.toList = run.events.toList ++ (session.performAll calls).events
  /-- The steps that the run counts are the steps of the script. -/
  steps : last.steps = run.steps + calls.countP Call.isStep

namespace Enacts

variable {session : Session σ} {run next last : Run σ} {first second : List Call}

theorem trans (h : session.Enacts first run next)
    (h' : (session.after first).Enacts second next last) :
    session.Enacts (first ++ second) run last where
  starts := h.starts
  ends := by rw [after_append, h'.ends]
  frames := by
    rw [h'.frames, h.frames, replies_append, List.flatMap_append, List.append_assoc]
  events := by rw [h'.events, h.events, events_performAll_append, List.append_assoc]
  steps := by rw [h'.steps, h.steps, List.countP_append, Nat.add_assoc]

theorem step {engines : Factory σ} {image : ByteArray} (hengines : session.engines = engines)
    (himage : session.image = image) (h : session.playback = run.playback) :
    session.Enacts [.step] run (run.stepped engines image) where
  starts := h
  ends := by rw [Run.stepped, ← h, ← hengines, ← himage]; rfl
  frames := (List.append_nil _).symm
  events := by
    rw [Run.stepped, ← h, ← hengines, ← himage]
    simp [performAll, perform, Session.step]
  steps := rfl

theorem render (h : session.playback = run.playback) (count : Nat) :
    session.Enacts [.render count] run (run.rendered count) where
  starts := h
  ends := by
    rw [Run.rendered, ← h, Playback.render_eq_append]
    rfl
  frames := by
    rw [Run.rendered, ← h, Playback.render_eq_append, Array.toList_append]
    exact congrArg _ (List.append_nil _).symm
  events := (List.append_nil _).symm
  steps := rfl

theorem seek (h : session.playback = run.playback) (offset : Nat) :
    session.Enacts [.seek offset] run (run.sought offset) where
  starts := h
  ends := by rw [Run.sought, ← h]; rfl
  frames := (List.append_nil _).symm
  events := (List.append_nil _).symm
  steps := rfl

end Enacts

end Session

variable {σ : Type} [ChipEngine σ]

/-- **To play is to run a script.** -/
theorem Run.Plays.script {engines : Factory σ} {image : ByteArray} {loopOffset limit : Option Nat}
    {loops : Nat} {run last : Run σ} {ending : Ending}
    (h : Plays engines image loopOffset limit loops run ending last) {session : Session σ}
    (hengines : session.engines = engines) (himage : session.image = image)
    (hplayback : session.playback = run.playback) :
    ∃ calls, session.Enacts calls run last := by
  induction h generalizing session with
  | fault hstep => exact ⟨_, .step hengines himage hplayback⟩
  | @full loops run wanted hstep hfull =>
    have hfirst := Session.Enacts.step hengines himage hplayback
    exact ⟨_, hfirst.trans (.render hfirst.ends _)⟩
  | @wait loops run last wanted ending hstep hfull rest ih =>
    have hfirst := Session.Enacts.step hengines himage hplayback
    have hround := hfirst.trans (.render hfirst.ends (granted limit run.frames.size wanted))
    obtain ⟨calls, hcalls⟩ := ih ((Session.engines_after _ session).trans hengines)
      ((Session.image_after _ session).trans himage) hround.ends
    exact ⟨_, hround.trans hcalls⟩
  | finished hstep hlast => exact ⟨_, .step hengines himage hplayback⟩
  | @again loops run last offset ending hstep hoffset rest ih =>
    have hfirst := Session.Enacts.step hengines himage hplayback
    have hround := hfirst.trans (.seek hfirst.ends offset)
    obtain ⟨calls, hcalls⟩ := ih ((Session.engines_after _ session).trans hengines)
      ((Session.image_after _ session).trans himage) hround.ends
    exact ⟨_, hround.trans hcalls⟩

/-! ## 3. Sessions come to an end -/

namespace Session

/-- **To play a session is to run a script on it**, in which there are at most `loops + 1` times as
many steps as the image has bytes, and one more for each time. -/
theorem play_is_a_script (loops : Nat) (limit : Option Nat) (session : Session σ) :
    ∃ calls, session.Enacts calls { playback := session.playback }
        (session.play loops limit).2 ∧
      calls.countP Call.isStep ≤ (loops + 1) * (session.image.size + 1) := by
  have hplays := Run.plays_play session.engines session.image session.header.loopOffset limit loops
    { playback := session.playback }
  obtain ⟨calls, hcalls⟩ := hplays.script rfl rfl rfl
  have hsteps := hcalls.steps
  have hbound := hplays.steps_le
  refine ⟨calls, hcalls, ?_⟩
  rw [hsteps] at hbound
  rw [Nat.add_mul, Nat.one_mul]
  simp only at hbound
  omega

/-- A script without seeks that takes more steps than there are bytes left comes to the end of the
stream or to a fault before that. -/
theorem steps_end (session : Session σ) {calls : List Call}
    (hcalls : ∀ call ∈ calls, call.isSeek = false)
    (hcount : session.image.size - session.playback.position < calls.countP Call.isStep) :
    ∃ result ∈ ((session.replies calls).filterMap Reply.step?).take
        (session.image.size - session.playback.position + 1),
      result = .ok .endOfStream ∨ ∃ fault, result = .error fault := by
  have hline := congrArg Prod.fst (timeline_performAll calls session)
  rw [Call.moves_of_no_seek hcalls] at hline
  rw [show (session.replies calls).filterMap Reply.step? = _ from hline]
  exact @Timeline.run_ends session.image session.timeline _ hcount

end Session

end ChipLog
