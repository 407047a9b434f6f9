/-
# Playing round by round

Playing a log goes round by round.  Each round takes one step of the player (`Run.stepped`).  If the
step waits, the engines make the frames that are granted (`Run.rendered`), and the run stops if
there may be no more of them.  If the stream has ended, the run goes back to the loop point while
it may (`Run.close`).

Main statements:

* `play_eq` says what a round does, and later proofs that follow a run forwards use it in place of the
  definition of the run;
* `Plays` is the relation between a run and what it comes to, with one constructor for each way a
  round can go, and every run comes to something (`plays_play`); whatever all rounds keep is proved
  by induction on it;
* a run takes at most one step for each byte that is left, and one more, and for each loop as many
  as the image has bytes, and one more (`Plays.steps_le`);
* frames that were made stay where they are (`Plays.frames_extend`).
-/
import ChipLog.Proofs.Board.Sites
import ChipLog.Proofs.Command.Stretch
import ChipLog.Proofs.Session.Timeline

namespace ChipLog

/-! ## 1. One step -/

namespace Timeline

variable {image : ByteArray} {pos length : Nat}

theorem step_of_error {fault : Fault} (h : Command.parse image pos = .error fault) :
    Timeline.step image ⟨pos, false, false⟩ = (.error fault, ⟨pos, false, true⟩) := by
  simp [step, h]

theorem step_of_endOfData (h : Command.parse image pos = .ok (.endOfData, length)) :
    Timeline.step image ⟨pos, false, false⟩ = (.ok .endOfStream, ⟨pos + length, true, false⟩) := by
  simp [step, h]

theorem step_of_command {command : Command} (h : Command.parse image pos = .ok (command, length))
    (hne : command ≠ .endOfData) :
    Timeline.step image ⟨pos, false, false⟩ =
      (.ok (.wait command.duration), ⟨pos + length, false, false⟩) := by
  cases command <;> simp_all [step]

/-- A step that waits has read a command, waits as long as the command says, and moves on behind it. -/
theorem parse_of_step_wait {line : Timeline} {frames : Nat}
    (h : (line.step image).1 = .ok (.wait frames)) :
    ∃ command length, Command.parse image line.position = .ok (command, length) ∧
      command.duration = frames ∧ (line.step image).2.position = line.position + length := by
  cases hterminated : line.terminated with
  | true =>
    rw [step_of_terminated hterminated] at h
    cases h
  | false =>
    cases hended : line.ended with
    | true =>
      rw [step_of_ended hterminated hended] at h
      cases h
    | false =>
      rw [eq_of_running hterminated hended] at h ⊢
      cases hparse : Command.parse image line.position with
      | error fault =>
        rw [step_of_error hparse] at h
        cases h
      | ok parsed =>
        obtain ⟨command, length⟩ := parsed
        by_cases hlast : command = .endOfData
        · subst hlast
          rw [step_of_endOfData hparse] at h
          cases h
        · rw [step_of_command hparse hlast] at h ⊢
          cases h
          exact ⟨command, length, rfl, rfl, rfl⟩

/-- A step that waits leads further on, and not beyond the end of the image. -/
theorem step_wait_bounds {line : Timeline} {frames : Nat}
    (h : (line.step image).1 = .ok (.wait frames)) :
    line.position < (line.step image).2.position ∧
      (line.step image).2.position ≤ image.size := by
  obtain ⟨command, length, hparse, -, hposition⟩ := parse_of_step_wait h
  rw [hposition]
  exact Command.parse_bounds hparse

/-- No step waits for more frames than a command can ask for. -/
theorem step_wait_lt {line : Timeline} {frames : Nat}
    (h : (line.step image).1 = .ok (.wait frames)) : frames < 2 ^ 16 := by
  obtain ⟨command, length, -, hduration, -⟩ := parse_of_step_wait h
  rw [← hduration]
  exact command.duration_lt

end Timeline

variable {σ : Type} [ChipEngine σ]

/-- The same of a player. -/
theorem Playback.step_wait_bounds {engines : Factory σ} {image : ByteArray}
    {playback next : Playback σ} {frames : Nat}
    (h : (playback.step engines image).value = (.ok (.wait frames), next)) :
    playback.position < next.position ∧ next.position ≤ image.size := by
  have hstep := timeline_step engines image playback
  rw [h] at hstep
  have hbounds := Timeline.step_wait_bounds (congrArg Prod.fst hstep).symm
  rw [← hstep] at hbounds
  exact hbounds

/-- What is there before has no part in what is made. -/
theorem Playback.render_eq_append (frames : Array StereoFrame) (count : Nat)
    (playback : Playback σ) :
    playback.render frames count =
      (frames ++ (playback.render #[] count).1, (playback.render #[] count).2) := by
  unfold render Deck.render
  rw [Board.render_eq_append]

namespace Run

/-! ## 2. Parts of a round -/

/-- The run after a step of its player. -/
def stepped (engines : Factory σ) (image : ByteArray) (run : Run σ) : Run σ :=
  { run with
    playback := (run.playback.step engines image).value.2
    events := run.events.appendList (run.playback.step engines image).events
    steps := run.steps + 1 }

/-- The run with `count` more frames. -/
def rendered (count : Nat) (run : Run σ) : Run σ :=
  { run with
    playback := (run.playback.render run.frames count).2
    frames := (run.playback.render run.frames count).1 }

/-- The run at another place of the stream. -/
def sought {σ : Type} (offset : Nat) (run : Run σ) : Run σ :=
  { run with playback := run.playback.seek offset }

/-- What is left of a run at the end of its stream. -/
def close (engines : Factory σ) (image : ByteArray) (loopOffset limit : Option Nat) (loops : Nat)
    (run : Run σ) : Ending × Run σ :=
  match loopOffset, loops with
  | some offset, loops + 1 => play engines image loopOffset limit loops (run.sought offset)
  | _, _ => (.endOfStream, run)

variable {engines : Factory σ} {image : ByteArray} {loopOffset limit : Option Nat} {loops : Nat}
  {run last : Run σ} {ending : Ending}

theorem stepped_eq (run : Run σ) {result : Except Fault Step} {next : Playback σ}
    {more : List (Event Site)} (h : run.playback.step engines image = ⟨(result, next), more⟩) :
    run.stepped engines image = ⟨next, run.frames, run.events.appendList more, run.steps + 1⟩ := by
  rw [stepped, h]

theorem rendered_stepped_eq (run : Run σ) {result : Except Fault Step} {next : Playback σ}
    {more : List (Event Site)} (h : run.playback.step engines image = ⟨(result, next), more⟩)
    (count : Nat) :
    (run.stepped engines image).rendered count =
      ⟨(next.render run.frames count).2, (next.render run.frames count).1,
        run.events.appendList more, run.steps + 1⟩ := by
  rw [stepped_eq run h]
  rfl

/-- Frames do not move the player. -/
theorem timeline_rendered (count : Nat) (run : Run σ) :
    (run.rendered count).playback.timeline = run.playback.timeline := rfl

theorem size_frames_rendered (count : Nat) (run : Run σ) :
    (run.rendered count).frames.size = run.frames.size + count :=
  Board.size_render _ _ _

/-- **What a round does.** -/
theorem play_eq (engines : Factory σ) (image : ByteArray) (loopOffset limit : Option Nat)
    (loops : Nat) (run : Run σ) :
    play engines image loopOffset limit loops run =
      match (run.playback.step engines image).value.1 with
      | .error fault => (.fault fault, run.stepped engines image)
      | .ok (.wait wanted) =>
        let next := (run.stepped engines image).rendered (granted limit run.frames.size wanted)
        if isFull limit next.frames.size then (.limit, next)
        else play engines image loopOffset limit loops next
      | .ok .endOfStream =>
        close engines image loopOffset limit loops (run.stepped engines image) := by
  rw [play]
  split
  case h_1 fault next more hstep => simp [stepped, hstep]
  case h_2 wanted next more hstep => simp [stepped, rendered, hstep]
  case h_3 next more hstep =>
    simp only [stepped, hstep]
    cases loopOffset with
    | none => rfl
    | some offset =>
      cases loops with
      | zero => rfl
      | succ loops => rfl

theorem play_of_endOfStream
    (h : (run.playback.step engines image).value.1 = .ok .endOfStream) :
    play engines image loopOffset limit loops run =
      close engines image loopOffset limit loops (run.stepped engines image) := by
  rw [play_eq, h]

theorem play_of_fault {fault : Fault}
    (h : (run.playback.step engines image).value.1 = .error fault) :
    play engines image loopOffset limit loops run = (.fault fault, run.stepped engines image) := by
  rw [play_eq, h]

/-- With no loops left, a run is over at the end of its stream. -/
theorem close_zero (engines : Factory σ) (image : ByteArray) (loopOffset limit : Option Nat)
    (run : Run σ) : close engines image loopOffset limit 0 run = (.endOfStream, run) := by
  cases loopOffset <;> rfl

/-! ## 3. What a run comes to -/

/-- What playing on from a run comes to, with `loops` loops left. -/
inductive Plays (engines : Factory σ) (image : ByteArray) (loopOffset limit : Option Nat) :
    Nat → Run σ → Ending → Run σ → Prop
  /-- A fault stops the run. -/
  | fault {loops : Nat} {run : Run σ} {fault : Fault}
      (hstep : (run.playback.step engines image).value.1 = .error fault) :
      Plays engines image loopOffset limit loops run (.fault fault) (run.stepped engines image)
  /-- The frames that a wait is granted are the last. -/
  | full {loops : Nat} {run : Run σ} {wanted : Nat}
      (hstep : (run.playback.step engines image).value.1 = .ok (.wait wanted))
      (hfull : isFull limit ((run.stepped engines image).rendered
        (granted limit run.frames.size wanted)).frames.size = true) :
      Plays engines image loopOffset limit loops run .limit
        ((run.stepped engines image).rendered (granted limit run.frames.size wanted))
  /-- After a wait, the run goes on. -/
  | wait {loops : Nat} {run last : Run σ} {wanted : Nat} {ending : Ending}
      (hstep : (run.playback.step engines image).value.1 = .ok (.wait wanted))
      (hfull : isFull limit ((run.stepped engines image).rendered
        (granted limit run.frames.size wanted)).frames.size = false)
      (rest : Plays engines image loopOffset limit loops
        ((run.stepped engines image).rendered (granted limit run.frames.size wanted)) ending last) :
      Plays engines image loopOffset limit loops run ending last
  /-- The stream has ended, and there is no going back. -/
  | finished {loops : Nat} {run : Run σ}
      (hstep : (run.playback.step engines image).value.1 = .ok .endOfStream)
      (hlast : loopOffset = none ∨ loops = 0) :
      Plays engines image loopOffset limit loops run .endOfStream (run.stepped engines image)
  /-- The stream has ended, and the run goes back to the loop point. -/
  | again {loops : Nat} {run last : Run σ} {offset : Nat} {ending : Ending}
      (hstep : (run.playback.step engines image).value.1 = .ok .endOfStream)
      (hoffset : loopOffset = some offset)
      (rest : Plays engines image loopOffset limit loops
        ((run.stepped engines image).sought offset) ending last) :
      Plays engines image loopOffset limit (loops + 1) run ending last

/-- **Every run comes to something.** -/
theorem plays_play (engines : Factory σ) (image : ByteArray) (loopOffset limit : Option Nat)
    (loops : Nat) (run : Run σ) :
    Plays engines image loopOffset limit loops run
      (play engines image loopOffset limit loops run).1
      (play engines image loopOffset limit loops run).2 := by
  fun_induction play engines image loopOffset limit loops run with
  | case1 loops playback frames events steps fault next more hstep =>
    rw [← stepped_eq ⟨playback, frames, events, steps⟩ hstep]
    exact .fault (by rw [hstep])
  | case2 loops playback frames events steps wanted next more hstep rendered run hfull =>
    have hrun : _ = run := rendered_stepped_eq ⟨playback, frames, events, steps⟩ hstep _
    have hlimit : isFull limit run.frames.size = true := hfull
    rw [← hrun] at hlimit ⊢
    exact .full (by rw [hstep]) hlimit
  | case3 loops playback frames events steps wanted next more hstep rendered run hfull ih =>
    have hrun : _ = run := rendered_stepped_eq ⟨playback, frames, events, steps⟩ hstep _
    have hlimit : isFull limit run.frames.size = false := Bool.eq_false_iff.mpr hfull
    rw [← hrun] at hlimit ih ⊢
    exact .wait (by rw [hstep]) hlimit ih
  | case4 playback frames events steps next more hstep events' offset loops hoffset ih =>
    refine .again (by rw [hstep]) hoffset ?_
    rw [stepped_eq ⟨playback, frames, events, steps⟩ hstep]
    exact ih
  | case5 loops playback frames events steps next more hstep events' hno =>
    rw [← stepped_eq ⟨playback, frames, events, steps⟩ hstep]
    refine .finished (by rw [hstep]) ?_
    cases loopOffset with
    | none => exact .inl rfl
    | some offset =>
      cases loops with
      | zero => exact .inr rfl
      | succ loops => exact (hno offset loops rfl rfl).elim

/-! ## 4. What rounds keep -/

/-- A round moves the timeline of the player as the bytes of the image say. -/
theorem timeline_stepped (engines : Factory σ) {line next : Timeline} {result : Except Fault Step}
    (hline : run.playback.timeline = line) (h : line.step image = (result, next)) :
    (run.playback.step engines image).value.1 = result ∧
      (run.stepped engines image).playback.timeline = next := by
  have hstep := (timeline_step engines image run.playback).trans (hline ▸ h)
  exact ⟨congrArg Prod.fst hstep, congrArg Prod.snd hstep⟩

/-- A step that waits leads the run on, and not beyond the end of the image. -/
theorem position_stepped {wanted : Nat}
    (h : (run.playback.step engines image).value.1 = .ok (.wait wanted)) :
    run.playback.position < (run.stepped engines image).playback.position ∧
      (run.stepped engines image).playback.position ≤ image.size :=
  Playback.step_wait_bounds (Prod.ext h rfl)

/-- **A run comes to its end.**  From anywhere, it takes at most one step for each byte that is left
and one more, and for each loop as many as the image has bytes and one more. -/
theorem Plays.steps_le (h : Plays engines image loopOffset limit loops run ending last) :
    last.steps ≤ run.steps + (image.size - run.playback.position) + 1 +
      loops * (image.size + 1) := by
  induction h with
  | fault => exact Nat.le_add_right_of_le (by simp only [stepped]; omega)
  | full => exact Nat.le_add_right_of_le (by simp only [stepped, rendered]; omega)
  | @wait loops run last wanted ending hstep _ _ ih =>
    have hbounds := position_stepped hstep
    have hsteps : (run.stepped engines image).steps = run.steps + 1 := rfl
    simp only [rendered, Playback.position_render] at ih
    omega
  | finished => exact Nat.le_add_right_of_le (by simp only [stepped]; omega)
  | @again loops run last offset ending _ _ _ ih =>
    have hsteps : ((run.stepped engines image).sought offset).steps = run.steps + 1 := rfl
    have hposition : ((run.stepped engines image).sought offset).playback.position = offset := rfl
    rw [hsteps, hposition] at ih
    rw [Nat.add_mul, Nat.one_mul]
    omega

/-- **Frames that were made stay where they are**, and all others are put behind them. -/
theorem Plays.frames_extend (h : Plays engines image loopOffset limit loops run ending last) :
    ∃ more, last.frames = run.frames ++ more := by
  have hrendered : ∀ (run : Run σ) count, ∃ more,
      ((run.stepped engines image).rendered count).frames = run.frames ++ more := fun run count =>
    ⟨_, congrArg Prod.fst (Playback.render_eq_append run.frames count _)⟩
  induction h with
  | fault => exact ⟨#[], Array.append_empty.symm⟩
  | full => exact hrendered _ _
  | wait _ _ _ ih =>
    obtain ⟨more, hmore⟩ := ih
    obtain ⟨made, hmade⟩ := hrendered _ _
    exact ⟨made ++ more, by rw [hmore, hmade, Array.append_assoc]⟩
  | finished => exact ⟨#[], Array.append_empty.symm⟩
  | again _ _ _ ih => exact ih

end Run

end ChipLog
