/-
# Laps

A run without a limit plays laps.  The first lap begins where the player stands, and each further one
at the loop point.  A lap takes the stretch of commands that begins at its start and makes the
frames that these wait for (`play_of_stretch`); where no stretch begins, a fault stops the run
(`play_of_no_stretch`).

At the end of a lap the loop point may lie ahead or behind.  If it lies behind, going back to it
starts the stream again, so that all loops that are left are laps (`close_of_behind`).  If it
lies ahead, the stream stays at its end, and the loops that are left go by without a frame
(`close_of_ahead`).
-/
import ChipLog.Proofs.Playback.Rounds

namespace ChipLog

namespace Run

variable {σ : Type} [ChipEngine σ]
variable {engines : Factory σ} {image : ByteArray} {loopOffset limit : Option Nat} {loops : Nat}
  {run : Run σ} {start : Nat}

/-! ## 1. One lap -/

/-- A round that is not limited makes all the frames that its command waits for. -/
theorem play_of_wait {wanted : Nat}
    (h : (run.playback.step engines image).value.1 = .ok (.wait wanted)) :
    play engines image loopOffset none loops run =
      play engines image loopOffset none loops ((run.stepped engines image).rendered wanted) := by
  rw [play_eq, h]
  rfl

/-- A round takes a command that does not end the stream, makes the frames that it waits for, and goes
on behind it. -/
theorem play_of_command (engines : Factory σ) (loopOffset : Option Nat) (loops : Nat)
    {command : Command} {length : Nat} (h : Command.parse image start = .ok (command, length))
    (hne : command ≠ .endOfData) (hline : run.playback.timeline = ⟨start, false, false⟩) :
    play engines image loopOffset none loops run =
        play engines image loopOffset none loops
          ((run.stepped engines image).rendered command.duration) ∧
      ((run.stepped engines image).rendered command.duration).playback.timeline =
        ⟨start + length, false, false⟩ := by
  obtain ⟨hresult, hnext⟩ := timeline_stepped engines hline (Timeline.step_of_command h hne)
  exact ⟨play_of_wait hresult, (timeline_rendered _ _).trans hnext⟩

/-- **A lap.**  The run plays the stretch that begins where it stands, makes the frames that its
commands wait for, and is then at the end of the stream. -/
theorem play_of_stretch (engines : Factory σ) (loopOffset : Option Nat) (loops : Nat)
    {stretch : Command.Stretch} (h : Command.stretch? image start = some stretch)
    (hline : run.playback.timeline = ⟨start, false, false⟩) :
    ∃ lap : Run σ, play engines image loopOffset none loops run =
        close engines image loopOffset none loops lap ∧
      lap.playback.timeline = ⟨stretch.stop, true, false⟩ ∧
      lap.frames.size = run.frames.size + stretch.duration := by
  fun_induction Command.stretch? image start generalizing run stretch with
  | case1 => cases h
  | case2 start length hparse =>
    cases h
    obtain ⟨hresult, hnext⟩ := timeline_stepped engines hline
      (Timeline.step_of_endOfData hparse)
    exact ⟨_, play_of_endOfStream hresult, hnext, rfl⟩
  | case3 start command length hne hparse ih =>
    obtain ⟨rest, hrest, rfl⟩ := Option.map_eq_some_iff.mp h
    obtain ⟨hround, hnext⟩ := play_of_command engines loopOffset loops hparse hne hline
    obtain ⟨lap, hplay, hend, hsize⟩ := ih hrest hnext
    refine ⟨lap, hround.trans hplay, hend, ?_⟩
    rw [hsize, size_frames_rendered]
    show run.frames.size + command.duration + rest.duration = _
    rw [Nat.add_assoc]
    rfl

/-- Where no stretch begins, a fault stops the run. -/
theorem play_of_no_stretch (engines : Factory σ) (h : Command.stretch? image start = none)
    (hline : run.playback.timeline = ⟨start, false, false⟩) :
    ∃ fault, (play engines image loopOffset none loops run).1 = .fault fault := by
  fun_induction Command.stretch? image start generalizing run with
  | case1 start fault hparse =>
    obtain ⟨hresult, -⟩ := timeline_stepped engines hline
      (Timeline.step_of_error hparse)
    exact ⟨fault, by rw [play_of_fault hresult]⟩
  | case2 => cases h
  | case3 start command length hne hparse ih =>
    obtain ⟨hround, hnext⟩ := play_of_command engines loopOffset loops hparse hne hline
    rw [hround]
    exact ih (Option.map_eq_none_iff.mp h) hnext

/-! ## 2. All laps -/

/-- The loop point lies ahead of a place, if there is one at all. -/
def LiesAhead (loopOffset : Option Nat) (pos : Nat) : Prop :=
  ∀ offset, loopOffset = some offset → pos ≤ offset

/-- If the loop point lies ahead, going there does not start the stream again, and no more frames are
made however many loops are left. -/
theorem close_of_ahead {pos : Nat} (hline : run.playback.timeline = ⟨pos, true, false⟩)
    (hahead : LiesAhead loopOffset pos) :
    (close engines image loopOffset limit loops run).1 = .endOfStream ∧
      (close engines image loopOffset limit loops run).2.frames = run.frames := by
  cases loopOffset with
  | none => exact ⟨rfl, rfl⟩
  | some offset =>
    induction loops generalizing run pos with
    | zero => exact ⟨rfl, rfl⟩
    | succ loops ih =>
      have hsought : (run.sought offset).playback.timeline = ⟨offset, true, false⟩ := by
        have hnot : ¬ offset < pos := Nat.not_lt.mpr (hahead offset rfl)
        refine (timeline_seek offset run.playback).trans ?_
        rw [hline, Timeline.seek, if_neg hnot]
      obtain ⟨hresult, hnext⟩ := timeline_stepped engines hsought
        (@Timeline.step_of_ended image _ rfl rfl)
      have hround : close engines image (some offset) limit (loops + 1) run =
          close engines image (some offset) limit loops
            ((run.sought offset).stepped engines image) := play_of_endOfStream hresult
      rw [hround]
      exact ih hnext fun other hother => Nat.le_of_eq (Option.some.inj hother)

omit [ChipEngine σ] in
/-- Going back to the loop point starts the stream again. -/
theorem timeline_sought {offset pos : Nat} (hline : run.playback.timeline = ⟨pos, true, false⟩)
    (hbehind : offset < pos) :
    (run.sought offset).playback.timeline = ⟨offset, false, false⟩ := by
  refine (timeline_seek offset run.playback).trans ?_
  rw [hline, Timeline.seek, if_pos hbehind]

/-- **If the loop point lies behind, every loop that is left is a lap.** -/
theorem close_of_behind {lap : Command.Stretch} {offset pos : Nat}
    (hline : run.playback.timeline = ⟨pos, true, false⟩) (hbehind : offset < pos)
    (hlap : Command.stretch? image offset = some lap) :
    (close engines image (some offset) none loops run).1 = .endOfStream ∧
      (close engines image (some offset) none loops run).2.frames.size =
        run.frames.size + loops * lap.duration := by
  induction loops generalizing run pos with
  | zero => exact ⟨rfl, by rw [close_zero, Nat.zero_mul, Nat.add_zero]⟩
  | succ loops ih =>
    obtain ⟨next, hplay, hend, hsize⟩ := play_of_stretch engines (some offset) loops hlap
      (timeline_sought hline hbehind)
    have hround : close engines image (some offset) none (loops + 1) run =
        close engines image (some offset) none loops next := hplay
    obtain ⟨hending, hframes⟩ := ih hend (Command.stretch?_bounds hlap).1
    rw [hround]
    refine ⟨hending, ?_⟩
    have hfirst : (run.sought offset).frames = run.frames := rfl
    rw [hframes, hsize, hfirst, Nat.add_mul, Nat.one_mul]
    omega

/-- If no stretch begins at the loop point, a fault stops the run when it goes back there. -/
theorem close_of_no_lap {offset pos : Nat}
    (hline : run.playback.timeline = ⟨pos, true, false⟩) (hbehind : offset < pos)
    (hlap : Command.stretch? image offset = none) :
    ∃ fault, (close engines image (some offset) none (loops + 1) run).1 = .fault fault :=
  play_of_no_stretch engines hlap (timeline_sought hline hbehind)

/-! ## 3. Whole runs -/

/-- A run that makes one lap and is over, as there are no loops or the loop point lies ahead. -/
theorem play_of_ahead {first : Command.Stretch} (engines : Factory σ)
    (hline : run.playback.timeline = ⟨start, false, false⟩)
    (hfirst : Command.stretch? image start = some first)
    (hahead : loops = 0 ∨ LiesAhead loopOffset first.stop) :
    (play engines image loopOffset none loops run).1 = .endOfStream ∧
      (play engines image loopOffset none loops run).2.frames.size =
        run.frames.size + first.duration := by
  obtain ⟨lap, hplay, hend, hsize⟩ := play_of_stretch engines loopOffset loops hfirst hline
  rw [hplay, ← hsize]
  rcases hahead with rfl | hahead
  · rw [close_zero]
    exact ⟨rfl, rfl⟩
  · obtain ⟨hending, hframes⟩ := close_of_ahead hend hahead
    exact ⟨hending, by rw [hframes]⟩

/-- A run that makes one lap from its start, and one from the loop point for each loop. -/
theorem play_of_behind {first lap : Command.Stretch} {offset : Nat} (engines : Factory σ)
    (loops : Nat) (hline : run.playback.timeline = ⟨start, false, false⟩)
    (hfirst : Command.stretch? image start = some first) (hbehind : offset < first.stop)
    (hlap : Command.stretch? image offset = some lap) :
    (play engines image (some offset) none loops run).1 = .endOfStream ∧
      (play engines image (some offset) none loops run).2.frames.size =
        run.frames.size + (first.duration + loops * lap.duration) := by
  obtain ⟨next, hplay, hend, hsize⟩ := play_of_stretch engines (some offset) loops hfirst hline
  rw [hplay, ← Nat.add_assoc, ← hsize]
  exact close_of_behind hend hbehind hlap

/-- A run that makes one lap and then finds no stretch at the loop point. -/
theorem play_of_no_lap {first : Command.Stretch} {offset : Nat} (engines : Factory σ)
    (hline : run.playback.timeline = ⟨start, false, false⟩)
    (hfirst : Command.stretch? image start = some first) (hbehind : offset < first.stop)
    (hlap : Command.stretch? image offset = none) (hloops : 0 < loops) :
    ∃ fault, (play engines image (some offset) none loops run).1 = .fault fault := by
  obtain ⟨next, hplay, hend, -⟩ := play_of_stretch engines (some offset) loops hfirst hline
  rw [hplay, ← Nat.succ_pred_eq_of_pos hloops]
  exact close_of_no_lap hend hbehind hlap

end Run

end ChipLog
