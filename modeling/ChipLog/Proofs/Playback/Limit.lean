/-
# A limit of frames

A run with a limit stops as soon as it has made that many frames, in the middle of a wait if need be.
This module compares it with the run that has no limit.  As long as there is room for all the
frames that are wanted, the two go on in step, round by round.  In the first wait for which
there is no room, the run with the limit makes those frames of it that still fit and stops
(`rendered_granted`); the other run keeps them as the beginning of what it makes
(`Plays.frames_extend`).

Main statement: the run with the limit makes the first frames of the run without it, if that makes
as many, and else it is the same run with the same end (`Plays.limited`).
-/
import ChipLog.Proofs.Playback.Rounds

namespace ChipLog

namespace Run

variable {σ : Type} [ChipEngine σ]
variable {engines : Factory σ} {image : ByteArray} {loopOffset limit : Option Nat} {loops : Nat}
  {run last : Run σ} {ending : Ending}

/-! ## 1. Frames that are granted -/

/-- No more frames are granted than are wanted. -/
theorem granted_le (limit : Option Nat) (made wanted : Nat) : granted limit made wanted ≤ wanted := by
  cases limit with
  | none => exact Nat.le_refl _
  | some most => exact Nat.min_le_left _ _

theorem granted_of_room {most made wanted : Nat} (h : made + wanted ≤ most) :
    granted (some most) made wanted = wanted := by
  unfold granted
  dsimp only
  omega

theorem isFull_iff {most made : Nat} : isFull (some most) made = true ↔ most ≤ made :=
  decide_eq_true_iff

/-- The first frames of a longer row are the row it begins with. -/
theorem take_append {first rest : Array StereoFrame} {count : Nat} (h : first.size = count) :
    (first ++ rest).take count = first := by
  rw [← h, Array.take, Array.extract_append_left, Array.extract_size]

/-- Frames that are made first come first. -/
theorem frames_rendered_add (run : Run σ) (first second : Nat) :
    ∃ more, (run.rendered (first + second)).frames = (run.rendered first).frames ++ more := by
  have hadd := Board.render_add run.frames run.playback.deck.board first second
  rw [Board.render_eq_append (Board.render run.frames _ first).1] at hadd
  exact ⟨_, congrArg Prod.fst hadd⟩

/-- Where there is not room for all, the frames that are granted are the first ones, and they fill the
room. -/
theorem rendered_granted {most wanted : Nat} (run : Run σ) (hroom : run.frames.size ≤ most)
    (hmost : most ≤ run.frames.size + wanted) :
    (run.rendered (granted (some most) run.frames.size wanted)).frames.size = most ∧
      ∃ more, (run.rendered wanted).frames =
        (run.rendered (granted (some most) run.frames.size wanted)).frames ++ more := by
  have hgranted : granted (some most) run.frames.size wanted = most - run.frames.size := by
    unfold granted
    dsimp only
    omega
  rw [hgranted]
  refine ⟨by rw [size_frames_rendered]; omega, ?_⟩
  have hwanted : wanted = (most - run.frames.size) + (run.frames.size + wanted - most) := by omega
  have hadd := frames_rendered_add run (most - run.frames.size) (run.frames.size + wanted - most)
  rwa [← hwanted] at hadd

/-! ## 2. Runs with and without a limit -/

/-- A run without a limit makes no fewer frames than it has. -/
theorem Plays.size_le (h : Plays engines image loopOffset limit loops run ending last) :
    run.frames.size ≤ last.frames.size := by
  obtain ⟨more, hmore⟩ := h.frames_extend
  rw [hmore, Array.size_append]
  exact Nat.le_add_right _ _

/-- **A limit only truncates.** -/
theorem Plays.limited {most : Nat}
    (h : Plays engines image loopOffset none loops run ending last)
    (hroom : run.frames.size < most) :
    (most ≤ last.frames.size →
      (play engines image loopOffset (some most) loops run).1 = .limit ∧
      (play engines image loopOffset (some most) loops run).2.frames = last.frames.take most) ∧
    (last.frames.size < most →
      play engines image loopOffset (some most) loops run = (ending, last)) := by
  induction h with
  | fault hstep =>
    constructor
    · intro hmost
      exact absurd hroom (Nat.not_lt.mpr hmost)
    · intro _
      rw [play_eq, hstep]
  | full hstep hfull => cases hfull
  | @wait loops run last wanted ending hstep _ rest ih =>
    have hsize := size_frames_rendered wanted (run.stepped engines image)
    have hframes : (run.stepped engines image).frames = run.frames := rfl
    rw [hframes] at hsize
    have hround := play_eq engines image loopOffset (some most) loops run
    simp only [hstep] at hround
    by_cases hfits : run.frames.size + wanted < most
    · -- there is room, and both runs make all the frames
      have hnot : isFull (some most)
          ((run.stepped engines image).rendered wanted).frames.size = false := by
        rw [Bool.eq_false_iff, Ne, isFull_iff]
        omega
      rw [granted_of_room (Nat.le_of_lt hfits), if_neg (by rw [hnot]; decide)] at hround
      rw [hround]
      exact ih (hsize ▸ hfits)
    · -- there is not, and the run with the limit stops here
      obtain ⟨hfull, more, hmore⟩ := rendered_granted (run.stepped engines image)
        (Nat.le_of_lt hroom) (Nat.not_lt.mp hfits)
      obtain ⟨others, hothers⟩ := rest.frames_extend
      rw [hframes] at hfull hmore
      rw [if_pos (isFull_iff.mpr (Nat.le_of_eq hfull.symm))] at hround
      constructor
      · intro _
        refine ⟨by rw [hround], ?_⟩
        have htake : last.frames = ((run.stepped engines image).rendered
            (granted (some most) run.frames.size wanted)).frames ++ (more ++ others) := by
          rw [hothers, ← Array.append_assoc, ← hmore]
          rfl
        rw [hround, htake]
        exact (take_append hfull).symm
      · intro hlast
        have hle := rest.size_le
        have hgranted : granted none run.frames.size wanted = wanted := rfl
        rw [hgranted, hsize] at hle
        omega
  | finished hstep hlast =>
    constructor
    · intro hmost
      exact absurd hroom (Nat.not_lt.mpr hmost)
    · intro _
      rw [play_eq, hstep]
      dsimp only
      rcases hlast with rfl | rfl
      · rfl
      · exact close_zero _ _ _ _ _
  | @again loops run last offset ending hstep hoffset _ ih =>
    have hround := play_eq engines image loopOffset (some most) (loops + 1) run
    rw [hstep] at hround
    rw [hround]
    subst hoffset
    exact ih hroom

end Run

/-- The same of a session that is played from its start. -/
theorem Session.play_limited {σ : Type} [ChipEngine σ] (loops : Nat) {most : Nat}
    (hmost : 0 < most) (session : Session σ) :
    (most ≤ (session.play loops none).2.frames.size →
      (session.play loops (some most)).1 = .limit ∧
      (session.play loops (some most)).2.frames = (session.play loops none).2.frames.take most) ∧
    ((session.play loops none).2.frames.size < most →
      session.play loops (some most) = session.play loops none) :=
  (Run.plays_play session.engines session.image session.header.loopOffset none loops
    { playback := session.playback }).limited hmost

end ChipLog
