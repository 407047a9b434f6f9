/-
# The mix

Chips are added to a total one after the other, and each new total is limited to sixteen bits.  A chip
that is switched off adds silence.  Adding silence limits the total once more and nothing else, and
a total that has been limited stays as it is (`RawFrame.Limited.mix_silence`).  Every total that can
occur has been limited, since the first one is silence.

So the chips that are switched off might as well not be there: the output of a board is the sum over
the others (`Board.output_eq_sum_heard`).
-/
import ChipLog.Proofs.Board.Sites

namespace ChipLog

/-! ## 1. Totals -/

/-- What has been limited stays as it is. -/
theorem clamp16_clamp16 (x : Int32) : clamp16 (clamp16 x) = clamp16 x := by
  unfold clamp16
  by_cases hlow : x < -32768
  · rw [if_pos hlow]
    decide
  · by_cases hhigh : 32767 < x
    · rw [if_neg hlow, if_pos hhigh]
      decide
    · rw [if_neg hlow, if_neg hhigh, if_neg hlow, if_neg hhigh]

theorem addSaturating_zero (x : Int32) : addSaturating x 0 = x := by
  have hsum : x + 0 = x := Int32.add_zero x
  unfold addSaturating
  rw [hsum, if_pos (by decide), if_neg Int32.lt_irrefl]

/-- To add nothing is to limit the total. -/
theorem mixSample_zero (total : Int32) : mixSample total 0 = clamp16 total := by
  rw [mixSample, show clamp16 0 = 0 by decide, addSaturating_zero]

/-- A new total has been limited. -/
theorem clamp16_mixSample (total sample : Int32) :
    clamp16 (mixSample total sample) = mixSample total sample := by
  rw [mixSample, clamp16_clamp16]

namespace RawFrame

/-- A total that limiting does not change. -/
structure Limited (total : RawFrame) : Prop where
  left : clamp16 total.left = total.left
  right : clamp16 total.right = total.right

theorem limited_silence : silence.Limited := ⟨by decide, by decide⟩

/-- Every sum is limited. -/
theorem limited_mix (total sample : RawFrame) : (total.mix sample).Limited := by
  constructor
  · simp only [mix, clamp16_mixSample]
  · simp only [mix, clamp16_mixSample]

/-- **Silence adds nothing** to a total that is limited. -/
theorem Limited.mix_silence {total : RawFrame} (h : total.Limited) :
    total.mix silence = total := by
  obtain ⟨left, right⟩ := total
  simp only [mix, silence, mixSample_zero, mk.injEq]
  exact ⟨h.left, h.right⟩

end RawFrame

/-! ## 2. Sums over some of the chips -/

variable {σ : Type} [ChipEngine σ]

namespace Socket

theorem limited_mixOutput {total : RawFrame} (h : total.Limited) (socket : Socket σ) :
    (socket.mixOutput total).Limited := by
  unfold mixOutput
  split
  · exact RawFrame.limited_mix _ _
  · exact h

/-- A socket that is switched off leaves a total as it is. -/
theorem mixOutput_of_muted {total : RawFrame} {socket : Socket σ} (htotal : total.Limited)
    (h : socket.audible = false) : socket.mixOutput total = total := by
  have houtput : socket.output = .silence := by
    unfold output
    rw [h]
    split <;> rfl
  unfold mixOutput
  rw [houtput, htotal.mix_silence, ite_self]

/-- So does a socket without an engine, and any total at that. -/
theorem mixOutput_of_inactive (total : RawFrame) {socket : Socket σ}
    (h : socket.isActive = false) : socket.mixOutput total = total := by
  rw [mixOutput, h, if_neg Bool.false_ne_true]

end Socket

namespace Board

/-- What is added to a total by some of the sites, one after the other. -/
def addTo (total : RawFrame) (sites : List Site) (board : Board σ) : RawFrame :=
  sites.foldl (fun total site => (board.socket site).mixOutput total) total

/-- The sites that are not switched off, in mixing order. -/
def heard {σ : Type} (board : Board σ) : List Site :=
  Site.all.filter fun site => (board.socket site).audible

/-- Sites that leave every limited total as it is can be left out of a sum. -/
theorem addTo_filter {board : Board σ} {counts : Site → Bool}
    (hidle : ∀ site, counts site = false → ∀ {total : RawFrame}, total.Limited →
      (board.socket site).mixOutput total = total)
    {total : RawFrame} (h : total.Limited) (sites : List Site) :
    board.addTo total (sites.filter counts) = board.addTo total sites := by
  induction sites generalizing total with
  | nil => rfl
  | cons site sites ih =>
    have hsum : board.addTo total (site :: sites) =
        board.addTo ((board.socket site).mixOutput total) sites := rfl
    rw [hsum, ← ih (Socket.limited_mixOutput h _), List.filter_cons]
    cases hcounts : counts site with
    | true => rfl
    | false => rw [if_neg Bool.false_ne_true, hidle site hcounts h]

/-- **The output is the sum over the chips that are not switched off.** -/
theorem output_eq_sum_heard (board : Board σ) :
    board.output = board.addTo .silence board.heard := by
  rw [heard, addTo_filter (fun _ hmuted _ htotal => Socket.mixOutput_of_muted htotal hmuted)
    RawFrame.limited_silence]
  exact board.output_eq_foldl

end Board

end ChipLog
