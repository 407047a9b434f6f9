/-
# The mix in exact numbers

A board adds up machine words, stops at the ends of their range, and limits every total to sixteen
bits.  This module says what that comes to in integers: each side of a frame is the sum of the
levels of the chips, in mixing order, where every level and every total is limited
(`Board.tick_eq_sumLimited`).  No word ever wraps around on the way, and narrowing the last total
loses nothing.

Limited sums keep their order (`sumLimited_mono`), and as long as no total reaches the limits they
are plain sums (`sumLimited_eq_sum`).

Main statement: `Board.tick_adds_levels`.
-/
import Mathlib.Algebra.Ring.Int.Defs
import ChipLog.Proofs.Board.Mixing

namespace ChipLog

/-! ## 1. Limited sums of integers -/

/-- Limit an integer to the signed 16-bit range. -/
def limit16 (n : Int) : Int := max (-32768) (min n 32767)

/-- Add a level to a total; both are limited. -/
def addLimited (total level : Int) : Int := limit16 (total + limit16 level)

/-- Add up levels from the front. -/
def sumLimited (levels : List Int) : Int := levels.foldl addLimited 0

/-- An integer that sixteen bits can hold. -/
def Fits16 (n : Int) : Prop := -32768 ≤ n ∧ n ≤ 32767

theorem fits16_limit16 (n : Int) : Fits16 (limit16 n) := by
  unfold Fits16 limit16
  omega

theorem limit16_of_fits {n : Int} (h : Fits16 n) : limit16 n = n := by
  unfold Fits16 at h
  unfold limit16
  omega

theorem limit16_mono {m n : Int} (h : m ≤ n) : limit16 m ≤ limit16 n := by
  unfold limit16
  omega

theorem addLimited_mono {total total' level level' : Int} (htotal : total ≤ total')
    (hlevel : level ≤ level') : addLimited total level ≤ addLimited total' level' :=
  limit16_mono (Int.add_le_add htotal (limit16_mono hlevel))

theorem fits16_foldl {total : Int} (htotal : Fits16 total) (levels : List Int) :
    Fits16 (levels.foldl addLimited total) := by
  induction levels generalizing total with
  | nil => exact htotal
  | cons level levels ih => exact ih (fits16_limit16 _)

theorem fits16_sumLimited (levels : List Int) : Fits16 (sumLimited levels) :=
  fits16_foldl ⟨by decide, by decide⟩ levels

theorem foldl_addLimited_mono {α : Type} {f g : α → Int} (sites : List α)
    (h : ∀ site ∈ sites, f site ≤ g site) {total total' : Int} (htotal : total ≤ total') :
    (sites.map f).foldl addLimited total ≤ (sites.map g).foldl addLimited total' := by
  induction sites generalizing total total' with
  | nil => exact htotal
  | cons site sites ih =>
    exact ih (fun other hother => h other (List.mem_cons_of_mem _ hother))
      (addLimited_mono htotal (h site List.mem_cons_self))

/-- **A limited sum keeps the order**: to raise any of the levels never lowers it. -/
theorem sumLimited_mono {α : Type} {f g : α → Int} {sites : List α}
    (h : ∀ site ∈ sites, f site ≤ g site) :
    sumLimited (sites.map f) ≤ sumLimited (sites.map g) :=
  foldl_addLimited_mono sites h (Int.le_refl 0)

/-- From a total on, as long as the plain totals fit, limiting them changes nothing. -/
theorem foldl_addLimited_eq_sum {total : Int} (levels : List Int)
    (h : ∀ n, Fits16 (total + ((levels.map limit16).take n).sum)) :
    levels.foldl addLimited total = total + (levels.map limit16).sum := by
  induction levels generalizing total with
  | nil => simp
  | cons level levels ih =>
    have hfirst : addLimited total level = total + limit16 level :=
      limit16_of_fits (by simpa using h 1)
    rw [List.foldl_cons, hfirst, ih fun n => ?_, List.map_cons, List.sum_cons, Int.add_assoc]
    simpa [Int.add_assoc] using h (n + 1)

/-- **As long as no total reaches the limits, a limited sum is the plain sum.** -/
theorem sumLimited_eq_sum {levels : List Int}
    (h : ∀ n, Fits16 ((levels.map limit16).take n).sum) :
    sumLimited levels = (levels.map limit16).sum := by
  have hfits : ∀ n, Fits16 (0 + ((levels.map limit16).take n).sum) := fun n => by simpa using h n
  have hsum := foldl_addLimited_eq_sum levels hfits
  rwa [Int.zero_add] at hsum

/-! ## 2. Words -/

theorem toInt_clamp16 (x : Int32) : (clamp16 x).toInt = limit16 x.toInt := by
  have hlow : x < -32768 ↔ x.toInt < -32768 := Int32.lt_iff_toInt_lt
  have hhigh : 32767 < x ↔ 32767 < x.toInt := Int32.lt_iff_toInt_lt
  unfold clamp16 limit16
  split
  case isTrue h =>
    rw [hlow] at h
    rw [show (-32768 : Int32).toInt = -32768 by decide]
    omega
  case isFalse h =>
    rw [hlow] at h
    split
    case isTrue h' =>
      rw [hhigh] at h'
      rw [show (32767 : Int32).toInt = 32767 by decide]
      omega
    case isFalse h' =>
      rw [hhigh] at h'
      omega

/-- Saturating addition is exact addition, stopped at the ends of the range. -/
theorem toInt_addSaturating (a b : Int32) :
    (addSaturating a b).toInt = max (-2 ^ 31) (min (a.toInt + b.toInt) (2 ^ 31 - 1)) := by
  have ha := Int32.le_toInt a
  have ha' := Int32.toInt_lt a
  have hb := Int32.le_toInt b
  have hb' := Int32.toInt_lt b
  have hsum : (a + b).toInt = (a.toInt + b.toInt).bmod (2 ^ 32) := Int32.toInt_add a b
  have hsign : 0 ≤ b ↔ 0 ≤ b.toInt := Int32.le_iff_toInt_le
  have hwrap : a + b < a ↔ (a + b).toInt < a.toInt := Int32.lt_iff_toInt_lt
  have hwrap' : a < a + b ↔ a.toInt < (a + b).toInt := Int32.lt_iff_toInt_lt
  rw [Int.bmod_def] at hsum
  unfold addSaturating
  simp only [hsign, hwrap, hwrap']
  split
  case isTrue h =>
    split
    case isTrue => rw [show Int32.maxValue.toInt = 2 ^ 31 - 1 by decide]; omega
    case isFalse => omega
  case isFalse h =>
    split
    case isTrue => rw [show Int32.minValue.toInt = -2 ^ 31 by decide]; omega
    case isFalse => omega

/-- **Mixing a sample into a total is limited addition**, whatever the two words are. -/
theorem toInt_mixSample (total sample : Int32) :
    (mixSample total sample).toInt = addLimited total.toInt sample.toInt := by
  rw [mixSample, toInt_clamp16, toInt_addSaturating, toInt_clamp16, addLimited]
  have hsample := fits16_limit16 sample.toInt
  unfold Fits16 at hsample
  unfold limit16 at hsample ⊢
  omega

/-- Narrowing a word to sixteen bits loses nothing if it fits. -/
theorem toInt_toInt16_of_fits {x : Int32} (h : Fits16 x.toInt) : x.toInt16.toInt = x.toInt := by
  unfold Fits16 at h
  rw [Int32.toInt_toInt16]
  exact Int.bmod_eq_of_le (by omega) (by omega)

/-! ## 3. Sides -/

/-- The two sides of a frame. -/
inductive Side
  | left
  | right
  deriving DecidableEq

/-- One side of a sample, as an integer. -/
def RawFrame.on (side : Side) (frame : RawFrame) : Int :=
  match side with
  | .left => frame.left.toInt
  | .right => frame.right.toInt

/-- One side of a frame of output, as an integer. -/
def StereoFrame.on (side : Side) (frame : StereoFrame) : Int :=
  match side with
  | .left => frame.left.toInt
  | .right => frame.right.toInt

theorem RawFrame.on_silence (side : Side) : silence.on side = 0 := by
  cases side <;> decide

theorem RawFrame.on_mix (side : Side) (total sample : RawFrame) :
    (total.mix sample).on side = addLimited (total.on side) (sample.on side) := by
  cases side with
  | left => exact toInt_mixSample total.left sample.left
  | right => exact toInt_mixSample total.right sample.right

theorem RawFrame.on_narrow {side : Side} {total : RawFrame} (h : Fits16 (total.on side)) :
    total.narrow.on side = total.on side := by
  cases side with
  | left => exact toInt_toInt16_of_fits h
  | right => exact toInt_toInt16_of_fits h

/-! ## 4. Boards -/

variable {σ τ : Type} [ChipEngine σ] [ChipEngine τ]

/-- What a chip delivers to a side of the next frame: the sample of its engine after the clocks of
the frame, nothing if it is switched off. -/
def Socket.level (side : Side) (socket : Socket σ) : Int :=
  match socket.voice with
  | some voice => if socket.audible then (ChipEngine.sample voice.advance.engine).on side else 0
  | none => 0

namespace Board

/-- The sites that have an engine, in mixing order. -/
def occupied {σ : Type} (board : Board σ) : List Site :=
  Site.all.filter fun site => (board.socket site).isActive

/-- What the chips deliver to a side of the next frame, in mixing order. -/
def levels (side : Side) (board : Board σ) : List Int :=
  board.occupied.map fun site => (board.socket site).level side

/-- The total after the first `count` chips of the next frame. -/
def runningTotal (count : Nat) (board : Board σ) : RawFrame :=
  board.advance.addTo .silence (board.occupied.take count)

theorem on_output_advance (side : Side) (socket : Socket σ) :
    socket.advance.output.on side = socket.level side := by
  cases hvoice : socket.voice with
  | none => simp [Socket.output, Socket.advance, Socket.level, hvoice, RawFrame.on_silence]
  | some voice =>
    cases haudible : socket.audible with
    | false =>
      simp [Socket.output, Socket.advance, Socket.level, hvoice, haudible, RawFrame.on_silence]
    | true => simp [Socket.output, Socket.advance, Socket.level, hvoice, haudible, Voice.output]

theorem occupied_advance (board : Board σ) : board.advance.occupied = board.occupied := by
  simp only [occupied, socket_advance, Socket.isActive_advance]

/-- Each chip adds its level to the totals of the sides. -/
theorem on_addTo_advance (side : Side) (board : Board σ) (sites : List Site)
    (hactive : ∀ site ∈ sites, (board.socket site).isActive = true) (total : RawFrame) :
    (board.advance.addTo total sites).on side =
      (sites.map fun site => (board.socket site).level side).foldl addLimited (total.on side) := by
  induction sites generalizing total with
  | nil => rfl
  | cons site sites ih =>
    have hsum : board.advance.addTo total (site :: sites) =
        board.advance.addTo ((board.advance.socket site).mixOutput total) sites := rfl
    have hmix : ((board.advance.socket site).mixOutput total).on side =
        addLimited (total.on side) ((board.socket site).level side) := by
      rw [socket_advance, Socket.mixOutput, Socket.isActive_advance,
        hactive site List.mem_cons_self, if_pos rfl, RawFrame.on_mix, on_output_advance]
    rw [hsum, ih (fun other hother => hactive other (List.mem_cons_of_mem _ hother)), hmix]
    rfl

/-- The totals of a side are the limited sums of the first levels. -/
theorem on_runningTotal (side : Side) (board : Board σ) (count : Nat) :
    (board.runningTotal count).on side = sumLimited ((board.levels side).take count) := by
  have hactive : ∀ site ∈ board.occupied.take count, (board.socket site).isActive = true :=
    fun site hsite => (List.mem_filter.mp (List.mem_of_mem_take hsite)).2
  rw [runningTotal, on_addTo_advance side board _ hactive, RawFrame.on_silence, levels,
    ← List.map_take]
  rfl

/-- The output is the total after all chips. -/
theorem output_advance_eq (board : Board σ) :
    board.advance.output = board.runningTotal board.occupied.length := by
  rw [runningTotal, List.take_length, ← occupied_advance, occupied,
    addTo_filter (fun _ hinactive _ _ => Socket.mixOutput_of_inactive _ hinactive)
      RawFrame.limited_silence]
  exact board.advance.output_eq_foldl

theorem on_output_advance_eq (side : Side) (board : Board σ) :
    board.advance.output.on side = sumLimited (board.levels side) := by
  have hlength : board.occupied.length = (board.levels side).length :=
    (List.length_map _).symm
  rw [output_advance_eq, on_runningTotal, hlength, List.take_length]

/-- **A side of a frame is the limited sum of the levels.** -/
theorem tick_eq_sumLimited (side : Side) (board : Board σ) :
    board.tick.1.on side = sumLimited (board.levels side) := by
  have houtput := on_output_advance_eq side board
  have hfits : Fits16 (board.advance.output.on side) := by
    rw [houtput]
    exact fits16_sumLimited _
  exact (RawFrame.on_narrow hfits).trans houtput

/-- **What a frame of output is, in exact numbers.**  A sample is added to a total as integers are,
with both limited to sixteen bits.  Each side of a frame is the sum, in this way, of what the chips
with an engine deliver after their clocks, in mixing order.  Every total on the way fits into
sixteen bits, and the last one is the output.  Where no plain total leaves the range the output is
the plain sum of the limited levels; and a board whose chips deliver no less outputs no less. -/
theorem tick_adds_levels :
    (∀ total sample : Int32,
      (mixSample total sample).toInt = limit16 (total.toInt + limit16 sample.toInt)) ∧
    ∀ (board : Board σ) (side : Side),
      board.tick.1.on side =
        (board.levels side).foldl (fun total level => limit16 (total + limit16 level)) 0 ∧
      (∀ count,
        (board.runningTotal count).on side =
          ((board.levels side).take count).foldl
            (fun total level => limit16 (total + limit16 level)) 0 ∧
        -32768 ≤ (board.runningTotal count).on side ∧
        (board.runningTotal count).on side ≤ 32767) ∧
      board.advance.output = board.runningTotal (board.levels side).length ∧
      board.tick.1.on side = board.advance.output.on side ∧
      ((∀ count, -32768 ≤ (((board.levels side).map limit16).take count).sum ∧
          (((board.levels side).map limit16).take count).sum ≤ 32767) →
        board.tick.1.on side = ((board.levels side).map limit16).sum) ∧
      ∀ louder : Board τ,
        (∀ site, (louder.socket site).isActive = (board.socket site).isActive) →
        (∀ site, (board.socket site).level side ≤ (louder.socket site).level side) →
        board.tick.1.on side ≤ louder.tick.1.on side := by
  refine ⟨toInt_mixSample, fun board side => ⟨tick_eq_sumLimited side board, fun count => ?_, ?_,
    ?_, fun hplain => ?_, fun louder hactive hlevel => ?_⟩⟩
  · have hfits : Fits16 ((board.runningTotal count).on side) := by
      rw [on_runningTotal]
      exact fits16_sumLimited _
    exact ⟨on_runningTotal side board count, hfits.1, hfits.2⟩
  · rw [output_advance_eq, levels, List.length_map]
  · rw [tick_eq_sumLimited, on_output_advance_eq]
  · rw [tick_eq_sumLimited]
    exact sumLimited_eq_sum hplain
  · have hoccupied : louder.occupied = board.occupied := by
      simp only [occupied, hactive]
    rw [tick_eq_sumLimited, tick_eq_sumLimited, levels, levels, hoccupied]
    exact sumLimited_mono fun site _ => hlevel site

end Board

/-- An engine that delivers one and the same sample, and is never clocked. -/
structure Drone where
  frame : RawFrame

instance : ChipEngine Drone where
  sampleRate _ _ := 0
  start _ engine := engine
  writeBus _ _ engine := engine
  clock engine := engine
  sample engine := engine.frame

namespace Board

/-- A board with two loud SN76489 and a YM2413 that is louder still, the other way. -/
def loudBoard : Board Drone :=
  ((empty.setSocket ⟨.sn76489, .primary⟩ ⟨some ⟨⟨30000, 0⟩, 1, 0, 0⟩, true⟩).setSocket
    ⟨.sn76489, .secondary⟩ ⟨some ⟨⟨30000, 0⟩, 1, 0, 0⟩, true⟩).setSocket
    ⟨.ym2413, .primary⟩ ⟨some ⟨⟨-40000, 0⟩, 1, 0, 0⟩, true⟩

/-- An engine that is never clocked delivers its sample. -/
theorem level_drone (side : Side) (frame : RawFrame) (hz : UInt32) :
    Socket.level side ⟨some ⟨(⟨frame⟩ : Drone), hz, 0, 0⟩, true⟩ = frame.on side := by
  simp [Socket.level, Voice.advance, Voice.catchUp, ChipEngine.sample]

theorem levels_loudBoard : loudBoard.levels .left = [30000, 30000, -40000] := by
  have hoccupied : loudBoard.occupied =
      [⟨.sn76489, .primary⟩, ⟨.sn76489, .secondary⟩, ⟨.ym2413, .primary⟩] := by decide
  have hpsg : loudBoard.socket ⟨.sn76489, .primary⟩ = ⟨some ⟨⟨⟨30000, 0⟩⟩, 1, 0, 0⟩, true⟩ := rfl
  have hsecond : loudBoard.socket ⟨.sn76489, .secondary⟩ = ⟨some ⟨⟨⟨30000, 0⟩⟩, 1, 0, 0⟩, true⟩ :=
    rfl
  have hfm : loudBoard.socket ⟨.ym2413, .primary⟩ = ⟨some ⟨⟨⟨-40000, 0⟩⟩, 1, 0, 0⟩, true⟩ := rfl
  rw [levels, hoccupied, List.map_cons, List.map_cons, List.map_cons, hpsg, hsecond, hfm,
    level_drone, level_drone]
  rfl

/-- Two of them reach the upper limit together, and the third takes the total down from there. -/
theorem loudBoard_adds_levels : loudBoard.tick.1.on .left = -1 := by
  obtain ⟨hsum, -⟩ := (@tick_adds_levels Drone Drone _ _).2 loudBoard .left
  rw [hsum, levels_loudBoard]
  decide

end Board

end ChipLog
