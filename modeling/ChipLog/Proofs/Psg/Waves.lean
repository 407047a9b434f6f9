/-
# Waves

An oscillator counts down from wherever its counter stands, turns its level over, and from then on turns
it over once in every period.  So what it does in any number of clocks can be said without going through
them one by one.

While nothing is written, the periods stay as they are and so does the kind of the noise.  So after any
number of clocks

* an oscillator has turned over `Oscillator.turns` times and its counter stands at
  `Oscillator.counterAfter` (`Oscillator.iterate_clock`);
* the noise has taken a step with every other turn of its pace, beginning with the first one if the
  pace was low and with the second one if it was high (`noiseStepsIn_eq`);
* a tone whose period is at least 2 is a square wave: each half of it has as many clocks as the period, for
  however long it sounds (`Oscillator.turns_of_half`).

Main statement: `Psg.waves_in_closed_form`, for a chip in any state.
-/
import ChipLog.Proofs.Psg.Noise
import Mathlib.Algebra.Group.Nat.Even
import Mathlib.Logic.Function.Iterate

namespace ChipLog.Psg

/-! ## 1. Counting turns -/

namespace Oscillator

/-- How often an oscillator turns over in `clocks` clocks when its counter stands at `counter`.  A counter at
zero has as far to go as one at one. -/
def turns (period counter clocks : Nat) : Nat :=
  if clocks < max 1 counter then 0 else 1 + (clocks - max 1 counter) / period

/-- Where the counter stands after `clocks` clocks. -/
def counterAfter (period counter clocks : Nat) : Nat :=
  if clocks < max 1 counter then counter - clocks
  else period - (clocks - max 1 counter) % period

section Arithmetic

variable {period counter clocks : Nat}

theorem turns_zero : turns period counter 0 = 0 := if_pos (by omega)

theorem counterAfter_zero : counterAfter period counter 0 = counter := if_pos (by omega)

/-- One more clock completes a period, or it does not. -/
theorem div_mod_succ (hperiod : 1 ≤ period) (n : Nat) :
    (n % period + 1 = period ∧ (n + 1) / period = n / period + 1 ∧ (n + 1) % period = 0) ∨
      (n % period + 1 < period ∧ (n + 1) / period = n / period ∧
        (n + 1) % period = n % period + 1) := by
  have hsplit := Nat.mod_add_div n period
  have hlt := Nat.mod_lt n hperiod
  rcases Nat.lt_or_eq_of_le (Nat.succ_le_of_lt hlt) with hinside | hends
  · refine .inr ⟨hinside, (Nat.div_mod_unique hperiod).mpr ⟨?_, hinside⟩⟩
    omega
  · refine .inl ⟨hends, (Nat.div_mod_unique hperiod).mpr ⟨?_, hperiod⟩⟩
    rw [Nat.mul_succ]
    omega

/-- **One more clock.**  At the end of its count an oscillator turns over and starts again; otherwise it counts
down. -/
theorem turns_succ_cases (hperiod : 1 ≤ period) :
    (counterAfter period counter clocks ≤ 1 ∧
      turns period counter (clocks + 1) = turns period counter clocks + 1 ∧
      counterAfter period counter (clocks + 1) = period) ∨
    (1 < counterAfter period counter clocks ∧
      turns period counter (clocks + 1) = turns period counter clocks ∧
      counterAfter period counter (clocks + 1) = counterAfter period counter clocks - 1) := by
  unfold turns counterAfter
  rcases Nat.lt_trichotomy (clocks + 1) (max 1 counter) with hbefore | hfirst | hafter
  · have hnow : clocks < max 1 counter := by omega
    rw [if_pos hnow, if_pos hnow, if_pos hbefore, if_pos hbefore]
    exact .inr ⟨by omega, rfl, by omega⟩
  · have hnow : clocks < max 1 counter := by omega
    have hnext : ¬ clocks + 1 < max 1 counter := by omega
    rw [if_pos hnow, if_pos hnow, if_neg hnext, if_neg hnext, hfirst, Nat.sub_self, Nat.zero_div,
      Nat.zero_mod]
    exact .inl ⟨by omega, rfl, rfl⟩
  · have hnow : ¬ clocks < max 1 counter := by omega
    have hnext : ¬ clocks + 1 < max 1 counter := by omega
    have hstep : clocks + 1 - max 1 counter = clocks - max 1 counter + 1 := by omega
    rw [if_neg hnow, if_neg hnow, if_neg hnext, if_neg hnext, hstep]
    rcases div_mod_succ hperiod (clocks - max 1 counter) with ⟨hends, hdiv, hmod⟩ | ⟨hruns, hdiv, hmod⟩
    · rw [hdiv, hmod]
      exact .inl ⟨by omega, by omega, rfl⟩
    · rw [hdiv, hmod]
      exact .inr ⟨by omega, rfl, by omega⟩

/-- After the first turn there is one for each period, and none in between. -/
theorem turns_of_half {rest : Nat} (hrest : rest < period) (half : Nat) :
    turns period counter (max 1 counter + half * period + rest) = half + 1 := by
  have hdiv : (half * period + rest) / period = half := by
    rw [Nat.mul_comm, Nat.mul_add_div (Nat.zero_lt_of_lt hrest), Nat.div_eq_of_lt hrest, Nat.add_zero]
  rw [turns, if_neg (by omega), Nat.add_assoc, Nat.add_sub_cancel_left, hdiv, Nat.add_comm]

/-- A level that has been turned over `turned` times. -/
theorem iterate_not (turned : Nat) (level : Bool) :
    not^[turned] level = (level ^^ turned.bodd) := by
  induction turned with
  | zero => simp
  | succ turned ih => simp [Function.iterate_succ_apply', ih]

end Arithmetic

/-- **An oscillator after any number of clocks.** -/
theorem iterate_clock {period : Nat} (hperiod : 1 ≤ period) (osc : Oscillator) (clocks : Nat) :
    (clock period)^[clocks] osc =
      ⟨counterAfter period osc.counter clocks, not^[turns period osc.counter clocks] osc.high⟩ := by
  induction clocks with
  | zero =>
    rw [counterAfter_zero, turns_zero]
    rfl
  | succ clocks ih =>
    rw [Function.iterate_succ_apply', ih]
    rcases turns_succ_cases hperiod with ⟨hends, hturns, hcounter⟩ | ⟨hruns, hturns, hcounter⟩
    · rw [clock_of_ends period hends, hturns, hcounter, Function.iterate_succ_apply']
    · rw [clock_of_runs period hruns, hturns, hcounter]

/-- How many of the first `turned` turns of a level are from low to high. -/
def rises (high : Bool) (turned : Nat) : Nat := if high then turned / 2 else (turned + 1) / 2

theorem rises_succ (high : Bool) (turned : Nat) :
    rises high (turned + 1) = rises high turned + if not^[turned] high then 0 else 1 := by
  rw [iterate_not]
  cases high <;> rcases Nat.even_or_odd' turned with ⟨half, rfl | rfl⟩ <;>
    simp [rises] <;> omega

end Oscillator

open Oscillator (turns counterAfter rises)

/-! ## 2. Clocks of a chip -/

section Clocks

variable (psg : Psg) (clocks : Nat) (channel : Fin 4)

/-- A period is never zero. -/
theorem one_le_period : 1 ≤ psg.period channel :=
  period_cases (motive := fun period => 1 ≤ period) (fun _ => Nat.le_max_right _ _) (by decide) channel

theorem period_clock : psg.clock.period channel = psg.period channel := by
  simp [period, tonePeriod, noisePeriod]

/-- What a clock leaves alone, many clocks leave alone. -/
theorem iterate_clock_keeps {α : Type} (field : Psg → α)
    (h : ∀ psg, field psg.clock = field psg) : field (Psg.clock^[clocks] psg) = field psg := by
  induction clocks with
  | zero => rfl
  | succ clocks ih => rw [Function.iterate_succ_apply', h, ih]

/-- How often an oscillator of the chip has turned over after some clocks. -/
def turnsAfter : Nat := turns (psg.period channel) (psg.oscillators.get channel).counter clocks

/-- **Each oscillator of the chip runs on its own**, with the period of its channel. -/
theorem oscillators_iterate_clock :
    (Psg.clock^[clocks] psg).oscillators.get channel =
      ⟨counterAfter (psg.period channel) (psg.oscillators.get channel).counter clocks,
        not^[psg.turnsAfter clocks channel] (psg.oscillators.get channel).high⟩ := by
  rw [turnsAfter, ← Oscillator.iterate_clock (psg.one_le_period channel)]
  induction clocks with
  | zero => rfl
  | succ clocks ih =>
    have hperiod : (Psg.clock^[clocks] psg).period channel = psg.period channel :=
      psg.iterate_clock_keeps clocks (period · channel) fun psg => psg.period_clock channel
    rw [Function.iterate_succ_apply', Function.iterate_succ_apply', oscillators_clock, ih, hperiod]

/-- One more clock: the oscillator is at the end of its count and turns over, or it is not. -/
theorem turnsAfter_succ_cases :
    (((Psg.clock^[clocks] psg).oscillators.get channel).ends = true ∧
      psg.turnsAfter (clocks + 1) channel = psg.turnsAfter clocks channel + 1) ∨
    (((Psg.clock^[clocks] psg).oscillators.get channel).ends = false ∧
      psg.turnsAfter (clocks + 1) channel = psg.turnsAfter clocks channel) := by
  rw [oscillators_iterate_clock]
  rcases Oscillator.turns_succ_cases (psg.one_le_period channel) with
    ⟨hends, hturns, -⟩ | ⟨hruns, hturns, -⟩
  · exact .inl ⟨decide_eq_true hends, hturns⟩
  · exact .inr ⟨decide_eq_false (Nat.not_le.mpr hruns), hturns⟩

/-- How often the oscillator of a channel turns over in the course of some clocks. -/
def turnsIn : Nat :=
  (List.range clocks).countP fun n =>
    ((Psg.clock^[n + 1] psg).oscillators.get channel).high !=
      ((Psg.clock^[n] psg).oscillators.get channel).high

/-- **The turns of an oscillator, counted.** -/
theorem turnsIn_eq : psg.turnsIn clocks channel = psg.turnsAfter clocks channel := by
  induction clocks with
  | zero => exact Oscillator.turns_zero.symm
  | succ clocks ih =>
    unfold turnsIn at ih ⊢
    rw [List.range_succ, List.countP_append, ih, List.countP_singleton, oscillators_iterate_clock,
      oscillators_iterate_clock]
    rcases psg.turnsAfter_succ_cases clocks channel with ⟨-, hturns⟩ | ⟨-, hturns⟩
    · rw [hturns, Function.iterate_succ_apply', Bool.not_bne_self, if_pos rfl]
    · rw [hturns, bne_self_eq_false, if_neg Bool.false_ne_true, Nat.add_zero]

theorem applyAll_replicate_clocked :
    EngineEvent.applyAll (List.replicate clocks .clocked) psg = Psg.clock^[clocks] psg := by
  induction clocks generalizing psg with
  | zero => rfl
  | succ clocks ih => exact ih psg.clock

theorem noiseStepsIn_replicate_succ :
    psg.noiseStepsIn (List.replicate (clocks + 1) .clocked) =
      psg.noiseStepsIn (List.replicate clocks .clocked) +
        if (Psg.clock^[clocks] psg).noiseSteps then 1 else 0 := by
  rw [List.replicate_succ', noiseStepsIn_append, applyAll_replicate_clocked]
  rfl

/-- **The noise takes a step with every turn of its pace from low to high.** -/
theorem noiseStepsIn_eq :
    psg.noiseStepsIn (List.replicate clocks .clocked) =
      rises (psg.oscillators.get noiseChannel).high (psg.turnsAfter clocks noiseChannel) := by
  induction clocks with
  | zero =>
    rw [turnsAfter, Oscillator.turns_zero, rises]
    split <;> rfl
  | succ clocks ih =>
    have hsteps : (Psg.clock^[clocks] psg).noiseSteps =
        (((Psg.clock^[clocks] psg).oscillators.get noiseChannel).ends &&
          !((Psg.clock^[clocks] psg).oscillators.get noiseChannel).high) := rfl
    rw [noiseStepsIn_replicate_succ, ih, hsteps]
    rcases psg.turnsAfter_succ_cases clocks noiseChannel with ⟨hends, hturns⟩ | ⟨hruns, hturns⟩
    · rw [hturns, Oscillator.rises_succ, hends, Bool.true_and, oscillators_iterate_clock]
      cases not^[psg.turnsAfter clocks noiseChannel] (psg.oscillators.get noiseChannel).high <;> rfl
    · rw [hturns, hruns, Bool.false_and, if_neg Bool.false_ne_true, Nat.add_zero]

/-- These steps are all that happens to the noise register. -/
theorem noise_iterate_clock :
    (Psg.clock^[clocks] psg).noise =
      (ShiftRegister.step psg.white)^[psg.noiseStepsIn (List.replicate clocks .clocked)] psg.noise := by
  induction clocks with
  | zero => rfl
  | succ clocks ih =>
    have hwhite : (Psg.clock^[clocks] psg).white = psg.white :=
      psg.iterate_clock_keeps clocks white fun psg => by simp [white]
    rw [Function.iterate_succ_apply', noise_clock, hwhite, ih, noiseStepsIn_replicate_succ]
    split
    · rw [Function.iterate_succ_apply']
    · rfl

end Clocks

/-! ## 3. Tones -/

section Tones

variable (psg : Psg) {tone : Fin 3}

/-- A volume with the sign of a level that has been turned over `turned` times. -/
theorem signed_iterate_not (turned : Nat) (level : Bool) (volume : Int) :
    (if not^[turned] level then volume else -volume) =
      (-1) ^ turned * if level then volume else -volume := by
  induction turned with
  | zero => exact (Int.one_mul _).symm
  | succ turned ih =>
    rw [Function.iterate_succ_apply', Int.pow_succ, Int.mul_assoc, Int.mul_comm (-1), ← Int.mul_assoc,
      ← ih]
    cases not^[turned] level <;> simp

/-- A tone with a period of at least 2 is as high as its oscillator. -/
theorem high_tone (h : 2 ≤ psg.periods.get tone) :
    psg.high tone.castSucc = (psg.oscillators.get tone.castSucc).high := by
  have hvalue : ¬ psg.periods[tone.castSucc.val] ≤ 1 := Nat.not_le.mpr h
  rw [high, dif_pos (show tone.castSucc.val < 3 from tone.isLt), decide_eq_false hvalue, Bool.false_or]
  rfl

/-- A level is turned over with its channel. -/
theorem level_of_turned {later : Psg} {channel : Fin 4} {turned : Nat}
    (hattenuation : later.attenuation = psg.attenuation)
    (hhigh : later.high channel = not^[turned] (psg.high channel)) :
    later.level channel = (-1) ^ turned * psg.level channel := by
  simp only [level, hattenuation, hhigh]
  exact signed_iterate_not turned _ _

/-- Such a tone turns over with its oscillator, and so does its level. -/
theorem tone_iterate_clock (h : 2 ≤ psg.periods.get tone) (clocks : Nat) :
    (Psg.clock^[clocks] psg).high tone.castSucc =
        not^[psg.turnsAfter clocks tone.castSucc] (psg.high tone.castSucc) ∧
      (Psg.clock^[clocks] psg).level tone.castSucc =
        (-1) ^ psg.turnsAfter clocks tone.castSucc * psg.level tone.castSucc := by
  have hperiods : (Psg.clock^[clocks] psg).periods = psg.periods :=
    psg.iterate_clock_keeps clocks periods periods_clock
  have hattenuation : (Psg.clock^[clocks] psg).attenuation = psg.attenuation :=
    psg.iterate_clock_keeps clocks attenuation attenuation_clock
  have hhigh : (Psg.clock^[clocks] psg).high tone.castSucc =
      not^[psg.turnsAfter clocks tone.castSucc] (psg.high tone.castSucc) := by
    rw [high_tone _ (by rw [hperiods]; exact h), high_tone _ h, oscillators_iterate_clock]
  exact ⟨hhigh, psg.level_of_turned hattenuation hhigh⟩

/-- **Waves in closed form.**  Take a chip in any state, clock it any number of times, and write nothing in
the meantime.

* The oscillator of each channel has turned over as often, and its counter stands where, the formulas of
  `Oscillator.turns` and `Oscillator.counterAfter` say.
* The noise has taken a step with every other turn of its pace, and nothing else has happened to it.
* A tone with a period of at least 2 stays as it is up to its first turn.  From then on it is a square
  wave with as many clocks in each half as its period. -/
theorem waves_in_closed_form (clocks : Nat) :
    (∀ channel : Fin 4,
      let period := psg.period channel
      let oscillator := psg.oscillators.get channel
      psg.turnsIn clocks channel = turns period oscillator.counter clocks ∧
      (Psg.clock^[clocks] psg).oscillators.get channel =
        ⟨counterAfter period oscillator.counter clocks,
          not^[turns period oscillator.counter clocks] oscillator.high⟩) ∧
    (let pace := psg.oscillators.get noiseChannel
      let turned := turns (psg.period noiseChannel) pace.counter clocks
      let steps := if pace.high then turned / 2 else (turned + 1) / 2
      psg.noiseStepsIn (List.replicate clocks .clocked) = steps ∧
      (Psg.clock^[clocks] psg).noise = (ShiftRegister.step psg.white)^[steps] psg.noise) ∧
    ∀ tone : Fin 3, 2 ≤ psg.periods.get tone →
      let first := max 1 (psg.oscillators.get tone.castSucc).counter
      (∀ few < first,
        (Psg.clock^[few] psg).high tone.castSucc = psg.high tone.castSucc ∧
        (Psg.clock^[few] psg).level tone.castSucc = psg.level tone.castSucc) ∧
      ∀ half, ∀ rest < psg.periods.get tone,
        let later := Psg.clock^[first + half * psg.periods.get tone + rest] psg
        later.high tone.castSucc = not^[half + 1] (psg.high tone.castSucc) ∧
        later.level tone.castSucc = (-1) ^ (half + 1) * psg.level tone.castSucc := by
  refine ⟨fun channel => ⟨?_, ?_⟩, ⟨?_, ?_⟩, fun tone htone => ⟨?_, ?_⟩⟩
  · exact psg.turnsIn_eq clocks channel
  · exact psg.oscillators_iterate_clock clocks channel
  · exact psg.noiseStepsIn_eq clocks
  · rw [noise_iterate_clock, noiseStepsIn_eq]
    rfl
  · intro few hfew
    have hturns : psg.turnsAfter few tone.castSucc = 0 := if_pos hfew
    obtain ⟨hhigh, hlevel⟩ := psg.tone_iterate_clock htone few
    rw [hturns] at hhigh hlevel
    exact ⟨hhigh, hlevel.trans (Int.one_mul _)⟩
  · intro half rest hrest later
    have hperiod : psg.period tone.castSucc = psg.periods.get tone := by
      rw [period, dif_pos (show tone.castSucc.val < 3 from tone.isLt), tonePeriod]
      exact Nat.max_eq_left (Nat.le_of_succ_le htone)
    have hturns : psg.turnsAfter
        (max 1 (psg.oscillators.get tone.castSucc).counter + half * psg.periods.get tone + rest)
        tone.castSucc = half + 1 := by
      rw [turnsAfter, hperiod]
      exact Oscillator.turns_of_half hrest half
    obtain ⟨hhigh, hlevel⟩ := psg.tone_iterate_clock htone
      (max 1 (psg.oscillators.get tone.castSucc).counter + half * psg.periods.get tone + rest)
    rw [hturns] at hhigh hlevel
    exact ⟨hhigh, hlevel⟩

end Tones

/-- A PSG that plays its first tone at full volume, with a period of 4. -/
def singing : Psg :=
  EngineEvent.applyAll [.told (.bus 0 0x84), .told (.bus 0 0x00), .told (.bus 0 0x90)] new

/-- After 100 clocks the pace of its noise, with a period of 16, has turned over seven times and the noise
has taken three steps.  Its tone is up after 8 clocks, and down after 12. -/
theorem singing_in_closed_form :
    singing.turnsIn 100 noiseChannel = 7 ∧ (Psg.clock^[100] singing).noise.bits = 0x1000 ∧
      2 ≤ singing.periods[0] ∧ 3 < singing.periods[0] ∧
      (Psg.clock^[1 + 1 * 4 + 3] singing).level 0 = 8191 ∧
      (Psg.clock^[1 + 2 * 4 + 3] singing).level 0 = -8191 := by
  obtain ⟨hoscillators, ⟨-, hnoise⟩, htones⟩ := waves_in_closed_form singing 100
  obtain ⟨hturns, -⟩ := hoscillators noiseChannel
  have hperiod : 2 ≤ singing.periods[(0 : Fin 3)] := by decide +kernel
  have hrest : 3 < singing.periods[(0 : Fin 3)] := by decide +kernel
  obtain ⟨-, hhalves⟩ := htones 0 hperiod
  obtain ⟨-, hthird⟩ := hhalves 1 3 hrest
  obtain ⟨-, hfourth⟩ := hhalves 2 3 hrest
  refine ⟨hturns.trans (by decide +kernel), ?_, hperiod, hrest, hthird.trans (by decide +kernel),
    hfourth.trans (by decide +kernel)⟩
  rw [hnoise]
  decide +kernel

end ChipLog.Psg
