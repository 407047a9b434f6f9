/-
# Every part of the chip keeps to its range

The chip has ten bits for a period and for a counter, four for a volume, three for the noise register, and
a noise register of at most 32 bits.  This module shows that nothing takes it out of these ranges:
no start, no settings from a header, whatever they say, no byte at any address of the bus, and no clock.

The ranges lean on each other.  A counter is set from a period, and periods change while counters run.  The
bits of the noise register lie below its width, and settings choose the width, so they reset the
register (`ShiftRegister.fits_configure`).

* `Psg.Fits` is all of it, and every event keeps it (`Fits.apply`).
* The sample of a chip is made of four levels of at most 8191, so it has at most 32764 on either side,
  and the mix takes it as it is (`mix_silence_of_quiet`).

Main statement: `Psg.stays_in_range`.
-/
import ChipLog.Proofs.Board.Levels
import ChipLog.Proofs.Machine.Psg

namespace ChipLog.Psg

/-! ## 1. The noise register -/

namespace ShiftRegister

/-- A register with a width that the chip has, with taps in sixteen bits, and with no bit above its width. -/
structure Fits (r : ShiftRegister) : Prop where
  width : 1 ≤ r.width ∧ r.width ≤ 32
  taps : 1 ≤ r.taps ∧ r.taps ≤ 0xFFFF
  bits : r.bits < 2 ^ r.width

variable {r : ShiftRegister}

/-- A reset is all that a register with good width and taps needs. -/
theorem fits_reset (hwidth : 1 ≤ r.width ∧ r.width ≤ 32) (htaps : 1 ≤ r.taps ∧ r.taps ≤ 0xFFFF) :
    r.reset.Fits where
  width := hwidth
  taps := htaps
  bits := by
    rw [bits_reset, Nat.one_shiftLeft]
    exact Nat.pow_lt_pow_right (by decide) (Nat.sub_one_lt_of_lt hwidth.1)

theorem Fits.reset (h : r.Fits) : r.reset.Fits := fits_reset h.width h.taps

theorem Fits.step (h : r.Fits) (white : Bool) : (r.step white).Fits where
  width := h.width
  taps := h.taps
  bits := by
    have hlt := h.bits
    rw [← Nat.one_shiftLeft] at hlt ⊢
    exact bits_step_lt white h.width.1 hlt

/-- Settings of any width, with taps of sixteen bits, give a register that fits. -/
theorem fits_configure {taps : Nat} (htaps : taps ≤ 0xFFFF) (width : Nat) (r : ShiftRegister) :
    (r.configure taps width).Fits := by
  refine fits_reset (Machine.sound_configure taps width r) ?_
  show 1 ≤ (if taps = 0 then 9 else taps) ∧ (if taps = 0 then 9 else taps) ≤ 0xFFFF
  split <;> omega

end ShiftRegister

/-! ## 2. The chip -/

/-- A chip that keeps to its ranges. -/
structure Fits (psg : Psg) : Prop where
  periods : ∀ tone : Fin 3, psg.periods.get tone ≤ 0x3FF
  counters : ∀ channel : Fin 4, (psg.oscillators.get channel).counter ≤ 0x3FF
  noiseControl : psg.noiseControl ≤ 7
  attenuation : ∀ channel : Fin 4, psg.attenuation.get channel ≤ 15
  noise : psg.noise.Fits
  output : ∀ side, (psg.output.on side).natAbs ≤ 32764

section Events

variable {psg : Psg}

theorem fits_silent {noise : ShiftRegister} (h : noise.Fits) : (silent noise).Fits where
  periods tone := (Vector.getElem_replicate tone.isLt).trans_le (by decide)
  counters channel :=
    (congrArg Oscillator.counter (Vector.getElem_replicate channel.isLt)).trans_le (by decide)
  noiseControl := Nat.zero_le _
  attenuation channel := (Vector.getElem_replicate channel.isLt).trans_le (by decide)
  noise := h.reset
  output side := by
    have hsilence : (silent noise).output.on side = 0 := RawFrame.on_silence side
    omega

theorem Fits.setNoise (h : psg.Fits) (value : Nat) : (psg.setNoise value).Fits :=
  { h with
    noiseControl := Nat.le_of_lt_succ (Nat.mod_lt value (by decide))
    noise := h.noise.reset }

/-- To replace one entry of a table keeps all of them below a bound. -/
theorem get_set_le {size bound : Nat} {table : Vector Nat size} (h : ∀ i, table.get i ≤ bound)
    {place value : Nat} (hplace : place < size) (hvalue : value ≤ bound) (i : Fin size) :
    (table.set place value hplace).get i ≤ bound := by
  have hget : (table.set place value hplace).get i = if place = i then value else table.get i :=
    Vector.getElem_set hplace i.isLt
  rw [hget]
  split
  · exact hvalue
  · exact h i

/-- A write keeps to the ranges if its values do. -/
theorem Fits.store (h : psg.Fits) {nibble : Nat} (hnibble : nibble ≤ 15) {tone : Nat → Nat}
    (htone : ∀ period ≤ 0x3FF, tone period ≤ 0x3FF) : (psg.store nibble tone).Fits := by
  unfold Psg.store
  dsimp only
  split
  case isTrue =>
    exact { h with attenuation := get_set_le h.attenuation psg.latch.channel.isLt hnibble }
  case isFalse =>
    split
    case isTrue hchannel =>
      have hperiod := htone _ (h.periods ⟨psg.latch.channel, hchannel⟩)
      exact { h with periods := get_set_le h.periods hchannel hperiod }
    case isFalse => exact h.setNoise nibble

theorem Fits.writeByte (h : psg.Fits) (byte : Nat) : (psg.writeByte byte).Fits := by
  have hnibble : byte % 16 ≤ 15 := by omega
  unfold Psg.writeByte
  split
  · have hlatched : Fits { psg with latch := .ofByte byte } := { h with }
    exact hlatched.store hnibble fun period hperiod => by omega
  · exact h.store hnibble fun period hperiod => by omega

theorem Fits.write (h : psg.Fits) (address data : UInt8) : (psg.write address data).Fits := by
  unfold Psg.write
  split
  · exact h.writeByte data.toNat
  · exact { h with }

theorem Fits.configure (h : psg.Fits) (flags : UInt32) : (psg.configure flags).Fits := by
  have htaps : flags.toNat / 0x10000 ≤ 0xFFFF := by
    have hflags := flags.toNat_lt
    omega
  exact { h with noise := ShiftRegister.fits_configure htaps _ _ }

theorem Fits.period_le (h : psg.Fits) (channel : Fin 4) : psg.period channel ≤ 0x3FF :=
  period_cases (motive := fun period => period ≤ 0x3FF)
    (fun tone => Nat.max_le.mpr ⟨h.periods tone, by decide⟩) (by decide) channel

/-- Some channels add up to no more than all of them at full volume. -/
theorem natAbs_foldl_level (shift : Nat) (channels : List (Fin 4)) (sum : Int) :
    (channels.foldl
      (fun sum channel =>
        if psg.stereo.toNat.testBit (shift + channel.val) then sum + psg.level channel else sum)
      sum).natAbs ≤ sum.natAbs + 8191 * channels.length := by
  induction channels generalizing sum with
  | nil => simp
  | cons channel channels ih =>
    have hlevel := Machine.natAbs_level psg channel
    refine Nat.le_trans (ih _) ?_
    rw [List.length_cons]
    dsimp only
    split <;> omega

theorem natAbs_side (psg : Psg) (shift : Nat) : (psg.side shift).natAbs ≤ 32764 :=
  natAbs_foldl_level shift (List.finRange 4) 0

/-- What the chip puts together has at most four levels on each side. -/
theorem natAbs_render (psg : Psg) (side : Side) : (psg.render.output.on side).natAbs ≤ 32764 := by
  have hword : ∀ shift, (Int32.ofInt (psg.side shift)).toInt.natAbs ≤ 32764 := by
    intro shift
    have hsum := psg.natAbs_side shift
    rw [Int32.toInt_ofInt_of_le (by omega) (by omega)]
    exact hsum
  cases side with
  | left => exact hword 4
  | right => exact hword 0

theorem Fits.clock (h : psg.Fits) : psg.clock.Fits where
  periods := by rw [periods_clock]; exact h.periods
  counters channel := by
    rw [oscillators_clock]
    refine Nat.le_trans (Oscillator.counter_clock_le _ _) ?_
    exact Nat.max_le.mpr ⟨h.period_le channel, h.counters channel⟩
  noiseControl := by rw [noiseControl_clock]; exact h.noiseControl
  attenuation := by rw [attenuation_clock]; exact h.attenuation
  noise := by
    rw [noise_clock]
    split
    · exact h.noise.step _
    · exact h.noise
  output := natAbs_render _

/-- **Nothing that happens to a chip takes it out of its ranges.** -/
theorem Fits.apply (h : psg.Fits) (event : EngineEvent) : (event.apply psg).Fits := by
  cases event with
  | clocked => exact h.clock
  | told call =>
    cases call with
    | start hz => exact fits_silent h.noise
    | configure flags => exact h.configure flags
    | bus address data => exact h.write address data
    | rom kind size offset data => exact h
    | ram offset data => exact h

theorem Fits.applyAll (h : psg.Fits) (events : List EngineEvent) :
    (EngineEvent.applyAll events psg).Fits :=
  EngineEvent.applyAll_keeps (P := Fits) (fun event _ h => h.apply event) events h

end Events

/-! ## 3. Headroom -/

/-- A sample that is inside the limits of the mix on both sides is taken as it is. -/
theorem mix_silence_of_quiet {sample : RawFrame}
    (h : ∀ side, (sample.on side).natAbs ≤ 32764) : RawFrame.silence.mix sample = sample := by
  have hside : ∀ side, (RawFrame.silence.mix sample).on side = sample.on side := by
    intro side
    have hfits : Fits16 (sample.on side) := by
      have hquiet := h side
      unfold Fits16
      omega
    rw [RawFrame.on_mix, RawFrame.on_silence, addLimited, limit16_of_fits hfits, Int.zero_add,
      limit16_of_fits hfits]
  have hleft := Int32.toInt_inj.mp (hside .left)
  have hright := Int32.toInt_inj.mp (hside .right)
  cases hmixed : RawFrame.silence.mix sample
  cases sample
  simp_all

/-- **A chip stays in its ranges.**  Whatever happens to a new chip, every part of it keeps to its range
(`Fits`), the chosen channel is one of the four, and on a machine with words of a fixed size all of it can be
done: no shift is too far and no place is outside of its table.  The sample has at most 32764 on each side, so
the mix never cuts it when it comes alone. -/
theorem stays_in_range (events : List EngineEvent) :
    let psg := EngineEvent.applyAll events new
    psg.Fits ∧ psg.latch.channel.val ≤ 3 ∧ Machine.happenAll events new = .ok psg ∧
      (∀ side, -32764 ≤ psg.output.on side ∧ psg.output.on side ≤ 32764) ∧
      RawFrame.silence.mix psg.output = psg.output := by
  intro psg
  have hnew : new.Fits := fits_silent ⟨by decide, by decide, by decide⟩
  have hfits : psg.Fits := hnew.applyAll events
  refine ⟨hfits, Nat.le_of_lt_succ psg.latch.channel.isLt,
    Machine.happenAll_eq Machine.sound_new events, fun side => ?_, mix_silence_of_quiet hfits.output⟩
  have hquiet := hfits.output side
  omega

end ChipLog.Psg
