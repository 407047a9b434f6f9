/-
# Noise does not die

Noise comes from a register that is shifted down, and what enters at its top is made of the bits that
it holds.  A register that holds no bit at all stays silent until it is set anew.  How it is fed
back comes from the header of a log, which can say anything.  This module settles when a register gets
there.

Main statement: `Psg.noise_dies_only_without_taps`.  Periodic noise keeps going round with one bit,
whatever the taps are.  White noise never loses its last bit if there is a tap in the register, and if
there is none it is shifted out bit by bit.

That some bit is left does not carry over from step to step: the last bit of a register may stand below
all taps, where nothing is fed back any more.  What does carry over is that a bit is left at the lowest
tap or above it (`ShiftRegister.Alive`).  If it stands right at that tap it is the only one that is
fed back, so a bit enters at the top (`ShiftRegister.input_of_lowest`).  And the pace of the noise cannot
change without a reset: every event sets the register anew, lets it take a step, or leaves it alone
(`noise_of_setsNoise`, `noise_of_keeps`).
-/
import ChipLog.Proofs.Machine.Psg
import Mathlib.Data.Nat.Find

namespace ChipLog.Psg

open Machine (Sound)

/-! ## 1. Steps of a register -/

namespace ShiftRegister

variable {r : ShiftRegister} {white : Bool} {tap : Nat}

/-- A single bit under the taps is an odd number of them. -/
theorem oddParity_two_pow (h : tap < 32) : oddParity (2 ^ tap) = true := by
  have hall : ∀ tap : Fin 32, oddParity (2 ^ tap.val) = true := by decide
  exact hall ⟨tap, h⟩

/-- The lowest bit that is fed back. -/
def LowestTap (r : ShiftRegister) (tap : Nat) : Prop :=
  r.taps.testBit tap = true ∧ ∀ lower < tap, r.taps.testBit lower = false

/-- Where there are taps there is a lowest one. -/
theorem exists_lowestTap (h : r.taps.testBit tap = true) :
    ∃ lowest ≤ tap, r.LowestTap lowest := by
  have hsome : ∃ tap, r.taps.testBit tap = true := ⟨tap, h⟩
  refine ⟨Nat.find hsome, Nat.find_min' hsome h, Nat.find_spec hsome, fun lower hlower => ?_⟩
  exact Bool.eq_false_iff.mpr (Nat.find_min hsome hlower)

/-- What is below the lowest tap is not fed back, so a bit right at that tap with none above it comes
back at the top. -/
theorem input_of_lowest (htap : r.LowestTap tap) (hfits : tap < 32) (hle : 2 ^ tap ≤ r.bits)
    (hlt : r.bits < 2 ^ (tap + 1)) : r.input true = true := by
  have hsingle : r.bits &&& r.taps = 2 ^ tap := by
    apply Nat.eq_of_testBit_eq
    intro place
    rw [Nat.testBit_and, Nat.testBit_two_pow]
    rcases Nat.lt_trichotomy place tap with hbelow | rfl | habove
    · rw [htap.2 place hbelow, Bool.and_false, decide_eq_false (Nat.ne_of_gt hbelow)]
    · rw [htap.1, Bool.and_true, decide_eq_true rfl]
      exact Nat.testBit_of_two_pow_le_and_two_pow_add_one_gt hle hlt
    · have hnone : r.bits < 2 ^ place :=
        Nat.lt_of_lt_of_le hlt (Nat.pow_le_pow_right (by decide) habove)
      rw [Nat.testBit_eq_false_of_lt hnone, Bool.false_and, decide_eq_false (Nat.ne_of_lt habove)]
  rw [input, if_pos rfl, hsingle]
  exact oddParity_two_pow hfits

/-- Without taps in the register nothing is fed back. -/
theorem input_of_no_taps (hlt : r.bits < 2 ^ r.width)
    (htaps : ∀ tap < r.width, r.taps.testBit tap = false) : r.input true = false := by
  have hnone : r.bits &&& r.taps = 0 := by
    apply Nat.eq_of_testBit_eq
    intro place
    rw [Nat.testBit_and, Nat.zero_testBit]
    by_cases hplace : place < r.width
    · rw [htaps place hplace, Bool.and_false]
    · have hbits : r.bits < 2 ^ place :=
        Nat.lt_of_lt_of_le hlt (Nat.pow_le_pow_right (by decide) (Nat.not_lt.mp hplace))
      rw [Nat.testBit_eq_false_of_lt hbits, Bool.false_and]
  rw [input, if_pos rfl, hnone]
  rfl

theorem bits_step_of_input (h : r.input white = true) :
    (r.step white).bits = r.bits / 2 ||| 2 ^ (r.width - 1) := by
  rw [step, h, if_pos rfl, Nat.one_shiftLeft]

theorem bits_step_of_no_input (h : r.input white = false) : (r.step white).bits = r.bits / 2 := by
  rw [step, h, if_neg Bool.false_ne_true]
  exact Nat.or_zero _

/-! ## 2. Registers that are alive -/

/-- A register that will not lose its last bit: white noise has one at the lowest tap or above it, and
periodic noise has exactly one. -/
structure Alive (white : Bool) (r : ShiftRegister) : Prop where
  bits_lt : r.bits < 2 ^ r.width
  ofWhite : white = true → ∀ tap < r.width, r.LowestTap tap → 2 ^ tap ≤ r.bits
  ofPeriodic : white = false → ∃ place < r.width, r.bits = 2 ^ place

/-- A reset brings a register to life. -/
theorem alive_reset (hsound : Sound r) (white : Bool) : r.reset.Alive white := by
  have hpos := hsound.1
  have hbits : r.reset.bits = 2 ^ (r.width - 1) := Nat.one_shiftLeft _
  refine ⟨?_, fun _ tap hlt _ => ?_, fun _ => ⟨r.width - 1, Nat.sub_one_lt_of_lt hpos, hbits⟩⟩
  · rw [hbits]
    exact Nat.pow_lt_pow_right (by decide) (Nat.sub_one_lt_of_lt hpos)
  · rw [hbits]
    exact Nat.pow_le_pow_right (by decide) (Nat.le_sub_one_of_lt hlt)

/-- White noise keeps a bit at the lowest tap or above it. -/
theorem two_pow_le_step (hsound : Sound r) (hlt : tap < r.width) (htap : r.LowestTap tap)
    (h : 2 ^ tap ≤ r.bits) : 2 ^ tap ≤ (r.step true).bits := by
  cases hinput : r.input true with
  | true =>
    rw [bits_step_of_input hinput]
    calc 2 ^ tap ≤ 2 ^ (r.width - 1) := Nat.pow_le_pow_right (by decide) (Nat.le_sub_one_of_lt hlt)
      _ ≤ r.bits / 2 ||| 2 ^ (r.width - 1) := Nat.right_le_or
  | false =>
    -- the highest bit is above the tap, or it would have come back at the top
    have habove : 2 ^ (tap + 1) ≤ r.bits := Nat.le_of_not_lt fun hbelow => by
      rw [input_of_lowest htap (Nat.lt_of_lt_of_le hlt hsound.2) h hbelow] at hinput
      cases hinput
    rw [bits_step_of_no_input hinput]
    rw [Nat.pow_succ] at habove
    omega

/-- The one bit of periodic noise goes down a place, or from the lowest place to the highest. -/
theorem exists_two_pow_step (hsound : Sound r) (h : ∃ place < r.width, r.bits = 2 ^ place) :
    ∃ place < r.width, (r.step false).bits = 2 ^ place := by
  have hpos := hsound.1
  obtain ⟨place, hplace, hbits⟩ := h
  cases place with
  | zero =>
    have hinput : r.input false = true := by
      rw [input, if_neg Bool.false_ne_true, hbits]
      rfl
    refine ⟨r.width - 1, Nat.sub_one_lt_of_lt hpos, ?_⟩
    rw [bits_step_of_input hinput, hbits]
    exact Nat.zero_or _
  | succ place =>
    have hinput : r.input false = false := by
      rw [input, if_neg Bool.false_ne_true, hbits, Nat.testBit_two_pow]
      rfl
    refine ⟨place, Nat.lt_of_succ_lt hplace, ?_⟩
    rw [bits_step_of_no_input hinput, hbits, Nat.pow_succ]
    exact Nat.mul_div_cancel _ (by decide)

/-- **A register that is alive stays so.** -/
theorem Alive.step (h : r.Alive white) (hsound : Sound r) : (r.step white).Alive white where
  bits_lt := by
    have hlt := h.bits_lt
    rw [← Nat.one_shiftLeft] at hlt ⊢
    exact bits_step_lt white hsound.1 hlt
  ofWhite hwhite tap hlt htap := by
    subst hwhite
    exact two_pow_le_step hsound hlt htap (h.ofWhite rfl tap hlt htap)
  ofPeriodic hperiodic := by
    subst hperiodic
    exact exists_two_pow_step hsound (h.ofPeriodic rfl)

theorem Alive.bits_lt_of_width_le (h : r.Alive white) {steps : Nat} (hsteps : r.width ≤ steps) :
    r.bits < 2 ^ steps :=
  Nat.lt_of_lt_of_le h.bits_lt (Nat.pow_le_pow_right (by decide) hsteps)

/-- With a tap in it, a register that is alive holds a bit. -/
theorem Alive.bits_ne_zero (h : r.Alive white) (hlt : tap < r.width)
    (htap : r.taps.testBit tap = true) : r.bits ≠ 0 := by
  cases white with
  | true =>
    obtain ⟨lowest, hle, hlowest⟩ := exists_lowestTap htap
    have hbit := h.ofWhite rfl lowest (Nat.lt_of_le_of_lt hle hlt) hlowest
    exact Nat.ne_of_gt (Nat.lt_of_lt_of_le (Nat.two_pow_pos lowest) hbit)
  | false =>
    obtain ⟨place, -, hbits⟩ := h.ofPeriodic rfl
    rw [hbits]
    exact Nat.ne_of_gt (Nat.two_pow_pos place)

end ShiftRegister

/-! ## 3. What events do to the noise -/

/-- The register that is chosen after a byte at an even bus address. -/
def latchAfter (byte : Nat) (psg : Psg) : Latch :=
  if 128 ≤ byte then Latch.ofByte byte else psg.latch

/-- Whether a byte on the bus is for the noise register: a latch byte that chooses it, or a data byte
while it is chosen. -/
def isForNoise (address data : UInt8) (psg : Psg) : Bool :=
  address % 2 == 0 && psg.latchAfter data.toNat = ⟨noiseChannel, false⟩

/-- Whether an event sets the noise register anew: a start, settings, or a byte for it. -/
def setsNoise : EngineEvent → Psg → Bool
  | .told (.start _), _ | .told (.configure _), _ => true
  | .told (.bus address data), psg => psg.isForNoise address data
  | .told (.rom ..), _ | .told (.ram ..), _ | .clocked, _ => false

/-- Whether an event lets the noise take a step. -/
def stepsNoise : EngineEvent → Psg → Bool
  | .clocked, psg => psg.noiseSteps
  | .told _, _ => false

section Events

variable {psg : Psg} {event : EngineEvent}

theorem store_of_noise (h : psg.latch = ⟨noiseChannel, false⟩) (nibble : Nat) (tone : Nat → Nat) :
    psg.store nibble tone = psg.setNoise nibble := by
  have hvolume : psg.latch.volume = false := by rw [h]
  have hchannel : ¬ psg.latch.channel.val < 3 := by rw [h]; decide
  rw [store, if_neg (by rw [hvolume]; decide), dif_neg hchannel]

/-- A write to another register leaves the noise alone. -/
theorem store_of_other (h : psg.latch ≠ ⟨noiseChannel, false⟩) (nibble : Nat) (tone : Nat → Nat) :
    (psg.store nibble tone).noiseControl = psg.noiseControl ∧
      (psg.store nibble tone).noise = psg.noise := by
  by_cases hvolume : psg.latch.volume = true
  · rw [store, if_pos hvolume]
    exact ⟨rfl, rfl⟩
  · by_cases hchannel : psg.latch.channel.val < 3
    · rw [store, if_neg hvolume, dif_pos hchannel]
      exact ⟨rfl, rfl⟩
    · have hlast : psg.latch.channel = noiseChannel :=
        Fin.ext (Nat.le_antisymm (Nat.le_of_lt_succ psg.latch.channel.isLt) (Nat.not_lt.mp hchannel))
      have hoff : psg.latch.volume = false := Bool.eq_false_iff.mpr hvolume
      exact absurd (by rw [← hlast, ← hoff]) h

/-- A byte at an even bus address goes to the register that is chosen then. -/
theorem writeByte_eq_store (byte : Nat) (psg : Psg) :
    ∃ tone, psg.writeByte byte = { psg with latch := psg.latchAfter byte }.store (byte % 16) tone := by
  unfold writeByte latchAfter
  by_cases hlatch : 128 ≤ byte
  · rw [if_pos hlatch, if_pos hlatch]
    exact ⟨_, rfl⟩
  · rw [if_neg hlatch, if_neg hlatch]
    exact ⟨_, rfl⟩

theorem noise_write_of_isForNoise {address data : UInt8} (h : psg.isForNoise address data = true) :
    (psg.write address data).noise = psg.noise.reset := by
  obtain ⟨heven, hlatch⟩ := Bool.and_eq_true_iff.mp h
  obtain ⟨tone, hstore⟩ := writeByte_eq_store data.toNat psg
  rw [write, if_pos heven, hstore, store_of_noise (of_decide_eq_true hlatch)]
  rfl

theorem noise_write_of_other {address data : UInt8} (h : psg.isForNoise address data = false) :
    (psg.write address data).noiseControl = psg.noiseControl ∧
      (psg.write address data).noise = psg.noise := by
  unfold write
  split
  case isFalse => exact ⟨rfl, rfl⟩
  case isTrue heven =>
    rw [isForNoise, heven, Bool.true_and, decide_eq_false_iff_not] at h
    obtain ⟨tone, hstore⟩ := writeByte_eq_store data.toNat psg
    rw [hstore]
    exact store_of_other h _ tone

/-- An event that sets the noise register anew leaves it as after a reset. -/
theorem noise_of_setsNoise (h : psg.setsNoise event = true) :
    (event.apply psg).noise = (event.apply psg).noise.reset := by
  cases event with
  | clocked => cases h
  | told call =>
    cases call with
    | start hz => rfl
    | configure flags => rfl
    | bus address data =>
      show (psg.write address data).noise = (psg.write address data).noise.reset
      rw [noise_write_of_isForNoise h]
      rfl
    | rom kind size offset data => cases h
    | ram offset data => cases h

/-- **Every other event lets the register take a step, or leaves it alone.** -/
theorem noise_of_keeps (h : psg.setsNoise event = false) :
    (event.apply psg).noiseControl = psg.noiseControl ∧
      (event.apply psg).noise =
        if psg.stepsNoise event then psg.noise.step psg.white else psg.noise := by
  cases event with
  | clocked => exact ⟨psg.noiseControl_clock, psg.noise_clock⟩
  | told call =>
    cases call with
    | start hz => cases h
    | configure flags => cases h
    | bus address data => exact noise_write_of_other h
    | rom kind size offset data => exact ⟨rfl, rfl⟩
    | ram offset data => exact ⟨rfl, rfl⟩

/-! ## 4. Lives of a chip -/

/-- **Whatever happens to a chip, its noise stays alive.** -/
theorem alive_apply (h : psg.noise.Alive psg.white) (hsound : Sound psg.noise)
    (event : EngineEvent) : (event.apply psg).noise.Alive (event.apply psg).white := by
  cases hsets : psg.setsNoise event with
  | true =>
    rw [noise_of_setsNoise hsets]
    exact ShiftRegister.alive_reset (Machine.sound_happen hsound event) _
  | false =>
    obtain ⟨hcontrol, hnoise⟩ := noise_of_keeps hsets
    rw [white, hcontrol, hnoise]
    split
    case isTrue => exact h.step hsound
    case isFalse => exact h

theorem alive_applyAll (h : psg.noise.Alive psg.white) (hsound : Sound psg.noise)
    (events : List EngineEvent) :
    Sound (EngineEvent.applyAll events psg).noise ∧
      (EngineEvent.applyAll events psg).noise.Alive (EngineEvent.applyAll events psg).white :=
  EngineEvent.applyAll_keeps (P := fun psg : Psg => Sound psg.noise ∧ psg.noise.Alive psg.white)
    (fun event _ h => ⟨Machine.sound_happen h.1 event, alive_apply h.2 h.1 event⟩)
    events ⟨hsound, h⟩

end Events

/-- None of these events sets the noise register anew. -/
def keepsNoise : List EngineEvent → Psg → Bool
  | [], _ => true
  | event :: events, psg => !psg.setsNoise event && keepsNoise events (event.apply psg)

/-- How many steps the noise takes in the course of some events. -/
def noiseStepsIn : List EngineEvent → Psg → Nat
  | [], _ => 0
  | event :: events, psg =>
    (if psg.stepsNoise event then 1 else 0) + noiseStepsIn events (event.apply psg)

theorem noiseStepsIn_append (first second : List EngineEvent) (psg : Psg) :
    psg.noiseStepsIn (first ++ second) =
      psg.noiseStepsIn first + (EngineEvent.applyAll first psg).noiseStepsIn second := by
  induction first generalizing psg with
  | nil => exact (Nat.zero_add _).symm
  | cons event first ih =>
    rw [List.cons_append, noiseStepsIn, ih, noiseStepsIn, Nat.add_assoc]
    rfl

theorem keepsNoise_append (first second : List EngineEvent) (psg : Psg) :
    psg.keepsNoise (first ++ second) =
      (psg.keepsNoise first && (EngineEvent.applyAll first psg).keepsNoise second) := by
  induction first generalizing psg with
  | nil => exact (Bool.true_and _).symm
  | cons event first ih =>
    rw [List.cons_append, keepsNoise, ih, keepsNoise, Bool.and_assoc]
    rfl

/-- **Without taps, white noise is shifted out step by step.** -/
theorem bits_applyAll_of_no_taps {psg : Psg} (hlt : psg.noise.bits < 2 ^ psg.noise.width)
    (htaps : ∀ tap < psg.noise.width, psg.noise.taps.testBit tap = false) (hwhite : psg.white = true)
    {events : List EngineEvent} (hkeeps : psg.keepsNoise events = true) :
    (EngineEvent.applyAll events psg).noise.bits =
      psg.noise.bits / 2 ^ psg.noiseStepsIn events := by
  induction events generalizing psg with
  | nil => exact (Nat.div_one _).symm
  | cons event events ih =>
    obtain ⟨hkeep, hrest⟩ := Bool.and_eq_true_iff.mp hkeeps
    obtain ⟨hcontrol, hnoise⟩ := noise_of_keeps (by simpa using hkeep)
    have hwhite' : (event.apply psg).white = true := by rw [white, hcontrol]; exact hwhite
    have hhalf : (psg.noise.step true).bits = psg.noise.bits / 2 :=
      ShiftRegister.bits_step_of_no_input (ShiftRegister.input_of_no_taps hlt htaps)
    show (EngineEvent.applyAll events (event.apply psg)).noise.bits = _
    rw [noiseStepsIn]
    cases hsteps : psg.stepsNoise event with
    | true =>
      rw [hsteps, if_pos rfl, hwhite] at hnoise
      have hbits : (event.apply psg).noise.bits = psg.noise.bits / 2 := by rw [hnoise, hhalf]
      have hlt' : (event.apply psg).noise.bits < 2 ^ (event.apply psg).noise.width := by
        rw [hbits, hnoise]
        exact Nat.lt_of_le_of_lt (Nat.div_le_self _ _) hlt
      rw [ih hlt' (by rw [hnoise]; exact htaps) hwhite' hrest, hbits, if_pos rfl,
        Nat.div_div_eq_div_mul, Nat.pow_add, Nat.pow_one]
    | false =>
      rw [hsteps, if_neg Bool.false_ne_true] at hnoise
      rw [ih (by rw [hnoise]; exact hlt) (by rw [hnoise]; exact htaps) hwhite' hrest, hnoise,
        if_neg Bool.false_ne_true, Nat.zero_add]

/-- **Noise dies only without taps.**  Take a chip in any state that starts, settings, bytes on its bus
and clocks can bring it to.  If there is a tap in its noise register, the register is not empty.  In
periodic mode it holds exactly one bit, whatever the taps are.  If there is no tap in the register and the
noise is white, then as long as nothing sets the register anew, each step of the noise shifts its bits
down and nothing comes in; so after as many steps as the register is wide it is empty, and stays
empty whatever else happens.  What sets it anew puts one bit back at the top. -/
theorem noise_dies_only_without_taps (events : List EngineEvent) :
    let psg := EngineEvent.applyAll events Psg.new
    ((∃ tap < psg.noise.width, psg.noise.taps.testBit tap = true) → psg.noise.bits ≠ 0) ∧
    (psg.white = false → ∃ place < psg.noise.width, psg.noise.bits = 2 ^ place) ∧
    ((∀ tap < psg.noise.width, psg.noise.taps.testBit tap = false) → psg.white = true →
      ∀ first rest, psg.keepsNoise (first ++ rest) = true →
        (EngineEvent.applyAll first psg).noise.bits =
          psg.noise.bits / 2 ^ psg.noiseStepsIn first ∧
        (psg.noise.width ≤ psg.noiseStepsIn first →
          (EngineEvent.applyAll first psg).noise.bits = 0 ∧
            (EngineEvent.applyAll (first ++ rest) psg).noise.bits = 0)) ∧
    ∀ event, psg.setsNoise event = true →
      (event.apply psg).noise.bits = 2 ^ ((event.apply psg).noise.width - 1) := by
  intro psg
  have hnew : Psg.new.noise.Alive Psg.new.white :=
    ShiftRegister.alive_reset (r := Psg.new.noise) Machine.sound_new _
  obtain ⟨hsound, halive⟩ := alive_applyAll hnew Machine.sound_new events
  refine ⟨fun ⟨tap, hlt, htap⟩ => halive.bits_ne_zero hlt htap, halive.ofPeriodic, ?_, ?_⟩
  · intro htaps hwhite first rest hkeeps
    have hfirst : psg.keepsNoise first = true := by
      rw [keepsNoise_append] at hkeeps
      exact (Bool.and_eq_true_iff.mp hkeeps).1
    have hbits := bits_applyAll_of_no_taps halive.bits_lt htaps hwhite hfirst
    refine ⟨hbits, fun hwidth => ⟨?_, ?_⟩⟩
    · rw [hbits]
      exact Nat.div_eq_of_lt (halive.bits_lt_of_width_le hwidth)
    · rw [bits_applyAll_of_no_taps halive.bits_lt htaps hwhite hkeeps, noiseStepsIn_append]
      exact Nat.div_eq_of_lt (halive.bits_lt_of_width_le (Nat.le_add_right_of_le hwidth))
  · intro event hsets
    rw [noise_of_setsNoise hsets]
    exact Nat.one_shiftLeft _

/-- What brings a PSG to four bits of noise with a tap above them, and to white noise at the pace of its
third tone. -/
def untapping : List EngineEvent := [.told (.configure 0x80000400), .told (.bus 0 0xE7)]

/-- A PSG without taps. -/
def untapped : Psg := EngineEvent.applyAll untapping Psg.new

/-- The noise of that PSG takes a step with every other clock.  After four of them it has died, and a
new volume does not bring it back. -/
theorem untapped_dies :
    untapped.noise.bits = 8 ∧ untapped.noiseStepsIn (List.replicate 8 .clocked) = 4 ∧
      (EngineEvent.applyAll (List.replicate 8 .clocked) untapped).noise.bits = 0 ∧
      (EngineEvent.applyAll (List.replicate 8 .clocked ++ [.told (.bus 0 0x9F)])
        untapped).noise.bits = 0 := by
  have hdies := (noise_dies_only_without_taps untapping).2.2.1
  rw [show EngineEvent.applyAll untapping Psg.new = untapped from rfl] at hdies
  have htaps : ∀ tap < untapped.noise.width, untapped.noise.taps.testBit tap = false := by
    decide +kernel
  have hwhite : untapped.white = true := by decide +kernel
  obtain ⟨-, hdead⟩ :=
    hdies htaps hwhite (List.replicate 8 .clocked) [.told (.bus 0 0x9F)] (by decide +kernel)
  exact ⟨by decide +kernel, by decide +kernel, hdead (by decide +kernel)⟩

end ChipLog.Psg
