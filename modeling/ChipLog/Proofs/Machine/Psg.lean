/-
# The square wave chip on the machine

The noise register of the chip is set by a shift by its width less one.  That panics for a width of
zero and for one of more than 32 bits, and the width comes from the header of a log.  But no other
width gets into the chip: what the header gives is looked at first, and a chip that has not been given
any has one of 16 bits (`Sound`).

The counters are words that are counted down, and the levels of the channels are signed words that are
added up.  A counter is not counted down below zero, and four levels of at most 8191 stay in a word.

Main statement: whatever is done to a chip, calls in any order and clocks between them, it can be done
on the machine (`happenAll_eq`).  So the engine that comes with the player is one whose operations
return.
-/
import ChipLog.Proofs.Board.Passage
import ChipLog.Proofs.Machine.Checked
import ChipLog.Psg.Basic
import Mathlib.Data.Nat.Bitwise

namespace ChipLog.Machine

open Psg (Oscillator ShiftRegister)

/-! ## 1. The noise register -/

/-- The lowest bit of a word, moved up to the top of a register. -/
def atTop (r : ShiftRegister) (bit : Bool) : Checked Nat := do
  let place ← sub r.width 1
  shiftUp 32 bit.toNat place

def resetNoise (r : ShiftRegister) : Checked ShiftRegister := do
  let bits ← atTop r true
  return { r with bits }

def stepNoise (white : Bool) (r : ShiftRegister) : Checked ShiftRegister := do
  let top ← atTop r (r.input white)
  return { r with bits := r.bits / 2 ||| top }

def configureNoise (taps width : Nat) (r : ShiftRegister) : Checked ShiftRegister :=
  resetNoise
    { r with
      taps := if taps = 0 then 9 else taps
      width := if 1 ≤ width ∧ width ≤ 32 then width else 16 }

/-- A register of a width that fits a word. -/
def Sound (r : ShiftRegister) : Prop := 1 ≤ r.width ∧ r.width ≤ 32

section Noise

variable {r : ShiftRegister}

theorem sound_configure (taps width : Nat) (r : ShiftRegister) : Sound (r.configure taps width) := by
  show 1 ≤ (if 1 ≤ width ∧ width ≤ 32 then width else 16) ∧
    (if 1 ≤ width ∧ width ≤ 32 then width else 16) ≤ 32
  split <;> omega

theorem atTop_eq (h : Sound r) (bit : Bool) :
    atTop r bit = .ok (if bit then 1 <<< (r.width - 1) else 0) := by
  obtain ⟨hlow, hhigh⟩ := h
  have hcount : r.width - 1 < 32 := by omega
  have hbit : bit.toNat <<< (r.width - 1) < 2 ^ 32 := by
    rw [Nat.shiftLeft_eq]
    calc bit.toNat * 2 ^ (r.width - 1)
        ≤ 1 * 2 ^ (r.width - 1) := Nat.mul_le_mul_right _ (Bool.toNat_le bit)
      _ < 2 ^ 32 := by
        rw [Nat.one_mul]
        exact Nat.pow_lt_pow_right (by decide) hcount
  unfold atTop
  rw [sub_of_le hlow]
  show shiftUp 32 bit.toNat (r.width - 1) = _
  rw [shiftUp_of_lt hcount hbit]
  cases bit with
  | false => rw [Bool.toNat_false, Nat.zero_shiftLeft, if_neg Bool.false_ne_true]
  | true => rw [Bool.toNat_true, if_pos rfl]

theorem resetNoise_eq (h : Sound r) : resetNoise r = .ok r.reset := by
  unfold resetNoise
  rw [atTop_eq h]
  rfl

theorem stepNoise_eq (h : Sound r) (white : Bool) : stepNoise white r = .ok (r.step white) := by
  unfold stepNoise
  rw [atTop_eq h]
  rfl

theorem configureNoise_eq (taps width : Nat) (r : ShiftRegister) :
    configureNoise taps width r = .ok (r.configure taps width) :=
  resetNoise_eq (sound_configure taps width r)

end Noise

/-! ## 2. Calls -/

/-- Change the noise register.  This restarts the noise. -/
def setNoise (value : Nat) (psg : Psg) : Checked Psg := do
  let noise ← resetNoise psg.noise
  return { psg with noiseControl := value % 8, noise }

/-- Write to the latched register; only a write to the noise can fail. -/
def store (nibble : Nat) (tone : Nat → Nat) (psg : Psg) : Checked Psg :=
  if psg.latch.volume ∨ psg.latch.channel.val < 3 then return psg.store nibble tone
  else setNoise nibble psg

/-- A byte at an even bus address. -/
def writeByte (byte : Nat) (psg : Psg) : Checked Psg :=
  if 128 ≤ byte then
    store (byte % 16) (fun period => period / 16 * 16 + byte % 16)
      { psg with latch := .ofByte byte }
  else
    store (byte % 16) (fun period => byte % 64 * 16 + period % 16) psg

/-- A byte at any bus address. -/
def write (address data : UInt8) (psg : Psg) : Checked Psg :=
  if address % 2 == 0 then writeByte data.toNat psg else return { psg with stereo := data }

/-- Reset everything but the shape of the noise register. -/
def restart (psg : Psg) : Checked Psg := do
  let noise ← resetNoise psg.noise
  return { Psg.silent psg.noise with noise }

/-- Take taps and width of the noise register from a word of the header. -/
def configure (flags : UInt32) (psg : Psg) : Checked Psg := do
  let noise ← configureNoise (flags.toNat / 0x10000) (flags.toNat / 0x100 % 0x100) psg.noise
  return { psg with noise }

/-- One thing that the chip is told. -/
def tell (call : EngineCall) (psg : Psg) : Checked Psg :=
  match call with
  | .start _ => restart psg
  | .configure flags => configure flags psg
  | .bus address data => write address data psg
  | .rom .. | .ram .. => return psg

section Calls

variable {psg : Psg}

theorem setNoise_eq (h : Sound psg.noise) (value : Nat) :
    setNoise value psg = .ok (psg.setNoise value) := by
  unfold setNoise
  rw [resetNoise_eq h]
  rfl

theorem store_eq (h : Sound psg.noise) (nibble : Nat) (tone : Nat → Nat) :
    store nibble tone psg = .ok (psg.store nibble tone) := by
  unfold store
  by_cases hsafe : psg.latch.volume ∨ psg.latch.channel.val < 3
  · rw [if_pos hsafe]
    rfl
  · obtain ⟨hvolume, hchannel⟩ := not_or.mp hsafe
    rw [if_neg hsafe, setNoise_eq h, Psg.store, if_neg hvolume, dif_neg hchannel]

theorem write_eq (h : Sound psg.noise) (address data : UInt8) :
    write address data psg = .ok (psg.write address data) := by
  have hlatched : Sound { psg with latch := .ofByte data.toNat }.noise := h
  unfold write Psg.write writeByte Psg.writeByte
  split
  · split
    · exact store_eq hlatched _ _
    · exact store_eq h _ _
  · rfl

theorem restart_eq (h : Sound psg.noise) : restart psg = .ok psg.restart := by
  unfold restart
  rw [resetNoise_eq h]
  rfl

theorem configure_eq (flags : UInt32) (psg : Psg) :
    configure flags psg = .ok (psg.configure flags) := by
  unfold configure
  rw [configureNoise_eq]
  rfl

/-- **What the chip is told**, it can be told on the machine. -/
theorem tell_eq (h : Sound psg.noise) (call : EngineCall) :
    tell call psg = .ok (call.apply psg) := by
  cases call with
  | start hz => exact restart_eq h
  | configure flags => exact configure_eq flags psg
  | bus address data => exact write_eq h address data
  | rom kind size offset data => rfl
  | ram offset data => rfl

/-- A call leaves a register of a good width, if only the header has been looked at. -/
theorem sound_apply (h : Sound psg.noise) (call : EngineCall) :
    Sound (call.apply psg).noise := by
  have hstore : ∀ (psg : Psg) nibble tone, Sound psg.noise →
      Sound (psg.store nibble tone).noise := by
    intro psg nibble tone h
    unfold Psg.store
    dsimp only
    split
    · exact h
    · split <;> exact h
  cases call with
  | start hz => exact h
  | configure flags => exact sound_configure _ _ _
  | bus address data =>
    show Sound (psg.write address data).noise
    unfold Psg.write Psg.writeByte
    split
    · split
      · exact hstore _ _ _ h
      · exact hstore _ _ _ h
    · exact h
  | rom kind size offset data => exact h
  | ram offset data => exact h

end Calls

/-! ## 3. Clocks -/

/-- Count down, and stay at zero. -/
def countDown (counter : Nat) : Checked Nat :=
  if 0 < counter then sub counter 1 else return counter

/-- One clock of an oscillator. -/
def clockOscillator (period : Nat) (osc : Oscillator) : Checked Oscillator := do
  let counter ← countDown osc.counter
  return if counter = 0 then ⟨period, !osc.high⟩ else ⟨counter, osc.high⟩

/-- A signed word of 32 bits. -/
def word32 (n : Int) : Checked Int :=
  if Int32.minValue.toInt ≤ n ∧ n ≤ Int32.maxValue.toInt then .ok n else .error .panic

/-- What a channel adds to each side that it is sent to. -/
def level (psg : Psg) (channel : Fin 4) : Checked Int := do
  let attenuation ← entry psg.attenuation channel.val
  let volume ← entry Psg.volumes (attenuation % 16)
  if psg.high channel then return volume else word32 (-volume)

/-- Add the level of a channel to a sum, if its bit of the stereo mask is set.  The bits of a side
begin with `first`. -/
def addLevel (psg : Psg) (first : Nat) (sum : Int) (channel : Fin 4) : Checked Int := do
  let level ← level psg channel
  let bit ← shiftUp 8 first channel.val
  if psg.stereo.toNat &&& bit ≠ 0 then word32 (sum + level) else return sum

def side (psg : Psg) (first : Nat) : Checked Int :=
  (List.finRange 4).foldlM (addLevel psg first) 0

/-- Clock the noise register, judging by the pace before the clock. -/
def clockNoise (psg : Psg) : Checked Psg :=
  if psg.noiseSteps then do
    let noise ← stepNoise psg.white psg.noise
    return { psg with noise }
  else return psg

/-- Clock all four oscillators. -/
def clockOscillators (psg : Psg) : Checked Psg := do
  let oscillators ← fill fun channel => do
    let osc ← entry psg.oscillators channel.val
    clockOscillator (psg.period channel) osc
  return { psg with oscillators }

/-- Put the levels of the channels together. -/
def mix (psg : Psg) : Checked Psg := do
  let left ← side psg 0x10
  let right ← side psg 0x01
  return { psg with output := ⟨Int32.ofInt left, Int32.ofInt right⟩ }

/-- One clock of the chip. -/
def clock (psg : Psg) : Checked Psg := do
  let psg ← clockNoise psg
  let psg ← clockOscillators psg
  mix psg

section Clocks

variable {psg : Psg}

theorem countDown_eq (counter : Nat) : countDown counter = .ok (counter - 1) := by
  unfold countDown
  split
  case isTrue hpos => exact sub_of_le hpos
  case isFalse hzero =>
    rw [Nat.eq_zero_of_not_pos hzero]
    rfl

theorem clockOscillator_eq (period : Nat) (osc : Oscillator) :
    clockOscillator period osc = .ok (osc.clock period) := by
  unfold clockOscillator
  rw [countDown_eq]
  show (Except.ok (if osc.counter - 1 = 0 then _ else _) : Checked Oscillator) = _
  by_cases hends : osc.counter ≤ 1
  · rw [Oscillator.clock_of_ends period hends, if_pos (Nat.sub_eq_zero_of_le hends)]
  · have hruns : 1 < osc.counter := Nat.lt_of_not_le hends
    rw [Oscillator.clock_of_runs period hruns, if_neg (Nat.sub_ne_zero_of_lt hruns)]

theorem word32_of_natAbs {n : Int} (h : n.natAbs < 0x80000000) : word32 n = .ok n := by
  refine if_pos ⟨?_, ?_⟩
  · rw [show Int32.minValue.toInt = -0x80000000 by decide]
    omega
  · rw [show Int32.maxValue.toInt = 0x7FFFFFFF by decide]
    omega

/-- No channel is louder than this. -/
theorem natAbs_volumes (i : Fin 16) : Psg.volumes[i].natAbs ≤ 8191 := by
  revert i
  decide

theorem natAbs_level (psg : Psg) (channel : Fin 4) : (psg.level channel).natAbs ≤ 8191 := by
  have hvolume := natAbs_volumes (Fin.ofNat 16 psg.attenuation[channel])
  unfold Psg.level
  dsimp only
  split
  · exact hvolume
  · rwa [Int.natAbs_neg]

theorem level_eq (psg : Psg) (channel : Fin 4) : level psg channel = .ok (psg.level channel) := by
  have hvolume := natAbs_volumes (Fin.ofNat 16 psg.attenuation[channel])
  unfold level
  rw [entry_of_lt _ channel.isLt]
  show (do
    let volume ← entry Psg.volumes (psg.attenuation[channel] % 16)
    if psg.high channel then return volume else word32 (-volume)) = _
  rw [entry_of_lt _ (Nat.mod_lt _ (by decide))]
  show (if psg.high channel then .ok Psg.volumes[Fin.ofNat 16 psg.attenuation[channel]]
    else word32 (-Psg.volumes[Fin.ofNat 16 psg.attenuation[channel]])) = _
  unfold Psg.level
  split
  · rfl
  · exact word32_of_natAbs (by rw [Int.natAbs_neg]; omega)

/-- The bit of a channel is one of the eight of the mask. -/
theorem mask_of_channel {first shift : Nat} (hfirst : first = 1 <<< shift) (hshift : shift ≤ 4)
    (channel : Fin 4) : shiftUp 8 first channel.val = .ok (2 ^ (shift + channel.val)) := by
  have hchannel := channel.isLt
  have hbit : first <<< channel.val = 2 ^ (shift + channel.val) := by
    rw [hfirst, ← Nat.shiftLeft_add, Nat.one_shiftLeft]
  have hlt : first <<< channel.val < 2 ^ 8 := by
    rw [hbit]
    exact Nat.pow_lt_pow_right (by decide) (by omega)
  rw [shiftUp_of_lt (by omega) hlt, hbit]

/-- **The levels of some channels add up**, if there is room for as many of them. -/
theorem foldlM_addLevel {first shift : Nat} (hfirst : first = 1 <<< shift) (hshift : shift ≤ 4)
    (psg : Psg) (channels : List (Fin 4)) {sum : Int}
    (hroom : sum.natAbs + 8191 * channels.length < 0x80000000) :
    channels.foldlM (addLevel psg first) sum =
      .ok (channels.foldl
        (fun sum channel =>
          if psg.stereo.toNat.testBit (shift + channel.val) then sum + psg.level channel else sum)
        sum) := by
  induction channels generalizing sum with
  | nil => rfl
  | cons channel channels ih =>
    rw [List.length_cons] at hroom
    have hlevel := natAbs_level psg channel
    have hstep : addLevel psg first sum channel =
        .ok (if psg.stereo.toNat.testBit (shift + channel.val) then sum + psg.level channel
          else sum) := by
      unfold addLevel
      rw [level_eq, mask_of_channel hfirst hshift]
      show (if psg.stereo.toNat &&& 2 ^ (shift + channel.val) ≠ 0 then word32 (sum + psg.level channel)
        else .ok sum) = _
      rw [Nat.and_two_pow]
      cases psg.stereo.toNat.testBit (shift + channel.val) with
      | false => simp
      | true =>
        rw [if_pos (by simp), if_pos rfl]
        exact word32_of_natAbs (by omega)
    rw [List.foldlM_cons, hstep]
    refine ih ?_
    split <;> omega

theorem side_eq {first shift : Nat} (hfirst : first = 1 <<< shift) (hshift : shift ≤ 4)
    (psg : Psg) : side psg first = .ok (psg.side shift) :=
  foldlM_addLevel hfirst hshift psg (List.finRange 4) (by decide)

theorem clockNoise_eq (h : Sound psg.noise) : clockNoise psg = .ok psg.clockNoise := by
  unfold clockNoise Psg.clockNoise
  split
  · rw [stepNoise_eq h]
    rfl
  · rfl

theorem clockOscillators_eq (psg : Psg) : clockOscillators psg = .ok psg.clockOscillators := by
  have hclock : ∀ channel : Fin 4, (do
      let osc ← entry psg.oscillators channel.val
      clockOscillator (psg.period channel) osc) =
        .ok (psg.oscillators[channel].clock (psg.period channel)) := by
    intro channel
    rw [entry_of_lt _ channel.isLt]
    exact clockOscillator_eq (psg.period channel) psg.oscillators[channel]
  unfold clockOscillators
  rw [fill_eq hclock]
  rfl

theorem mix_eq (psg : Psg) : mix psg = .ok psg.render := by
  have hleft : side psg 0x10 = .ok (psg.side 4) :=
    side_eq (Nat.one_shiftLeft 4).symm (Nat.le_refl 4) psg
  have hright : side psg 0x01 = .ok (psg.side 0) :=
    side_eq (Nat.one_shiftLeft 0).symm (Nat.zero_le 4) psg
  unfold mix
  rw [hleft, hright]
  rfl

/-- **A clock is reached** by a chip with a register of a good width. -/
theorem clock_eq (h : Sound psg.noise) : clock psg = .ok psg.clock := by
  unfold clock
  rw [clockNoise_eq h]
  show (do
    let psg ← clockOscillators psg.clockNoise
    mix psg) = _
  rw [clockOscillators_eq]
  exact mix_eq _

theorem sound_clock (h : Sound psg.noise) : Sound psg.clock.noise := by
  rw [Psg.noise_clock]
  split <;> exact h

end Clocks

/-! ## 4. Lives -/

/-- One thing that happens to the chip. -/
def happen (event : EngineEvent) (psg : Psg) : Checked Psg :=
  match event with
  | .told call => tell call psg
  | .clocked => clock psg

/-- One thing after the other. -/
def happenAll (events : List EngineEvent) (psg : Psg) : Checked Psg :=
  events.foldlM (fun psg event => happen event psg) psg

theorem happen_eq {psg : Psg} (h : Sound psg.noise) (event : EngineEvent) :
    happen event psg = .ok (event.apply psg) := by
  cases event with
  | told call => exact tell_eq h call
  | clocked => exact clock_eq h

theorem sound_happen {psg : Psg} (h : Sound psg.noise) (event : EngineEvent) :
    Sound (event.apply psg).noise := by
  cases event with
  | told call => exact sound_apply h call
  | clocked => exact sound_clock h

/-- **Whatever is done to a chip**, with a register of a good width it can be done on the machine. -/
theorem happenAll_eq {psg : Psg} (h : Sound psg.noise) (events : List EngineEvent) :
    happenAll events psg = .ok (EngineEvent.applyAll events psg) := by
  induction events generalizing psg with
  | nil => rfl
  | cons event events ih =>
    unfold happenAll at ih ⊢
    rw [List.foldlM_cons, happen_eq h]
    exact ih (sound_happen h event)

theorem sound_new : Sound Psg.new.noise := ⟨by decide, by decide⟩

end ChipLog.Machine
