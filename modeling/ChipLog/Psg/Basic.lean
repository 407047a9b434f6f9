/-
# The SN76489 sound generator

Three square-wave tones and one noise, each with sixteen steps of volume, and a mask that
sends each of them to either side.

A byte at an even bus address is a register write.  With its top bit set it is a latch byte: it
chooses a channel and one of that channel's two registers and brings four bits for it.
Otherwise it is a data byte for the register that was chosen last.  The period of a tone has
ten bits: a latch byte sets the low four, a data byte the high six.  A byte at an odd
address is the stereo mask.
-/
import ChipLog.Engine
import ChipLog.Psg.Oscillator
import ChipLog.Psg.ShiftRegister

namespace ChipLog

namespace Psg

/-! ## 1. State -/

/-- The register that data bytes are for. -/
structure Latch where
  channel : Fin 4
  volume : Bool
  deriving DecidableEq, Repr

/-- The noise channel; the others are tones. -/
def noiseChannel : Fin 4 := 3

end Psg

/-- The state of the chip. -/
structure Psg where
  periods : Vector Nat 3
  attenuation : Vector Nat 4
  /-- Bits 0 and 1 choose the pace of the noise, bit 2 makes it white. -/
  noiseControl : Nat
  latch : Psg.Latch
  stereo : UInt8
  oscillators : Vector Psg.Oscillator 4
  noise : Psg.ShiftRegister
  output : RawFrame
  deriving DecidableEq

namespace Psg

/-- The chip after a reset, with a given noise register. -/
def silent (noise : ShiftRegister) : Psg where
  periods := Vector.replicate 3 0
  attenuation := Vector.replicate 4 15
  noiseControl := 0
  latch := ⟨0, false⟩
  stereo := 0xFF
  oscillators := Vector.replicate 4 {}
  noise := noise.reset
  output := .silence

/-- A new chip. -/
def new : Psg := silent {}

/-! ## 2. Register writes -/

/-- Change the noise register.  This restarts the noise. -/
def setNoise (value : Nat) (psg : Psg) : Psg :=
  { psg with noiseControl := value % 8, noise := psg.noise.reset }

/-- Write to the latched register: `nibble` for a volume or for the noise, `tone` for the
period of a tone. -/
def store (nibble : Nat) (tone : Nat → Nat) (psg : Psg) : Psg :=
  let channel := psg.latch.channel
  if psg.latch.volume then
    { psg with attenuation := psg.attenuation.set channel nibble }
  else if h : channel.val < 3 then
    { psg with periods := psg.periods.set channel (tone psg.periods[channel.val]) }
  else
    psg.setNoise nibble

/-- The register that a latch byte chooses. -/
def Latch.ofByte (byte : Nat) : Latch where
  channel := Fin.ofNat 4 (byte / 32)
  volume := byte / 16 % 2 == 1

/-- A byte at an even bus address. -/
def writeByte (byte : Nat) (psg : Psg) : Psg :=
  if 128 ≤ byte then
    { psg with latch := Latch.ofByte byte }.store (byte % 16) fun period =>
      period / 16 * 16 + byte % 16
  else
    psg.store (byte % 16) fun period => byte % 64 * 16 + period % 16

/-- A byte at any bus address. -/
def write (address data : UInt8) (psg : Psg) : Psg :=
  if address % 2 == 0 then psg.writeByte data.toNat else { psg with stereo := data }

/-! ## 3. Periods and levels -/

/-- The length of half a wave of a tone, in clocks. -/
def tonePeriod (psg : Psg) (channel : Fin 3) : Nat := max psg.periods[channel] 1

/-- The clocks between two turns of the noise pace. -/
def noisePeriod (psg : Psg) : Nat :=
  match psg.noiseControl % 4 with
  | 0 => 16
  | 1 => 32
  | 2 => 64
  | _ => psg.tonePeriod 2

/-- The period that a channel's oscillator runs with. -/
def period (psg : Psg) (channel : Fin 4) : Nat :=
  if h : channel.val < 3 then psg.tonePeriod ⟨channel, h⟩ else psg.noisePeriod

/-- Every period is that of a tone or one of the three that the noise alone can have. -/
theorem period_cases {motive : Nat → Prop} {psg : Psg}
    (htone : ∀ tone, motive (psg.tonePeriod tone)) (hnoise : ∀ fixed ∈ [16, 32, 64], motive fixed)
    (channel : Fin 4) : motive (psg.period channel) := by
  unfold period noisePeriod
  split
  case isTrue => exact htone _
  case isFalse =>
    split
    · exact hnoise 16 (by decide)
    · exact hnoise 32 (by decide)
    · exact hnoise 64 (by decide)
    · exact htone 2

/-- Whether the noise is white. -/
def white (psg : Psg) : Bool := psg.noiseControl.testBit 2

/-- Sample values for the sixteen steps of volume, two decibels apart; the last is silence. -/
def volumes : Vector Int 16 := #v[
    8191, 6506, 5168, 4105, 3261, 2590, 2057, 1634, 1298, 1031, 819, 650, 516, 410, 326, 0]

/-- Whether a channel is on the upper half of its wave.  A tone with a period of 0 or 1 stays
there, so that its volume register can play samples. -/
def high (psg : Psg) (channel : Fin 4) : Bool :=
  if h : channel.val < 3 then
    psg.periods[channel.val] ≤ 1 || psg.oscillators[channel].high
  else psg.noise.output

/-- What a channel adds to each side that it is sent to. -/
def level (psg : Psg) (channel : Fin 4) : Int :=
  let volume := volumes[Fin.ofNat 16 psg.attenuation[channel]]
  if psg.high channel then volume else -volume

/-- The sum of the channels that bits `shift` to `shift + 3` of the stereo mask select. -/
def side (psg : Psg) (shift : Nat) : Int :=
  (List.finRange 4).foldl
    (fun sum channel =>
      if psg.stereo.toNat.testBit (shift + channel.val) then sum + psg.level channel else sum)
    0

/-! ## 4. Time -/

/-- Clock all four oscillators. -/
def clockOscillators (psg : Psg) : Psg :=
  { psg with
    oscillators := Vector.ofFn fun channel => psg.oscillators[channel].clock (psg.period channel) }

/-- The noise takes a step when its pace turns from low to high. -/
def noiseSteps (psg : Psg) : Bool :=
  let pace := psg.oscillators[noiseChannel]
  pace.ends && !pace.high

/-- Clock the noise register, judging by the pace before the clock. -/
def clockNoise (psg : Psg) : Psg :=
  if psg.noiseSteps then { psg with noise := psg.noise.step psg.white } else psg

/-- Put the levels of the channels together. -/
def render (psg : Psg) : Psg :=
  { psg with output := ⟨Int32.ofInt (psg.side 4), Int32.ofInt (psg.side 0)⟩ }

/-- One clock of the chip. -/
def clock (psg : Psg) : Psg := psg.clockNoise.clockOscillators.render

/-- Reset everything but the shape of the noise register. -/
def restart (psg : Psg) : Psg := silent psg.noise

/-- Take the taps (high half) and the width (second byte) of the noise register from a word
of the header. -/
def configure (flags : UInt32) (psg : Psg) : Psg :=
  { psg with
    noise := psg.noise.configure (flags.toNat / 0x10000) (flags.toNat / 0x100 % 0x100) }

/-! ## 5. A clock, field by field -/

@[simp] theorem periods_clock (psg : Psg) : psg.clock.periods = psg.periods := by
  unfold clock clockNoise
  split <;> rfl

@[simp] theorem attenuation_clock (psg : Psg) : psg.clock.attenuation = psg.attenuation := by
  unfold clock clockNoise
  split <;> rfl

@[simp] theorem noiseControl_clock (psg : Psg) : psg.clock.noiseControl = psg.noiseControl := by
  unfold clock clockNoise
  split <;> rfl

@[simp] theorem latch_clock (psg : Psg) : psg.clock.latch = psg.latch := by
  unfold clock clockNoise
  split <;> rfl

@[simp] theorem stereo_clock (psg : Psg) : psg.clock.stereo = psg.stereo := by
  unfold clock clockNoise
  split <;> rfl

theorem noise_clock (psg : Psg) :
    psg.clock.noise = if psg.noiseSteps then psg.noise.step psg.white else psg.noise := by
  unfold clock clockNoise
  split <;> rfl

/-- Each oscillator is clocked on its own, with the period of its channel. -/
theorem oscillators_clock (psg : Psg) (channel : Fin 4) :
    psg.clock.oscillators.get channel =
      (psg.oscillators.get channel).clock (psg.period channel) := by
  have hclock : ∀ other : Psg, other.clockOscillators.render.oscillators.get channel =
      (other.oscillators.get channel).clock (other.period channel) :=
    fun _ => Vector.getElem_ofFn channel.isLt
  unfold clock
  rw [hclock]
  unfold clockNoise
  split <;> rfl

end Psg

instance : ChipEngine Psg where
  sampleRate _ hz := hz / 16
  start _ psg := psg.restart
  configure := Psg.configure
  writeBus := Psg.write
  clock := Psg.clock
  sample psg := psg.output

end ChipLog
