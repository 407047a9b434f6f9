/-
# An engine at the pace of the output

An engine makes samples at a rate of its own, and the output wants `outputRate` frames a
second.  A voice keeps a phase: it clocks its engine, adding `outputRate` each time, until the
phase has reached the rate of the engine, and then takes the rate off again.  What is left
over goes into the next frame, so nothing is ever lost, however long the log plays.

Main statements: the loop leaves a phase of at least one frame (`rate_le_phase_catchUp`), and
after a frame the phase is below `outputRate` again if it was so before (`phase_advance_lt`).
-/
import ChipLog.Engine

namespace ChipLog

/-- An engine that has been started. -/
structure Voice (σ : Type) where
  engine : σ
  /-- The master clock. -/
  hz : UInt32
  /-- Samples of the engine in a second. -/
  rate : Nat
  phase : Nat := 0
  deriving DecidableEq

namespace Voice

variable {σ : Type} [ChipEngine σ]

/-- Start an engine. -/
def start (engine : σ) (hz : UInt32) : Voice σ :=
  let engine := ChipEngine.start hz engine
  { engine, hz, rate := (ChipEngine.sampleRate engine hz).toNat }

/-- Tell the engine something. -/
def send (calls : List EngineCall) (voice : Voice σ) : Voice σ :=
  { voice with engine := EngineCall.applyAll calls voice.engine }

/-! ## 1. Time -/

/-- Clock the engine until it is due for the next frame. -/
def catchUp (voice : Voice σ) : Voice σ :=
  if voice.phase < voice.rate then
    catchUp
      { voice with
        engine := ChipEngine.clock voice.engine
        phase := voice.phase + outputRate }
  else voice
termination_by voice.rate - voice.phase
decreasing_by
  simp only [outputRate]
  omega

/-- Go on by one frame of output. -/
def advance (voice : Voice σ) : Voice σ :=
  let voice := voice.catchUp
  { voice with phase := voice.phase - voice.rate }

/-- The last sample of the engine. -/
def output (voice : Voice σ) : RawFrame := ChipEngine.sample voice.engine

/-! ## 2. What a frame keeps -/

@[simp] theorem rate_catchUp (voice : Voice σ) : voice.catchUp.rate = voice.rate := by
  fun_induction catchUp voice with
  | case1 voice h ih => exact ih
  | case2 voice h => rfl

@[simp] theorem hz_catchUp (voice : Voice σ) : voice.catchUp.hz = voice.hz := by
  fun_induction catchUp voice with
  | case1 voice h ih => exact ih
  | case2 voice h => rfl

@[simp] theorem rate_advance (voice : Voice σ) : voice.advance.rate = voice.rate :=
  voice.rate_catchUp

@[simp] theorem hz_advance (voice : Voice σ) : voice.advance.hz = voice.hz :=
  voice.hz_catchUp

/-- The loop ends with at least one frame in hand. -/
theorem rate_le_phase_catchUp (voice : Voice σ) : voice.rate ≤ voice.catchUp.phase := by
  fun_induction catchUp voice with
  | case1 voice h ih => exact ih
  | case2 voice h => omega

/-- The loop ends as soon as there is one frame in hand. -/
theorem phase_catchUp_lt {voice : Voice σ} (h : voice.phase < voice.rate + outputRate) :
    voice.catchUp.phase < voice.rate + outputRate := by
  fun_induction catchUp voice with
  | case1 voice hlt ih => exact ih (by simp only [outputRate]; omega)
  | case2 voice hge => exact h

/-- A frame leaves less than one step of the engine over. -/
theorem phase_advance_lt {voice : Voice σ} (h : voice.phase < outputRate) :
    voice.advance.phase < outputRate := by
  have hlt : voice.catchUp.phase < voice.rate + outputRate := phase_catchUp_lt (by omega)
  have hle := voice.rate_le_phase_catchUp
  have hrate := voice.rate_catchUp
  simp only [advance]
  omega

end Voice

end ChipLog
