/-
# Counting the clocks of an engine

How often an engine has been clocked is not part of any state here.  To count it one puts a
meter in front of the engine: a `Metered` engine passes everything on and counts the clocks, and
taking the meter off again (`erase`) gives what the engine does by itself.  So a count that is
read off a metered engine is the count for the engine behind it.

* A meter is passed through by all that is done to an engine (`Metered.passage`), and taking it off
  is looking at the engine behind it (`Socket.erase_eq_map`), so sockets with meters do what they do
  without.
* A voice that has made some frames is `InStep` with the output: the frames it has made, at the
  rate of its engine, and the phase it has in hand account for all the clocks of its engine.
  Calls keep it in step (`InStep.send`), and so does every further frame (`InStep.advance`).
* That fixes the count: it is the number of clocks that the frames take, rounded up
  (`InStep.clocks_eq`).
-/
import ChipLog.Proofs.Board.Passage

namespace ChipLog

/-! ## 1. Clocks that are due -/

/-- The clocks that `frames` frames of output take at `rate` samples a second, rounded up. -/
def clocksDue (rate frames : Nat) : Nat := (frames * rate + (outputRate - 1)) / outputRate

/-- A count of clocks that covers the frames, with less than one clock to spare, is the count
that is due. -/
theorem eq_clocksDue {rate frames clocks spare : Nat} (hspare : spare < outputRate)
    (h : clocks * outputRate = frames * rate + spare) : clocks = clocksDue rate frames := by
  unfold clocksDue
  simp only [outputRate] at *
  omega

/-- A further frame costs the whole clocks of one frame, or one more. -/
theorem clocksDue_succ (rate frames : Nat) :
    clocksDue rate (frames + 1) = clocksDue rate frames + rate / outputRate ∨
      clocksDue rate (frames + 1) = clocksDue rate frames + clocksDue rate 1 := by
  unfold clocksDue
  rw [Nat.add_mul, Nat.one_mul]
  simp only [outputRate]
  omega

/-! ## 2. Engines with a meter -/

/-- An engine, and how often it has been clocked. -/
structure Metered (σ : Type) where
  engine : σ
  clocks : Nat := 0
  deriving DecidableEq

variable {σ : Type} [ChipEngine σ]

instance : ChipEngine (Metered σ) where
  sampleRate metered hz := ChipEngine.sampleRate metered.engine hz
  start hz metered := { metered with engine := ChipEngine.start hz metered.engine }
  configure flags metered := { metered with engine := ChipEngine.configure flags metered.engine }
  writeBus address data metered :=
    { metered with engine := ChipEngine.writeBus address data metered.engine }
  clock metered := ⟨ChipEngine.clock metered.engine, metered.clocks + 1⟩
  sample metered := ChipEngine.sample metered.engine
  writeRom kind size offset data metered :=
    { metered with engine := ChipEngine.writeRom kind size offset data metered.engine }
  writeRam offset data metered :=
    { metered with engine := ChipEngine.writeRam offset data metered.engine }

namespace Metered

/-- Engines with a meter that stands at zero. -/
def factory {σ : Type} (engines : Factory σ) : Factory (Metered σ) := fun site => ⟨engines site, 0⟩

/-- All that is done to a metered engine goes through to the engine behind the meter. -/
theorem passage : Passage (engine : Metered σ → σ) where
  sampleRate _ _ := rfl
  apply call _ := by cases call <;> rfl
  clock _ := rfl
  sample _ := rfl

/-- A call is not a clock. -/
theorem clocks_apply (call : EngineCall) (metered : Metered σ) :
    (call.apply metered).clocks = metered.clocks := by
  cases call <;> rfl

theorem clocks_applyAll (calls : List EngineCall) (metered : Metered σ) :
    (EngineCall.applyAll calls metered).clocks = metered.clocks := by
  induction calls generalizing metered with
  | nil => rfl
  | cons call calls ih => rw [EngineCall.applyAll_cons, ih, clocks_apply]

end Metered

/-! ## 3. Taking the meter off -/

/-- The voice without its meter. -/
def Voice.erase {σ : Type} (voice : Voice (Metered σ)) : Voice σ :=
  ⟨voice.engine.engine, voice.hz, voice.rate, voice.phase⟩

namespace Socket

/-- The socket without the meter of its engine. -/
def erase {σ : Type} (socket : Socket (Metered σ)) : Socket σ :=
  ⟨socket.voice.map Voice.erase, socket.audible⟩

/-- To take the meter off is to look at the engine behind it. -/
theorem erase_eq_map {σ : Type} (socket : Socket (Metered σ)) :
    socket.erase = socket.map Metered.engine := rfl

end Socket

/-! ## 4. In step with the output -/

namespace Voice

/-- A voice that has made `made` frames with the engine that `engine` has become. -/
structure InStep (engine : σ) (made : Nat) (voice : Voice (Metered σ)) : Prop where
  /-- The rate is the one that the engine gave when it was started. -/
  rate_eq : voice.rate =
    (ChipEngine.sampleRate (ChipEngine.start voice.hz engine) voice.hz).toNat
  /-- Every clock is accounted for. -/
  balance : voice.engine.clocks * outputRate = made * voice.rate + voice.phase
  phase_lt : voice.phase < outputRate

variable {engine : σ} {made : Nat} {voice : Voice (Metered σ)}

/-- A voice starts in step. -/
theorem inStep_start (engine : σ) (hz : UInt32) :
    (start (⟨engine, 0⟩ : Metered σ) hz).InStep engine 0 := by
  refine ⟨rfl, ?_, by simp [start, outputRate]⟩
  show 0 * outputRate = 0 * _ + 0
  simp

/-- Calls do not put a voice out of step. -/
theorem InStep.send (h : voice.InStep engine made) (calls : List EngineCall) :
    (voice.send calls).InStep engine made := by
  refine ⟨h.rate_eq, ?_, h.phase_lt⟩
  rw [Voice.send, Metered.clocks_applyAll]
  exact h.balance

/-- What the loop adds to the phase it has clocked. -/
theorem phase_catchUp_eq (voice : Voice (Metered σ)) :
    voice.catchUp.engine.clocks * outputRate + voice.phase =
      voice.engine.clocks * outputRate + voice.catchUp.phase := by
  fun_induction catchUp voice with
  | case1 voice h ih =>
    have hclocks : (ChipEngine.clock voice.engine).clocks = voice.engine.clocks + 1 := rfl
    simp only [hclocks, Nat.add_mul, Nat.one_mul] at ih
    omega
  | case2 voice h => rfl

/-- **A frame keeps a voice in step.** -/
theorem InStep.advance (h : voice.InStep engine made) :
    voice.advance.InStep engine (made + 1) := by
  have hclocks := phase_catchUp_eq voice
  have hdue := voice.rate_le_phase_catchUp
  refine ⟨?_, ?_, phase_advance_lt h.phase_lt⟩
  · rw [rate_advance, hz_advance]
    exact h.rate_eq
  · have hbalance := h.balance
    rw [rate_advance, Nat.add_mul, Nat.one_mul]
    show voice.catchUp.engine.clocks * outputRate =
      made * voice.rate + voice.rate + (voice.catchUp.phase - voice.catchUp.rate)
    rw [rate_catchUp]
    omega

/-- **The engine of a voice in step has been clocked as often as its frames take.** -/
theorem InStep.clocks_eq (h : voice.InStep engine made) :
    voice.engine.clocks = clocksDue voice.rate made :=
  eq_clocksDue h.phase_lt h.balance

/-- The phase is what the clocks leave over. -/
theorem InStep.phase_eq (h : voice.InStep engine made) :
    made * voice.rate ≤ voice.engine.clocks * outputRate ∧
      voice.phase = voice.engine.clocks * outputRate - made * voice.rate := by
  have hbalance := h.balance
  omega

/-- A further frame costs the whole clocks of one frame, or one more. -/
theorem InStep.clocks_advance (h : voice.InStep engine made) :
    voice.advance.engine.clocks = voice.engine.clocks + voice.rate / outputRate ∨
      voice.advance.engine.clocks = voice.engine.clocks + clocksDue voice.rate 1 := by
  rw [h.advance.clocks_eq, h.clocks_eq, rate_advance]
  exact clocksDue_succ voice.rate made

/-- What can be said of a voice after `made` frames: its clocks, its phase, and what the next frame
will cost. -/
structure OnTime (engine : σ) (made : Nat) (voice : Voice (Metered σ)) : Prop where
  rate_eq : voice.rate =
    (ChipEngine.sampleRate (ChipEngine.start voice.hz engine) voice.hz).toNat
  clocks_eq : voice.engine.clocks = clocksDue voice.rate made
  frames_le : made * voice.rate ≤ voice.engine.clocks * outputRate
  phase_eq : voice.phase = voice.engine.clocks * outputRate - made * voice.rate
  phase_lt : voice.phase < outputRate
  /-- When the loop of a frame ends, the rate can be taken off. -/
  rate_le_phase : voice.rate ≤ voice.catchUp.phase
  cost : voice.advance.engine.clocks = voice.engine.clocks + voice.rate / outputRate ∨
    voice.advance.engine.clocks = voice.engine.clocks + clocksDue voice.rate 1

theorem InStep.onTime (h : voice.InStep engine made) : voice.OnTime engine made where
  rate_eq := h.rate_eq
  clocks_eq := h.clocks_eq
  frames_le := h.phase_eq.1
  phase_eq := h.phase_eq.2
  phase_lt := h.phase_lt
  rate_le_phase := voice.rate_le_phase_catchUp
  cost := h.clocks_advance

end Voice

end ChipLog
