/-
# Engines behind engines

What one wants to know of an engine is not always part of its state: how often it has been clocked,
say, or all that has been done to it.  To find out, one puts another engine in front that does
everything the first one does and keeps track of the answer on the side.  The map from the states
of that engine to those of the one behind it is a `Passage`: it goes along with every call, every
clock and every sample.

Voices and sockets cannot tell an engine from one in front of it.  To do something and then look at the
engine behind is to look first and then do it (`Voice.map_send`, `Voice.map_advance`,
`Socket.map_send`, `Socket.map_advance`), and what is heard is the same (`Socket.output_map`).

* A `Recorded` engine keeps the list of all calls and clocks.  Its state is nothing but that list and
  the engine it began with, and the engine behind it is what the list has made of that
  (`Recorded.engine`).
-/
import ChipLog.Board.Socket

namespace ChipLog

variable {σ τ : Type} [ChipEngine σ] [ChipEngine τ]

/-! ## 1. Passages -/

/-- A map between the states of two engines that goes along with all that can be done to them. -/
structure Passage (f : τ → σ) : Prop where
  sampleRate : ∀ engine hz, ChipEngine.sampleRate (f engine) hz = ChipEngine.sampleRate engine hz
  apply : ∀ (call : EngineCall) engine, f (call.apply engine) = call.apply (f engine)
  clock : ∀ engine, f (ChipEngine.clock engine) = ChipEngine.clock (f engine)
  sample : ∀ engine, ChipEngine.sample (f engine) = ChipEngine.sample engine

variable {f : τ → σ}

theorem Passage.applyAll (hf : Passage f) (calls : List EngineCall) (engine : τ) :
    f (EngineCall.applyAll calls engine) = EngineCall.applyAll calls (f engine) := by
  induction calls generalizing engine with
  | nil => rfl
  | cons call calls ih => rw [EngineCall.applyAll_cons, EngineCall.applyAll_cons, ih, hf.apply]

/-! ## 2. Voices -/

namespace Voice

/-- The voice with the engine behind its engine. -/
def map {σ τ : Type} (f : τ → σ) (voice : Voice τ) : Voice σ :=
  ⟨f voice.engine, voice.hz, voice.rate, voice.phase⟩

theorem map_start (hf : Passage f) (engine : τ) (hz : UInt32) :
    (start engine hz).map f = start (f engine) hz := by
  have hstart : f (ChipEngine.start hz engine) = ChipEngine.start hz (f engine) :=
    hf.apply (.start hz) engine
  simp [map, start, hstart, ← hf.sampleRate]

theorem map_send (hf : Passage f) (calls : List EngineCall) (voice : Voice τ) :
    (voice.send calls).map f = (voice.map f).send calls := by
  simp [map, send, hf.applyAll]

theorem map_catchUp (hf : Passage f) (voice : Voice τ) :
    voice.catchUp.map f = (voice.map f).catchUp := by
  fun_induction catchUp voice with
  | case1 voice h ih =>
    have hdue : (voice.map f).phase < (voice.map f).rate := h
    rw [ih]
    conv => rhs; rw [catchUp, if_pos hdue]
    simp only [map, hf.clock]
  | case2 voice h =>
    have hdue : ¬ (voice.map f).phase < (voice.map f).rate := h
    rw [catchUp, if_neg hdue]

theorem map_advance (hf : Passage f) (voice : Voice τ) :
    voice.advance.map f = (voice.map f).advance := by
  unfold advance
  rw [← map_catchUp hf]
  rfl

theorem output_map (hf : Passage f) (voice : Voice τ) : (voice.map f).output = voice.output :=
  hf.sample voice.engine

end Voice

/-! ## 3. Sockets -/

namespace Socket

/-- The socket with the engine behind its engine. -/
def map {σ τ : Type} (f : τ → σ) (socket : Socket τ) : Socket σ :=
  ⟨socket.voice.map (Voice.map f), socket.audible⟩

omit [ChipEngine σ] [ChipEngine τ] in
@[simp] theorem isActive_map (f : τ → σ) (socket : Socket τ) :
    (socket.map f).isActive = socket.isActive := by
  simp [map, isActive]

omit [ChipEngine σ] [ChipEngine τ] in
@[simp] theorem hz_map (f : τ → σ) (socket : Socket τ) : (socket.map f).hz = socket.hz := by
  rw [hz, map, Option.map_map]
  rfl

theorem map_send (hf : Passage f) (calls : List EngineCall) (socket : Socket τ) :
    (socket.send calls).value.map f = ((socket.map f).send calls).value := by
  cases hvoice : socket.voice with
  | none => simp [map, send, hvoice]
  | some voice => simp [map, send, hvoice, Voice.map_send hf]

theorem map_advance (hf : Passage f) (socket : Socket τ) :
    socket.advance.map f = (socket.map f).advance := by
  cases hvoice : socket.voice with
  | none => simp [map, advance, hvoice]
  | some voice => simp [map, advance, hvoice, Voice.map_advance hf]

/-- The engine in front is not heard. -/
theorem output_map (hf : Passage f) (socket : Socket τ) : (socket.map f).output = socket.output := by
  cases hvoice : socket.voice with
  | none => simp [map, output, hvoice]
  | some voice => simp [map, output, hvoice, Voice.output_map hf]

end Socket

/-! ## 4. Records -/

/-- One thing that happens to an engine between two samples. -/
inductive EngineEvent
  | told (call : EngineCall)
  | clocked
  deriving DecidableEq

namespace EngineEvent

/-- Let it happen to an engine. -/
def apply : EngineEvent → σ → σ
  | told call => call.apply
  | clocked => ChipEngine.clock

/-- Let one after the other happen. -/
def applyAll (events : List EngineEvent) (engine : σ) : σ :=
  events.foldl (fun engine event => event.apply engine) engine

/-- What every event keeps, many events keep. -/
theorem applyAll_keeps {P : σ → Prop} (h : ∀ event engine, P engine → P (apply event engine))
    (events : List EngineEvent) {engine : σ} (hengine : P engine) : P (applyAll events engine) := by
  induction events generalizing engine with
  | nil => exact hengine
  | cons event events ih => exact ih (h event engine hengine)

end EngineEvent

/-- An engine as it was made, and everything that has happened to it since. -/
structure Recorded (σ : Type) where
  fresh : σ
  record : List EngineEvent := []
  deriving DecidableEq

namespace Recorded

/-- The engine that the record has made of the fresh one. -/
def engine (recorded : Recorded σ) : σ := EngineEvent.applyAll recorded.record recorded.fresh

/-- Put one more entry into the record. -/
def add {σ : Type} (event : EngineEvent) (recorded : Recorded σ) : Recorded σ :=
  { recorded with record := recorded.record ++ [event] }

theorem engine_add (event : EngineEvent) (recorded : Recorded σ) :
    (recorded.add event).engine = event.apply recorded.engine := by
  simp [engine, add, EngineEvent.applyAll]

instance : ChipEngine (Recorded σ) where
  sampleRate recorded hz := ChipEngine.sampleRate recorded.engine hz
  start hz := add (.told (.start hz))
  configure flags := add (.told (.configure flags))
  writeBus address data := add (.told (.bus address data))
  clock := add .clocked
  sample recorded := ChipEngine.sample recorded.engine
  writeRom kind size offset data := add (.told (.rom kind size offset data))
  writeRam offset data := add (.told (.ram offset data))

/-- Engines whose records are empty. -/
def factory {σ : Type} (engines : Factory σ) : Factory (Recorded σ) := fun site => ⟨engines site, []⟩

/-- A call is recorded, whatever it is. -/
theorem apply_eq_add (call : EngineCall) (recorded : Recorded σ) :
    call.apply recorded = recorded.add (.told call) := by
  cases call <;> rfl

/-- **A recorded engine does what the engine behind it does.** -/
theorem passage : Passage (engine : Recorded σ → σ) where
  sampleRate _ _ := rfl
  apply call recorded := by rw [apply_eq_add, engine_add]; rfl
  clock recorded := engine_add .clocked recorded
  sample _ := rfl

/-- Calls do not change what an engine was like when it was made. -/
theorem fresh_applyAll (calls : List EngineCall) (recorded : Recorded σ) :
    (EngineCall.applyAll calls recorded).fresh = recorded.fresh := by
  induction calls generalizing recorded with
  | nil => rfl
  | cons call calls ih => rw [EngineCall.applyAll_cons, ih, apply_eq_add]; rfl

end Recorded

/-- Nor do clocks. -/
theorem Voice.fresh_catchUp (voice : Voice (Recorded σ)) :
    voice.catchUp.engine.fresh = voice.engine.fresh := by
  fun_induction catchUp voice with
  | case1 voice h ih => exact ih
  | case2 voice h => rfl

end ChipLog
