/-
# An engine is installed once

A socket is used in any order: engines are offered to it, it is written to, switched in the mix, and
asked for frames.  All that counts is what comes after the first engine, and the switch.

* `Socket.effective` leaves out of a script what came before the first engine, except for the switch,
  and every engine after the first.  What is left ends in the same socket, by the same deeds.
* While a socket is empty, nothing but the switch and an engine changes it (`perform_of_inactive`).
* Once there is an engine, others are refused (`perform_install_of_active`).  It keeps its clock and its
  rate, and goes through its start, the writes that come after it, and clocks (`traces_of_first`).

A frame of output is worth `outputRate` to every engine at all times, so this step needs no field in
the socket, and nothing can change it.

Main statement: `Socket.activates_once`.
-/
import ChipLog.Proofs.Board.Lives
import ChipLog.Psg.Bundled

namespace ChipLog.Socket

/-! ## 1. Scripts for a socket -/

/-- The ways of telling an engine something. -/
inductive Write
  | configure (flags : UInt32)
  | bus (address data : UInt8)
  | register (pair number value : UInt8)
  | memory (address : UInt16) (data : UInt8)
  | indexed (number value : UInt8)
  | bank (channel : UInt8) (offset : UInt16)
  | rom (kind : RomKind) (size offset : Nat) (data : ByteArray)
  | ram (offset : Nat) (data : ByteArray)
  deriving DecidableEq

/-- What an engine is told by a write. -/
def Write.calls : Write → List EngineCall
  | configure flags => [.configure flags]
  | bus address data => [.bus address data]
  | register pair number value => EngineCall.register pair number value
  | memory address data => EngineCall.memory address data
  | indexed number value => EngineCall.indexed number value
  | bank channel offset => EngineCall.bank channel offset
  | rom kind size offset data => [.rom kind size offset data]
  | ram offset data => [.ram offset data]

/-- One use of a socket. -/
inductive Action (σ : Type)
  | install (field : ClockField) (engine : σ)
  | write (write : Write)
  | setAudible (audible : Bool)
  | tick
  | mix (total : RawFrame)
  deriving DecidableEq

/-- What a socket answers. -/
inductive Answer
  | installed (new : Bool)
  | frame (frame : RawFrame)
  | done
  deriving DecidableEq

namespace Action

variable {σ τ : Type}

/-- Whether an engine is offered. -/
def isInstall : Action σ → Bool
  | install .. => true
  | _ => false

/-- Whether the switch in front of the mix is thrown. -/
def isSwitch : Action σ → Bool
  | setAudible _ => true
  | _ => false

/-- What an engine is told, if it is there already. -/
def calls : Action σ → List EngineCall
  | write w => w.calls
  | _ => []

/-- The answer of an empty socket to anything but an engine. -/
def idleAnswer : Action σ → Answer
  | tick => .frame .silence
  | mix total => .frame total
  | _ => .done

/-- The same action with other engines. -/
def map (f : σ → τ) : Action σ → Action τ
  | install field engine => install field (f engine)
  | write w => write w
  | setAudible audible => setAudible audible
  | tick => tick
  | mix total => mix total

/-- The same action with engines that begin a record. -/
def recorded : Action σ → Action (Recorded σ) := map fun engine => ⟨engine, []⟩

theorem map_engine_recorded [ChipEngine σ] (action : Action σ) :
    action.recorded.map Recorded.engine = action := by
  cases action <;> rfl

@[simp] theorem isInstall_recorded (action : Action σ) :
    action.recorded.isInstall = action.isInstall := by
  cases action <;> rfl

@[simp] theorem calls_recorded (action : Action σ) : action.recorded.calls = action.calls := by
  cases action <;> rfl

end Action

variable {σ : Type} [ChipEngine σ]

/-- Do what an action asks for. -/
def perform (action : Action σ) (socket : Socket σ) : Logged Unit (Answer × Socket σ) :=
  match action with
  | .install field engine => do
    let (new, next) ← socket.install field engine
    pure (.installed new, next)
  | .write w => do
    let next ← socket.send w.calls
    pure (.done, next)
  | .setAudible audible => pure (.done, socket.setAudible audible)
  | .tick =>
    let (frame, next) := socket.tick
    pure (.frame frame, next)
  | .mix total =>
    let (frame, next) := socket.mix total
    pure (.frame frame, next)

/-- Do what a script asks for, action by action. -/
def performAll : List (Action σ) → Socket σ → Logged Unit (List Answer × Socket σ)
  | [], socket => pure ([], socket)
  | action :: actions, socket => do
    let (answer, next) ← socket.perform action
    let (answers, last) ← performAll actions next
    pure (answer :: answers, last)

/-- The socket after a script. -/
def after (actions : List (Action σ)) (socket : Socket σ) : Socket σ :=
  (socket.performAll actions).value.2

/-- What a script does to the engine of the socket. -/
def deeds (actions : List (Action σ)) (socket : Socket σ) : List (Event Unit) :=
  (socket.performAll actions).deeds

@[simp] theorem after_nil (socket : Socket σ) : socket.after [] = socket := rfl

@[simp] theorem after_cons (action : Action σ) (actions : List (Action σ)) (socket : Socket σ) :
    socket.after (action :: actions) = (socket.perform action).value.2.after actions := rfl

@[simp] theorem deeds_cons (action : Action σ) (actions : List (Action σ)) (socket : Socket σ) :
    socket.deeds (action :: actions) =
      (socket.perform action).deeds ++ (socket.perform action).value.2.deeds actions := by
  simp [deeds, performAll]

theorem after_append (first second : List (Action σ)) (socket : Socket σ) :
    socket.after (first ++ second) = (socket.after first).after second := by
  induction first generalizing socket with
  | nil => rfl
  | cons action actions ih => simp [ih]

theorem deeds_append (first second : List (Action σ)) (socket : Socket σ) :
    socket.deeds (first ++ second) =
      socket.deeds first ++ (socket.after first).deeds second := by
  induction first generalizing socket with
  | nil => rfl
  | cons action actions ih => simp [ih]

/-! ## 2. What counts -/

/-- What counts of a script for an empty socket: the switch, the first engine, and all that comes
after it but other engines. -/
def effective {σ : Type} : List (Action σ) → List (Action σ)
  | [] => []
  | .install field engine :: rest =>
    .install field engine :: rest.filter fun action => !action.isInstall
  | .setAudible audible :: rest => .setAudible audible :: effective rest
  | .write _ :: rest | .tick :: rest | .mix _ :: rest => effective rest

/-- An empty socket does nothing but answer, unless it is offered an engine or switched. -/
theorem perform_of_inactive {action : Action σ} {socket : Socket σ} (hidle : socket.isActive = false)
    (hinstall : action.isInstall = false) (hswitch : action.isSwitch = false) :
    socket.perform action = ⟨(action.idleAnswer, socket), []⟩ := by
  obtain ⟨voice, audible⟩ := socket
  cases voice with
  | some voice => simp [isActive] at hidle
  | none =>
    cases action with
    | install field engine => simp [Action.isInstall] at hinstall
    | setAudible audible => simp [Action.isSwitch] at hswitch
    | write w => rfl
    | tick => rfl
    | mix total => rfl

theorem perform_install_of_inactive {socket : Socket σ} (hidle : socket.isActive = false)
    (field : ClockField) (engine : σ) :
    socket.perform (.install field engine) =
      ⟨(.installed true, socket.started engine field), [.call () (.start field.hz)]⟩ := by
  rw [perform, install_of_inactive hidle]
  rfl

/-- **A socket that has an engine refuses any other**, and stays as it is. -/
theorem perform_install_of_active {socket : Socket σ} (hactive : socket.isActive = true)
    (field : ClockField) (engine : σ) :
    socket.perform (.install field engine) =
      ⟨(.installed false, socket), [.notice .alreadyActive]⟩ := by
  cases hvoice : socket.voice with
  | none => simp [isActive, hvoice] at hactive
  | some voice =>
    simp only [perform, install, hvoice]
    rfl

/-- An engine comes with an action that offers one, and stays. -/
@[simp] theorem isActive_perform (action : Action σ) (socket : Socket σ) :
    (socket.perform action).value.2.isActive = (socket.isActive || action.isInstall) := by
  cases action with
  | install field engine => simp [perform, Action.isInstall, isActive_install]
  | write w => simp [perform, Action.isInstall]
  | setAudible audible => simp [perform, Action.isInstall]
  | tick => simp [perform, Action.isInstall, tick]
  | mix total => simp [perform, Action.isInstall, mix]

theorem isActive_after (actions : List (Action σ)) (socket : Socket σ) :
    (socket.after actions).isActive = (socket.isActive || actions.any Action.isInstall) := by
  induction actions generalizing socket with
  | nil => simp
  | cons action actions ih => simp [ih, Bool.or_assoc]

/-- Where there is an engine, others may as well not be offered. -/
theorem filter_of_active {socket : Socket σ} (hactive : socket.isActive = true)
    (actions : List (Action σ)) :
    socket.after (actions.filter fun action => !action.isInstall) = socket.after actions ∧
    socket.deeds (actions.filter fun action => !action.isInstall) = socket.deeds actions := by
  induction actions generalizing socket with
  | nil => exact ⟨rfl, rfl⟩
  | cons action actions ih =>
    cases hinstall : action.isInstall with
    | true =>
      -- the engine is refused, and the notice about it is not a deed
      have hrefused : (socket.perform action).value.2 = socket ∧ (socket.perform action).deeds = [] := by
        cases action with
        | install field engine =>
          rw [perform_install_of_active hactive]
          exact ⟨rfl, rfl⟩
        | write _ | setAudible _ | tick | mix _ => simp [Action.isInstall] at hinstall
      simpa [hinstall, hrefused] using ih hactive
    | false =>
      have hnext : (socket.perform action).value.2.isActive = true := by simp [hactive]
      obtain ⟨hafter, hdeeds⟩ := ih hnext
      simp [hinstall, hafter, hdeeds]

/-- **What does not count leaves nothing behind.** -/
theorem effective_of_inactive {socket : Socket σ} (hidle : socket.isActive = false)
    (actions : List (Action σ)) :
    socket.after (effective actions) = socket.after actions ∧
    socket.deeds (effective actions) = socket.deeds actions := by
  induction actions generalizing socket with
  | nil => exact ⟨rfl, rfl⟩
  | cons action actions ih =>
    have hskip (hinstall : action.isInstall = false) (hswitch : action.isSwitch = false) :
        socket.after (effective actions) = socket.after (action :: actions) ∧
        socket.deeds (effective actions) = socket.deeds (action :: actions) := by
      rw [after_cons, deeds_cons, perform_of_inactive hidle hinstall hswitch]
      exact ih hidle
    cases action with
    | install field engine =>
      have hnext : (socket.perform (.install field engine)).value.2.isActive = true := by
        simp [Action.isInstall]
      obtain ⟨hafter, hdeeds⟩ := filter_of_active hnext actions
      simp [effective, hafter, hdeeds]
    | setAudible audible =>
      have hnext : (socket.perform (.setAudible audible)).value.2.isActive = false := by
        simp [hidle, Action.isInstall]
      obtain ⟨hafter, hdeeds⟩ := ih hnext
      simp [effective, hafter, hdeeds]
    | write w => exact hskip rfl rfl
    | tick => exact hskip rfl rfl
    | mix total => exact hskip rfl rfl

/-- Beginning a record makes no difference to what counts. -/
theorem effective_map_recorded {σ : Type} (actions : List (Action σ)) :
    effective (actions.map Action.recorded) = (effective actions).map Action.recorded := by
  induction actions with
  | nil => rfl
  | cons action actions ih =>
    cases action with
    | install field engine =>
      have hfilter : (actions.map Action.recorded).filter (fun action => !action.isInstall) =
          (actions.filter fun action => !action.isInstall).map Action.recorded := by
        simp [List.filter_map, Function.comp_def]
      exact congrArg (Action.recorded (.install field engine) :: ·) hfilter
    | setAudible audible => exact congrArg (Action.recorded (.setAudible audible) :: ·) ih
    | write w => exact ih
    | tick => exact ih
    | mix total => exact ih

/-! ## 3. What the engine goes through -/

/-- The engine behind the recording one is the engine of the same script without records. -/
theorem map_perform {τ : Type} [ChipEngine τ] {f : τ → σ} (hf : Passage f) (action : Action τ)
    (socket : Socket τ) :
    (socket.perform action).value.2.map f = ((socket.map f).perform (action.map f)).value.2 := by
  cases action with
  | install field engine =>
    cases hvoice : socket.voice with
    | none => simp [perform, install, map, Action.map, hvoice, Voice.map_start hf]
    | some voice => simp [perform, install, map, Action.map, hvoice]
  | write w => exact map_send hf w.calls socket
  | setAudible audible => rfl
  | tick => exact map_advance hf socket
  | mix total => exact map_advance hf socket

theorem map_after {τ : Type} [ChipEngine τ] {f : τ → σ} (hf : Passage f) (actions : List (Action τ))
    (socket : Socket τ) :
    (socket.after actions).map f = (socket.map f).after (actions.map (Action.map f)) := by
  induction actions generalizing socket with
  | nil => rfl
  | cons action actions ih => simp [ih, map_perform hf]

/-- A script with recording engines, looked at without the records, is the script. -/
theorem map_after_recorded (actions : List (Action σ)) :
    (after (actions.map Action.recorded) {}).map Recorded.engine = after actions {} := by
  rw [map_after Recorded.passage, List.map_map]
  have hactions : actions.map (Action.map Recorded.engine ∘ Action.recorded) = actions := by
    simp [Function.comp_def, Action.map_engine_recorded]
  rw [hactions]
  rfl

/-- A voice has become another one: the same engine, at the same clock and the same rate, has been told
some calls, in order and with clocks in between. -/
structure Traces (told : List EngineCall) (v w : Voice (Recorded σ)) : Prop where
  hz : w.hz = v.hz
  rate : w.rate = v.rate
  record : ∃ since, w.engine = ⟨v.engine.fresh, v.engine.record ++ since⟩ ∧
    EngineEvent.calls since = told

omit [ChipEngine σ] in
theorem Traces.refl (v : Voice (Recorded σ)) : Traces [] v v :=
  ⟨rfl, rfl, [], by simp, rfl⟩

omit [ChipEngine σ] in
theorem Traces.trans {first second : List EngineCall} {u v w : Voice (Recorded σ)}
    (h : Traces first u v) (h' : Traces second v w) : Traces (first ++ second) u w := by
  obtain ⟨hhz, hrate, since, hv, rfl⟩ := h
  obtain ⟨hhz', hrate', since', hw, rfl⟩ := h'
  refine ⟨hhz'.trans hhz, hrate'.trans hrate, since ++ since', ?_, EngineEvent.calls_append _ _⟩
  rw [hw, hv, List.append_assoc]

theorem traces_send (calls : List EngineCall) (v : Voice (Recorded σ)) :
    Traces calls v (v.send calls) := by
  induction calls generalizing v with
  | nil => exact .refl v
  | cons call calls ih =>
    have hfirst : Traces [call] v (v.send [call]) :=
      ⟨rfl, rfl, [.told call], Recorded.apply_eq_add call v.engine, rfl⟩
    exact hfirst.trans (ih (v.send [call]))

theorem traces_advance (v : Voice (Recorded σ)) : Traces [] v v.advance := by
  obtain ⟨since, hrecord, hcalls⟩ := v.record_catchUp
  refine ⟨v.hz_advance, v.rate_advance, since, ?_, hcalls⟩
  rw [← hrecord, ← v.fresh_catchUp]
  rfl

/-- An engine goes through what an action tells it, and clocks. -/
theorem traces_perform (action : Action (Recorded σ)) {socket : Socket (Recorded σ)}
    {v : Voice (Recorded σ)} (hv : socket.voice = some v) :
    ∃ w, (socket.perform action).value.2.voice = some w ∧ Traces action.calls v w := by
  cases action with
  | install field engine =>
    have hactive : socket.isActive = true := by simp [isActive, hv]
    rw [perform_install_of_active hactive]
    exact ⟨v, hv, .refl v⟩
  | write w => exact ⟨v.send w.calls, by simp [perform, send, hv], traces_send w.calls v⟩
  | setAudible audible => exact ⟨v, hv, .refl v⟩
  | tick => exact ⟨v.advance, congrArg (Option.map Voice.advance) hv, traces_advance v⟩
  | mix total => exact ⟨v.advance, congrArg (Option.map Voice.advance) hv, traces_advance v⟩

/-- An engine goes through what a script tells it, and clocks. -/
theorem traces_after (actions : List (Action (Recorded σ))) {socket : Socket (Recorded σ)}
    {v : Voice (Recorded σ)} (hv : socket.voice = some v) :
    ∃ w, (socket.after actions).voice = some w ∧ Traces (actions.flatMap Action.calls) v w := by
  induction actions generalizing socket v with
  | nil => exact ⟨v, hv, .refl v⟩
  | cons action actions ih =>
    obtain ⟨u, hu, hfirst⟩ := traces_perform action hv
    obtain ⟨w, hw, hrest⟩ := ih hu
    exact ⟨w, hw, hfirst.trans hrest⟩

/-! ## 4. The first engine -/

/-- Nothing is done to an engine that is not there. -/
theorem deeds_of_idle {actions : List (Action σ)}
    (hidle : ∀ action ∈ actions, action.isInstall = false) {socket : Socket σ}
    (hsocket : socket.isActive = false) : socket.deeds actions = [] := by
  induction actions generalizing socket with
  | nil => rfl
  | cons action actions ih =>
    have hinstall : action.isInstall = false := hidle action List.mem_cons_self
    have hfirst : (socket.perform action).deeds = [] := by
      cases hswitch : action.isSwitch with
      | false =>
        rw [perform_of_inactive hsocket hinstall hswitch]
        rfl
      | true =>
        cases action with
        | setAudible audible => rfl
        | install _ _ | write _ | tick | mix _ => simp [Action.isSwitch] at hswitch
    have hrest : (socket.perform action).value.2.deeds actions = [] :=
      ih (fun other hother => hidle other (List.mem_cons_of_mem _ hother))
        (by simp [hsocket, hinstall])
    rw [deeds_cons, hfirst, hrest]
    rfl

theorem isActive_after_idle {actions : List (Action σ)}
    (hidle : ∀ action ∈ actions, action.isInstall = false) :
    (after actions ({} : Socket σ)).isActive = false := by
  rw [isActive_after, Bool.or_eq_false_iff, List.any_eq_false]
  exact ⟨rfl, fun action haction => by simp [hidle action haction]⟩

/-- An engine that is there is told what is written, and nothing else. -/
theorem deeds_of_active {socket : Socket σ} (hactive : socket.isActive = true)
    (actions : List (Action σ)) :
    socket.deeds actions = (actions.flatMap Action.calls).map (.call ()) := by
  induction actions generalizing socket with
  | nil => rfl
  | cons action actions ih =>
    have hfirst : (socket.perform action).deeds = action.calls.map (.call ()) := by
      cases action with
      | install field engine =>
        rw [perform_install_of_active hactive]
        rfl
      | write w =>
        have hevents : (socket.perform (.write w)).events = w.calls.map (.call ()) := by
          simp [perform, events_send, hactive]
        rw [Logged.deeds, hevents]
        exact List.filter_eq_self.mpr (by simp [Event.isDeed])
      | setAudible audible => rfl
      | tick => rfl
      | mix total => rfl
    rw [deeds_cons, hfirst, ih (by simp [hactive]), List.flatMap_cons, List.map_append]

/-- An engine has been the first in a script, and some actions came after it. -/
structure Owns (field : ClockField) (engine : σ) (later actions : List (Action σ)) : Prop where
  isActive : (after actions {}).isActive = true
  /-- The clock is the one of its field, without the flags. -/
  hz : (after actions {}).hz = field.hz
  /-- The rate is what it asked for after its start. -/
  rate : (after actions {}).rate =
    (ChipEngine.sampleRate (ChipEngine.start field.hz engine) field.hz).toNat
  /-- It was started, and was told what was written since. -/
  deeds : deeds actions {} =
    (EngineCall.start field.hz :: later.flatMap Action.calls).map (.call ())
  /-- It went through nothing else, apart from clocks. -/
  record : ∃ since,
    (after (actions.map Action.recorded) {}).voice.map Voice.engine =
      some ⟨engine, .told (.start field.hz) :: since⟩ ∧
    EngineEvent.calls since = later.flatMap Action.calls
  /-- Any other engine is refused and hears nothing. -/
  refuses : ∀ (field' : ClockField) (engine' : σ),
    (after actions {}).perform (.install field' engine') =
      ⟨(.installed false, after actions {}), [.notice .alreadyActive]⟩

theorem deeds_of_first {idle : List (Action σ)} (hidle : ∀ action ∈ idle, action.isInstall = false)
    (field : ClockField) (engine : σ) (later : List (Action σ)) :
    deeds (idle ++ .install field engine :: later) {} =
      (EngineCall.start field.hz :: later.flatMap Action.calls).map (.call ()) := by
  have hfirst : ((after idle {}).perform (.install field engine)).deeds =
      [.call () (.start field.hz)] := by
    rw [perform_install_of_inactive (isActive_after_idle hidle)]
    rfl
  rw [deeds_append, deeds_of_idle hidle rfl, deeds_cons, hfirst,
    deeds_of_active (by simp [Action.isInstall])]
  rfl

theorem traces_of_first {idle : List (Action σ)} (hidle : ∀ action ∈ idle, action.isInstall = false)
    (field : ClockField) (engine : σ) (later : List (Action σ)) :
    ∃ voice, (after ((idle ++ .install field engine :: later).map Action.recorded) {}).voice =
        some voice ∧
      Traces (later.flatMap Action.calls) (Voice.start ⟨engine, []⟩ field.hz) voice := by
  have hempty : (after (idle.map Action.recorded) {}).isActive = false :=
    isActive_after_idle (by simpa using hidle)
  have hstarted : ((after (idle.map Action.recorded) {}).perform
      (Action.install field engine).recorded).value.2.voice =
        some (Voice.start ⟨engine, []⟩ field.hz) :=
    congrArg (fun done => done.value.2.voice) (perform_install_of_inactive hempty field ⟨engine, []⟩)
  have hrun := traces_after (later.map Action.recorded) hstarted
  simpa [after_append, List.flatMap_map] using hrun

theorem owns_first {idle : List (Action σ)} (hidle : ∀ action ∈ idle, action.isInstall = false)
    (field : ClockField) (engine : σ) (later : List (Action σ)) :
    Owns field engine later (idle ++ .install field engine :: later) := by
  have hactive : (after (idle ++ .install field engine :: later) {}).isActive = true := by
    simp [isActive_after, Action.isInstall]
  obtain ⟨voice, hvoice, hhz, hrate, since, hengine, hcalls⟩ :=
    traces_of_first hidle field engine later
  have hsocket := map_after_recorded (idle ++ .install field engine :: later)
  refine ⟨hactive, ?_, ?_, deeds_of_first hidle field engine later, ⟨since, ?_, hcalls⟩,
    perform_install_of_active hactive⟩
  · rw [← hsocket, hz_map, hz, hvoice]
    exact hhz
  · -- the records do not change the rate that the engine asks for
    have hstart : (Voice.start (⟨engine, []⟩ : Recorded σ) field.hz).rate =
        (Voice.start engine field.hz).rate :=
      congrArg Voice.rate (Voice.map_start Recorded.passage ⟨engine, []⟩ field.hz)
    rw [← hsocket, rate, map, hvoice]
    exact hrate.trans hstart
  · rw [hvoice, Option.map_some, hengine]
    rfl

/-- **Only the first engine and what comes after it count, and the switch.**

Take any script for a new socket.  What does not count can be left out: the socket is the same in the
end, the same has been done, and the first engine has gone through the same, clocks and all.  What
an engine has gone through is known from its record, and the engine is what the record makes of it.

Before the first engine, frames are silent, totals stay as they are, and writes are lost, all without an
event and without a change.  From the first engine on, the socket is active, at the clock and the rate
of that engine, and any other engine is refused.  The beginning of a script is a script too, so this is
so at every moment of a longer one. -/
theorem activates_once (actions : List (Action σ)) :
    (after (effective actions) {} = after actions {} ∧
      deeds (effective actions) {} = deeds actions {} ∧
      after ((effective actions).map Action.recorded) {} = after (actions.map Action.recorded) {} ∧
      (after (actions.map Action.recorded) {}).map Recorded.engine = after actions {}) ∧
    ((∀ action ∈ actions, action.isInstall = false) →
      deeds actions {} = [] ∧
      ∀ action : Action σ, action.isInstall = false → action.isSwitch = false →
        (after actions {}).perform action = ⟨(action.idleAnswer, after actions {}), []⟩) ∧
    ∀ idle field engine later, actions = idle ++ .install field engine :: later →
      (∀ action ∈ idle, action.isInstall = false) → Owns field engine later actions := by
  have hnew : ({} : Socket σ).isActive = false := rfl
  have hnew' : ({} : Socket (Recorded σ)).isActive = false := rfl
  obtain ⟨hafter, hdeeds⟩ := effective_of_inactive hnew actions
  obtain ⟨hrecorded, -⟩ := effective_of_inactive hnew' (actions.map Action.recorded)
  rw [effective_map_recorded] at hrecorded
  refine ⟨⟨hafter, hdeeds, hrecorded, map_after_recorded actions⟩, fun hidle => ?_, ?_⟩
  · exact ⟨deeds_of_idle hidle rfl, fun action => perform_of_inactive (isActive_after_idle hidle)⟩
  · rintro idle field engine later rfl hidle
    exact owns_first hidle field engine later

/-- A socket that is used too early: it is asked for a frame, written to and switched off, all without an
engine. -/
def early : List (Action Bundled) := [.tick, .write (.bus 0 0x9F), .setAudible false]

/-- What is done once it has one; a silent chip is offered as well. -/
def late : List (Action Bundled) :=
  [.mix ⟨1, 2⟩, .install ⟨1000000⟩ (.silent ⟨72⟩), .write (.register 0 0x9F 0xFF)]

/-- The flags of the clock field are not part of the clock, and the write that came too early is lost. -/
theorem early_writes_are_lost :
    (after early {}).perform (.mix ⟨3, 4⟩) = ⟨(.frame ⟨3, 4⟩, after early {}), []⟩ ∧
    (after (early ++ .install ⟨0xC0369E99⟩ (.psg Psg.new) :: late) {}).hz = 3579545 ∧
    (after (early ++ .install ⟨0xC0369E99⟩ (.psg Psg.new) :: late) {}).rate = 223721 ∧
    deeds (early ++ .install ⟨0xC0369E99⟩ (.psg Psg.new) :: late) {} =
      [.call () (.start 3579545), .call () (.bus 0 0x9F), .call () (.bus 1 0xFF)] := by
  have hearly : ∀ action ∈ early, action.isInstall = false := by decide
  obtain ⟨-, hidle⟩ := (activates_once early).2.1 hearly
  have howns : Owns ⟨0xC0369E99⟩ (.psg Psg.new) late
      (early ++ .install ⟨0xC0369E99⟩ (.psg Psg.new) :: late) :=
    (activates_once _).2.2 early ⟨0xC0369E99⟩ (.psg Psg.new) late rfl hearly
  exact ⟨hidle (.mix ⟨3, 4⟩) rfl rfl, howns.hz.trans (by decide), howns.rate.trans (by decide),
    howns.deeds.trans (by decide)⟩

end ChipLog.Socket
