/-
# The lives of engines

An engine that keeps a record (`Proofs/Board/Passage`) knows all that has happened to it.  This module
compares that with the journal: the calls in the record of an engine are the calls that the journal
has for its socket, in the same order, and what else there is in the record are clocks.

* A socket that has an engine keeps it, and the record only grows (`Socket.Hears.grown`).
* A socket that was empty at first is still empty, and then the journal has nothing for it.  Or else
  its engine was made once and started once, before anything else happened to it, and has been there
  ever since (`Socket.Hears.life`).
-/
import ChipLog.Proofs.Board.Hearing
import ChipLog.Proofs.Board.Passage

namespace ChipLog

/-! ## 1. Records and calls -/

namespace EngineEvent

/-- The call that was made, if it is one. -/
def told? : EngineEvent → Option EngineCall
  | told call => some call
  | clocked => none

/-- The calls in a record. -/
def calls (record : List EngineEvent) : List EngineCall := record.filterMap told?

@[simp] theorem calls_append (first second : List EngineEvent) :
    calls (first ++ second) = calls first ++ calls second := List.filterMap_append

end EngineEvent

open EngineEvent (calls)

namespace Event

variable {ι : Type} [DecidableEq ι]

/-- How often the engine of a chip was made can be read off what the chip has heard. -/
theorem count_created (chip : ι) (events : List (Event ι)) :
    events.count (created chip) = (heardBy chip events).count (created ()) := by
  induction events with
  | nil => rfl
  | cons event events ih =>
    rw [heardBy] at ih ⊢
    rw [List.count_cons, ih, List.filterMap_cons]
    cases event with
    | notice n => rfl
    | created other =>
      by_cases hother : other = chip
      · simp [at?, hother]
      · simp [at?, hother]
    | call other c =>
      by_cases hother : other = chip
      · simp [at?, hother]
      · simp [at?, hother]

end Event

variable {σ : Type} [ChipEngine σ]

/-! ## 2. What frames put into a record -/

theorem Voice.record_catchUp (voice : Voice (Recorded σ)) :
    ∃ since, voice.catchUp.engine.record = voice.engine.record ++ since ∧ calls since = [] := by
  fun_induction catchUp voice with
  | case1 voice h ih =>
    obtain ⟨since, hrecord, hcalls⟩ := ih
    refine ⟨.clocked :: since, ?_, hcalls⟩
    rw [hrecord]
    exact List.append_assoc _ [.clocked] since
  | case2 voice h => exact ⟨[], (List.append_nil _).symm, rfl⟩

/-! ## 3. Sockets -/

namespace Socket

/-- The life of an engine so far: it was made, was started at the clock that it has now, and since
then other things have happened to it.  These are all its deeds. -/
structure Life (deeds : List (Event Unit)) (since : List EngineEvent)
    (socket : Socket (Recorded σ)) : Prop where
  record : socket.voice.map (fun voice => voice.engine.record) =
    some (.told (.start socket.hz) :: since)
  deeds : deeds = .created () :: .call () (.start socket.hz) :: (calls since).map (.call ())
  startedOnce : ∀ call ∈ calls since, call.isStart = false

variable {make : Recorded σ} {s t : Socket (Recorded σ)} {deeds : List (Event Unit)}

/-- **A socket that has an engine keeps it, and its record grows by the deeds and by clocks.** -/
theorem Hears.grown (h : Hears make deeds s t) {voice : Voice (Recorded σ)}
    (hvoice : s.voice = some voice) :
    ∃ voice' since, t.voice = some voice' ∧ voice'.hz = voice.hz ∧
      voice'.engine.record = voice.engine.record ++ since ∧
      deeds = (calls since).map (.call ()) ∧ ∀ call ∈ calls since, call.isStart = false := by
  induction h generalizing voice with
  | nil s => exact ⟨voice, [], hvoice, rfl, (List.append_nil _).symm, rfl, nofun⟩
  | start field hidle _ _ =>
    rw [isActive, hvoice] at hidle
    cases hidle
  | @call s t deeds held c hc hheld _ ih =>
    have hsame : held = voice := Option.some.inj (hheld.symm.trans hvoice)
    subst hsame
    obtain ⟨voice', since, ht, hhz, hrecord, rfl, hcalls⟩ := ih rfl
    refine ⟨voice', .told c :: since, ht, hhz, ?_, rfl, ?_⟩
    · have hsent : (held.send [c]).engine = held.engine.add (.told c) :=
        Recorded.apply_eq_add c held.engine
      rw [hrecord, hsent]
      exact List.append_assoc _ [.told c] since
    · intro call hcall
      rcases List.mem_cons.mp hcall with rfl | hcall
      · exact hc
      · exact hcalls call hcall
  | frame _ ih =>
    have hadvanced := congrArg (Option.map Voice.advance) hvoice
    obtain ⟨voice', since, ht, hhz, hrecord, rfl, hcalls⟩ := ih hadvanced
    obtain ⟨clocks, hclocks, hnone⟩ := voice.record_catchUp
    refine ⟨voice', clocks ++ since, ht, hhz.trans voice.hz_advance, ?_, ?_, ?_⟩
    · rw [hrecord, ← List.append_assoc, ← hclocks]
      rfl
    · rw [EngineEvent.calls_append, hnone, List.nil_append]
    · rwa [EngineEvent.calls_append, hnone, List.nil_append]
  | mute audible _ ih => exact ih hvoice

/-- **What can become of an empty socket.**  It is still empty, and nothing was done to it; or an
engine was made for it and started, and lives. -/
theorem Hears.life (hmake : make.record = []) (h : Hears make deeds s t)
    (hidle : s.isActive = false) :
    (deeds = [] ∧ t.isActive = false) ∨ t.isActive = true ∧ ∃ since, t.Life deeds since := by
  induction h with
  | nil s => exact .inl ⟨rfl, hidle⟩
  | start field _ rest _ =>
    obtain ⟨voice, since, ht, hhz, hrecord, rfl, hcalls⟩ := rest.grown rfl
    have hclock : (_ : Socket (Recorded σ)).hz = field.hz :=
      (congrArg (fun voice => (Option.map Voice.hz voice).getD 0) ht).trans hhz
    refine .inr ⟨by rw [isActive, ht]; rfl, since, ?_, by rw [hclock], hcalls⟩
    have hstarted : (Voice.start make field.hz).engine.record = [.told (.start field.hz)] :=
      congrArg (fun record => record ++ [EngineEvent.told (.start field.hz)]) hmake
    rw [ht, hclock, Option.map_some, hrecord, hstarted]
    rfl
  | call c _ hvoice _ _ =>
    rw [isActive, hvoice] at hidle
    cases hidle
  | frame _ ih => exact ih (by rwa [isActive_advance])
  | mute audible _ ih => exact ih hidle

omit [ChipEngine σ] in
/-- The engine of a life was made once. -/
theorem Life.count_created {since : List EngineEvent} (h : t.Life deeds since) :
    deeds.count (.created ()) = 1 := by
  have hrest : ((calls since).map (Event.call ())).count (.created ()) = 0 := by
    rw [List.count_eq_zero]
    simp
  rw [h.deeds, List.count_cons_self, List.count_cons_of_ne (by simp), hrest]

end Socket

end ChipLog
