/-
# Sessions with a record

Give every engine of a session a record (`Proofs/Board/Passage`).  The session with records is the
session itself with more to be read off it: after any script, each of its sockets is the socket of
the session once one looks behind the records, and each record begins with the engine that the
session has made (`Session.Alike.engine_after`).  So what a record says has been done to an engine is what
has been done to the engine of the session.
-/
import ChipLog.Proofs.Board.Passage
import ChipLog.Proofs.Session.Alike

namespace ChipLog

variable {σ : Type} [ChipEngine σ]

/-! ## 1. Sockets with a record -/

/-- A record begins with `engine`, if there is one. -/
def Recorded.BeginsWith (engine : σ) : Option (Voice (Recorded σ)) → Prop
  | none => True
  | some voice => voice.engine.fresh = engine

/-- Sockets of a board, each with a record that begins with the engine made for its site. -/
def recording (engines : Factory σ) (site : Site) : Socket σ → Socket (Recorded σ) → Prop :=
  Socket.Behind Recorded.engine (Recorded.BeginsWith (engines site))

theorem recording_empty (engines : Factory σ) (site : Site) : recording engines site {} {} :=
  ⟨rfl, trivial⟩

/-- Calls are recorded, and new engines begin with an empty record. -/
theorem likeness_recording (engines : Factory σ) :
    Likeness (recording engines) engines (Recorded.factory engines) :=
  likeness_behind Recorded.passage (fun _ => rfl)
    (fun calls hfresh => (Recorded.fresh_applyAll calls _).trans hfresh) (fun _ _ => rfl)

/-- Clocks are recorded, and mutes are none of the engine's business. -/
theorem steady_recording (engines : Factory σ) : Steady fun _ => recording engines :=
  steady_behind Recorded.passage fun hfresh => (Voice.fresh_catchUp _).trans hfresh

/-! ## 2. Sessions with records -/

namespace Session

/-- The record of the engine of a site, if there is one. -/
def recordOf {σ : Type} (site : Site) (recorded : Session (Recorded σ)) :
    Option (List EngineEvent) :=
  (recorded.socket site).voice.map fun voice => voice.engine.record

/-- An image that loads, loads with records too. -/
theorem load_recorded {engines : Factory σ} {image : ByteArray} {session : Session σ}
    (h : (load engines image).value = .ok session) :
    ∃ recorded, (load (Recorded.factory engines) image).value = .ok recorded ∧
      session.Alike (recording engines) recorded :=
  load_alike (fun _ => likeness_recording engines) (steady_recording engines)
    (recording_empty engines) h

/-- **Whatever script is run, the engine of a session is what its record makes of the engine that was
made for its site.** -/
theorem Alike.engine_after {engines : Factory σ} {session : Session σ}
    {recorded : Session (Recorded σ)} (h : session.Alike (recording engines) recorded)
    (calls : List Call) (site : Site) :
    ((session.after calls).socket site).voice.map Voice.engine =
      ((recorded.after calls).recordOf site).map fun record =>
        EngineEvent.applyAll record (engines site) := by
  obtain ⟨hbehind, hbegins⟩ := (h.performAll calls).2.2.playback.deck.board site
  have hsocket : (session.after calls).socket site =
      ((recorded.after calls).socket site).map Recorded.engine := hbehind
  rw [hsocket, recordOf]
  cases hvoice : ((recorded.after calls).socket site).voice with
  | none => rw [Socket.map, hvoice]; rfl
  | some voice =>
    rw [Socket.map, hvoice]
    show some voice.engine.engine = some (EngineEvent.applyAll voice.engine.record (engines site))
    have hfresh : Recorded.BeginsWith (engines site) ((recorded.after calls).socket site).voice :=
      hbegins
    rw [hvoice] at hfresh
    rw [← show voice.engine.fresh = engines site from hfresh]
    rfl

end Session

end ChipLog
