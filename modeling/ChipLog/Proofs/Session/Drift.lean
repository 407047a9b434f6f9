/-
# No drift

Engines run at rates of their own, and the output takes a frame from each of them 44100 times a
second.  A clock too many or too few now and then would not be heard at once, but after minutes
the chips of a log would be out of tune with each other.  This module proves that nothing of the
kind can happen, whatever script is run on a session: an engine that has taken part in `made`
frames has been clocked `clocksDue rate made` times, which is `made * rate / 44100` rounded up.

Clocks are counted with meters (`Proofs/Board/Meter`).  A session whose engines have meters is alike
the session itself (`Proofs/Session/Alike`), in a sense that goes by the frames made: a socket is the
same but for the meter, and its voice is in step with its frames.  This sense is steady
(`steady_metering`), so it lasts through every script, and meters are not heard
(`faithful_metering`).
-/
import ChipLog.Proofs.Board.Meter
import ChipLog.Proofs.Session.Alike

namespace ChipLog

variable {σ : Type} [ChipEngine σ]

/-! ## 1. Sockets with a meter -/

/-- A voice with a meter is in step with the `made` frames since it was started; where there is none,
no frames have been made. -/
def Metered.InStep (engine : σ) (made : Nat) : Option (Voice (Metered σ)) → Prop
  | none => made = 0
  | some voice => voice.InStep engine made

/-- Sockets of a board that have made some frames, each with a meter. -/
def metering (engines : Factory σ) (made : Nat) (site : Site) :
    Socket σ → Socket (Metered σ) → Prop :=
  Socket.Behind Metered.engine (Metered.InStep (engines site) made)

theorem metering_empty (engines : Factory σ) (site : Site) : metering engines 0 site {} {} :=
  ⟨rfl, rfl⟩

namespace Socket.Behind

variable {engine : σ} {made : Nat} {s : Socket σ} {t : Socket (Metered σ)}

theorem made_eq_zero (h : s.Behind Metered.engine (Metered.InStep engine made) t)
    (hidle : t.isActive = false) : made = 0 := by
  have hmade := h.voice
  rwa [Option.not_isSome_iff_eq_none.mp (Bool.eq_false_iff.mp hidle)] at hmade

theorem inStep (h : s.Behind Metered.engine (Metered.InStep engine made) t)
    {voice : Voice (Metered σ)} (hvoice : t.voice = some voice) : voice.InStep engine made := by
  have hstep := h.voice
  rwa [hvoice] at hstep

end Socket.Behind

/-- Neither calls nor new engines disturb a meter. -/
theorem likeness_metering (engines : Factory σ) (made : Site → Nat) :
    Likeness (likeAt (metering engines) made) engines (Metered.factory engines) :=
  likeness_behind Metered.passage (fun _ => rfl) (fun calls hstep => Voice.InStep.send hstep calls)
    fun {site} hz (hmade : made site = 0) =>
      hmade.symm ▸ Voice.inStep_start (engines site) hz

/-- A frame counts for a socket that has an engine, and keeps its voice in step. -/
theorem steady_metering (engines : Factory σ) : Steady (metering engines) :=
  steady_behind Metered.passage fun hstep => Voice.InStep.advance hstep

/-- Meters are not heard. -/
theorem faithful_metering (engines : Factory σ) : Faithful (metering engines) :=
  faithful_behind Metered.passage

/-! ## 2. Engines stay -/

namespace Session

/-- A socket has an engine wherever `active` says so. -/
def occupied {σ : Type} (active : Site → Bool) (site : Site) (s : Socket σ) : Prop :=
  active site = true → s.isActive = true

theorem likeness_occupied (engines : Factory σ) (active : Site → Bool) :
    Likeness (kept (occupied active)) engines engines := by
  refine likeness_kept ?_ ?_
  · intro site s calls h hsite
    rw [Socket.isActive_send]
    exact h hsite
  · intro site s field _ _ _
    exact Socket.isActive_install field _ s

theorem steady_occupied (active : Site → Bool) :
    Steady fun _ => (kept (occupied active) : Site → Socket σ → Socket σ → Prop) := by
  refine steady_kept ?_ ?_
  · intro site s h hsite
    rw [Socket.isActive_advance]
    exact h hsite
  · intro site s audible h hsite
    rw [Socket.isActive_setAudible]
    exact h hsite

/-- A site that has an engine keeps one. -/
theorem isActive_perform {session : Session σ} {site : Site} (call : Call)
    (h : session.isActive site = true) :
    (session.perform call).value.2.isActive site = true := by
  have hself : session.Alike (kept (occupied session.isActive)) session :=
    alike_self (likeness_occupied _ _) (steady_occupied _) fun _ => ⟨rfl, id⟩
  have hnext := (hself.perform call).2.2.playback.deck.board site
  exact hnext.2 h

/-! ## 3. Whole scripts -/

/-- Once there is an engine, it takes part in every frame. -/
theorem framesSince_of_isActive {session : Session σ} {site : Site} (calls : List Call)
    (h : session.isActive site = true) :
    session.framesSince site calls = Call.totalFrames calls := by
  induction calls generalizing session with
  | nil => rfl
  | cons call calls ih =>
    rw [framesSince, if_pos h, ih (isActive_perform call h), Call.totalFrames]

/-- An image that loads, loads with meters too. -/
theorem load_metered {engines : Factory σ} {image : ByteArray} {session : Session σ}
    (h : (load engines image).value = .ok session) :
    ∃ metered, (load (Metered.factory engines) image).value = .ok metered ∧
      session.AlikeAt (metering engines) (fun _ => 0) metered :=
  load_alike (likeness_metering engines) (steady_metering engines)
    (metering_empty engines) h

/-! ## 4. On time -/

/-- A frame is the mix of what the sockets deliver once all engines have gone on. -/
theorem tick_eq_mix (session : Session σ) :
    session.tick =
      ((Site.all.foldl (fun total site => (session.tick.2.socket site).mixOutput total)
        .silence).narrow, session.tick.2) := by
  refine Prod.ext ?_ rfl
  exact congrArg RawFrame.narrow (Board.output_eq_foldl session.playback.deck.board.advance)

/-- A socket with an engine delivers the last sample of the engine, unless it is muted. -/
theorem output_socket {s : Socket σ} {t : Socket (Metered σ)} {voice : Voice (Metered σ)}
    (hbehind : s = t.map Metered.engine) (hvoice : t.voice = some voice) :
    s.output = if s.audible then ChipEngine.sample voice.engine.engine else .silence := by
  subst hbehind
  rw [Socket.output, Socket.map, hvoice]
  rfl

/-- **No drift.**  Put meters in front of all engines.  Whatever script is run, the metered
session does and answers what the session does, and the sessions end in the same state but for
the meters.  Every engine has then been clocked as often as the frames since its start take,
rounded up; the phase is what these clocks leave over, less than one clock; the next frame
costs the whole clocks of one frame or one more; and what a socket delivers is the sample
after exactly these clocks, or silence if it is muted.

The frames since the start are those of all later calls, a frame is the mix of what the sockets
deliver after it, and a render is nothing but its ticks. -/
theorem engines_stay_on_time {engines : Factory σ} {image : ByteArray} {session : Session σ}
    (h : (load engines image).value = .ok session) :
    ∃ metered, (load (Metered.factory engines) image).value = .ok metered ∧ ∀ calls,
      ((metered.performAll calls).events = (session.performAll calls).events ∧
        metered.replies calls = session.replies calls) ∧
      (∀ site,
        (session.after calls).socket site = ((metered.after calls).socket site).erase ∧
        ((session.after calls).isActive site = false → session.framesSince site calls = 0) ∧
        ((session.after calls).isActive site = true → ∀ more,
          session.framesSince site (calls ++ more) =
            session.framesSince site calls + Call.totalFrames more) ∧
        ∀ voice, ((metered.after calls).socket site).voice = some voice →
          voice.OnTime (engines site) (session.framesSince site calls) ∧
          ((session.after calls).socket site).output =
            if ((session.after calls).socket site).audible
            then ChipEngine.sample voice.engine.engine else .silence) ∧
      (session.after calls).tick =
        ((Site.all.foldl (fun total site =>
          ((session.after (calls ++ [.tick])).socket site).mixOutput total) .silence).narrow,
          session.after (calls ++ [.tick])) ∧
      ∀ count, (session.after calls).render #[] count =
        ((((session.after calls).replies (List.replicate count .tick)).flatMap
          Reply.frameList).toArray, session.after (calls ++ List.replicate count .tick)) := by
  obtain ⟨metered, hload, halike⟩ := load_metered h
  refine ⟨metered, hload, fun calls => ?_⟩
  obtain ⟨hevents, -, hafter⟩ := halike.performAll calls
  have hreplies := halike.replies_eq (faithful_metering engines) calls
  have hsite : ∀ site, metering engines (session.framesSince site calls) site
      ((session.after calls).socket site) ((metered.after calls).socket site) := by
    intro site
    have hlast : metering engines (0 + session.framesSince site calls) site _ _ :=
      hafter.playback.deck.board site
    rwa [Nat.zero_add] at hlast
  refine ⟨⟨hevents.symm, hreplies.symm⟩, fun site => ⟨?_, ?_, ?_, ?_⟩, ?_, ?_⟩
  · rw [Socket.erase_eq_map]
    exact (hsite site).behind
  · intro hidle
    rw [isActive, (hsite site).behind, Socket.isActive_map] at hidle
    exact (hsite site).made_eq_zero hidle
  · intro hactive more
    rw [framesSince_append, framesSince_of_isActive more hactive]
  · intro voice hvoice
    exact ⟨((hsite site).inStep hvoice).onTime, output_socket (hsite site).behind hvoice⟩
  · rw [after_append]
    exact tick_eq_mix (session.after calls)
  · intro count
    rw [after_append, render_eq_ticks]
    simp

/-- A PSG at 3579545 Hz makes 223721 samples a second.  Four frames of it, one of them muted,
take 21 clocks, and 31216 of 44100 parts of the last clock are left over. -/
theorem psg_stays_on_time : ∃ session metered voice,
    (load Bundled.factory (sampleLog [0x50, 0x9F, 0x66])).value = .ok session ∧
    (load (Metered.factory Bundled.factory) (sampleLog [0x50, 0x9F, 0x66])).value = .ok metered ∧
    ((metered.after [.step, .render 3, .setAudible ⟨.sn76489, .primary⟩ false, .tick]).socket
      ⟨.sn76489, .primary⟩).voice = some voice ∧
    voice.rate = 223721 ∧ voice.engine.clocks = 21 ∧ voice.phase = 31216 := by
  have hvoice : ((Header.parse (sampleLog [0x50, 0x9F, 0x66])).toOption.bind fun header =>
      (((opened (Metered.factory Bundled.factory) (sampleLog [0x50, 0x9F, 0x66]) header).after
        [.step, .render 3, .setAudible ⟨.sn76489, .primary⟩ false, .tick]).socket
          ⟨.sn76489, .primary⟩).voice.map fun voice => (voice.rate,
            (opened Bundled.factory (sampleLog [0x50, 0x9F, 0x66]) header).framesSince
              ⟨.sn76489, .primary⟩
              [.step, .render 3, .setAudible ⟨.sn76489, .primary⟩ false, .tick])) =
      some (223721, 4) := by decide +kernel
  obtain ⟨header, hparse, -, hload⟩ := @load_sampleLog [0x50, 0x9F, 0x66] rfl
  rw [hparse] at hvoice
  obtain ⟨voice, hsocket, hpair⟩ := Option.map_eq_some_iff.mp hvoice
  obtain ⟨hrate, hframes⟩ := Prod.mk.inj hpair
  obtain ⟨metered, hmetered, hall⟩ := engines_stay_on_time hload
  cases (load_eq_ok_iff.mpr ⟨header, hparse, rfl⟩).symm.trans hmetered
  have htime := (((hall _).2.1 _).2.2.2 voice hsocket).1
  have hclocks := htime.clocks_eq
  have hphase := htime.phase_eq
  rw [hrate, hframes] at hclocks
  rw [hrate, hframes, hclocks] at hphase
  exact ⟨_, _, voice, hload, hmetered, hsocket, hrate, hclocks, hphase⟩

end Session

end ChipLog
