/-
# Mutes reach the mix and nothing else

A chip that is switched off keeps its engine, takes all its calls and is clocked as before.  Only the
mix leaves it out.  So mutes can be put into a script, taken out of it or changed, and all that
changes is what the mix leaves out (`Session.mutes_only_gate_the_mix`):

* a script and the same script without its mutes do the same (`Alike.performAll_unmuted`): each step
  has the same outcome, the journals are the same, and the states differ in the switches alone, as
  sockets with the same voice are a likeness that holds on when a switch on one side is thrown;
* records (`Proofs/Session/Recording`) turn that into a statement about engines: each is told and
  clocked the same in the same order;
* where the switch of a chip stands after a script depends on the last mute of that chip
  (`audible_after`), and once all switches agree nothing is left of the difference
  (`eq_of_unmuted`).
-/
import ChipLog.Proofs.Board.Mixing
import ChipLog.Proofs.Session.Recording

namespace ChipLog

open Logged (Like)

variable {σ : Type} [ChipEngine σ]

/-! ## 1. Mutes of a script -/

namespace Call

/-- Whether a call switches a chip on or off. -/
def isMute : Call → Bool
  | setAudible _ _ => true
  | _ => false

/-- A script without its mutes. -/
def unmuted (calls : List Call) : List Call := calls.filter fun call => !call.isMute

/-- Where a switch stands after a call. -/
def switch (site : Site) (audible : Bool) : Call → Bool
  | setAudible other on => if site = other then on else audible
  | _ => audible

/-- Where a switch stands after a script. -/
def switchAll (site : Site) (audible : Bool) (calls : List Call) : Bool :=
  calls.foldl (switch site) audible

theorem switchAll_append (site : Site) (audible : Bool) (first second : List Call) :
    switchAll site audible (first ++ second) =
      switchAll site (switchAll site audible first) second :=
  List.foldl_append

/-- Only mutes of its own chip throw a switch. -/
theorem switchAll_of_quiet {site : Site} {calls : List Call}
    (h : ∀ on, .setAudible site on ∉ calls) (audible : Bool) :
    switchAll site audible calls = audible := by
  induction calls with
  | nil => rfl
  | cons call calls ih =>
    have hrest := ih fun on hmem => h on (List.mem_cons_of_mem _ hmem)
    have hcall : switch site audible call = audible := by
      cases call with
      | setAudible other on =>
        refine if_neg fun hsite => h on ?_
        rw [hsite]
        exact List.mem_cons_self
      | _ => rfl
    rw [switchAll, List.foldl_cons, hcall]
    exact hrest

/-- A chip that was on, is switched off and later on again is where it was. -/
theorem switchAll_off_on {before between : List Call} {site : Site}
    (hquiet : ∀ on, .setAudible site on ∉ between) (hon : switchAll site true before = true)
    (other : Site) :
    switchAll other true (before ++ .setAudible site false :: between ++ [.setAudible site true]) =
      switchAll other true (before ++ between) := by
  have hcons : ∀ audible call calls, switchAll other audible (call :: calls) =
      switchAll other (switch other audible call) calls := fun _ _ _ => rfl
  rw [List.append_assoc, List.cons_append, switchAll_append, hcons, switchAll_append, hcons,
    switchAll_append]
  by_cases hsite : other = site
  · subst hsite
    rw [hon, switchAll_of_quiet hquiet true]
    exact if_pos rfl
  · have hswitch : ∀ audible on, switch other audible (.setAudible site on) = audible :=
      fun _ _ => if_neg hsite
    rw [hswitch, hswitch]
    rfl

end Call

/-! ## 2. Switches -/

/-- The switch of a socket stands where `audible` says. -/
def switched {σ : Type} (audible : Site → Bool) (site : Site) (s : Socket σ) : Prop :=
  s.audible = audible site

theorem likeness_switched (engines : Factory σ) (audible : Site → Bool) :
    Likeness (kept (switched audible)) engines engines := by
  refine likeness_kept ?_ ?_
  · intro site s calls h
    rw [switched, Socket.audible_send]
    exact h
  · intro site s field h hs
    rw [Socket.install_of_inactive hs]
    exact h

namespace Session

theorem audible_perform (call : Call) (session : Session σ) (site : Site) :
    ((session.perform call).value.2.socket site).audible =
      call.switch site (session.socket site).audible := by
  cases call with
  | step =>
    have hsame : session.playback.Alike
        (kept (switched fun site => (session.socket site).audible)) session.playback :=
      ⟨⟨fun site => ⟨rfl, rfl⟩, rfl, rfl, rfl⟩, rfl, rfl, rfl⟩
    have hstep := hsame.step (likeness_switched session.engines _) session.image
    exact (hstep.2.2.deck.board site).2
  | seek position => rfl
  | tick =>
    show (session.playback.deck.board.advance.socket site).audible = _
    rw [Board.socket_advance]
    rfl
  | render count => exact Board.socket_render_keeps Socket.audible (fun _ => rfl) _ _ _ _
  | setAudible other on =>
    show ((session.playback.deck.board.setAudible other on).socket site).audible = _
    rw [Board.socket_setAudible]
    split
    case isTrue hsite => exact (if_pos hsite).symm
    case isFalse hsite => exact (if_neg hsite).symm
  | tag => rfl

/-- **A switch stands where the last mute of its chip has put it.** -/
theorem audible_after (calls : List Call) (session : Session σ) (site : Site) :
    ((session.after calls).socket site).audible =
      Call.switchAll site (session.socket site).audible calls := by
  induction calls generalizing session with
  | nil => rfl
  | cons call calls ih =>
    rw [after_cons, ih, audible_perform]
    rfl

end Session

/-! ## 3. States without switches -/

/-- The pair with both switches on. -/
def Pair.unmuted {σ : Type} (pair : Pair σ) : Pair σ :=
  ⟨pair.primary.setAudible true, pair.secondary.setAudible true⟩

/-- The board with all switches on. -/
def Board.unmuted {σ : Type} (board : Board σ) : Board σ := ⟨board.slots.map Pair.unmuted⟩

omit [ChipEngine σ] in
theorem Board.socket_unmuted (board : Board σ) (site : Site) :
    board.unmuted.socket site = (board.socket site).setAudible true := by
  obtain ⟨kind, rank⟩ := site
  cases rank <;> simp [unmuted, socket, slot, Pair.unmuted, Pair.socket]

namespace Session

/-- The session with all switches on: all of its state but the switches. -/
def unmuted {σ : Type} (session : Session σ) : Session σ :=
  { session with playback := { session.playback with deck :=
    { session.playback.deck with board := session.playback.deck.board.unmuted } } }

omit [ChipEngine σ] in
theorem socket_unmuted (session : Session σ) (site : Site) :
    session.unmuted.socket site = (session.socket site).setAudible true :=
  Board.socket_unmuted _ _

omit [ChipEngine σ] in
/-- Sessions that differ in switches alone have the same voices. -/
theorem voice_eq_of_unmuted {session session' : Session σ}
    (h : session.unmuted = session'.unmuted) (site : Site) :
    (session.socket site).voice = (session'.socket site).voice := by
  have hsocket := congrArg (fun session : Session σ => (session.socket site).voice) h
  simp only [socket_unmuted] at hsocket
  exact hsocket

omit [ChipEngine σ] in
/-- A socket is its voice and its switch. -/
theorem socket_eq_of_unmuted {session session' : Session σ}
    (h : session.unmuted = session'.unmuted) {site : Site}
    (haudible : (session.socket site).audible = (session'.socket site).audible) :
    session.socket site = session'.socket site := by
  have hvoice := voice_eq_of_unmuted h site
  cases hs : session.socket site
  cases hs' : session'.socket site
  simp_all

omit [ChipEngine σ] in
/-- **Sessions that differ in switches alone are the same as soon as the switches agree.** -/
theorem eq_of_unmuted {session session' : Session σ} (h : session.unmuted = session'.unmuted)
    (haudible : ∀ site, (session.socket site).audible = (session'.socket site).audible) :
    session = session' := by
  have hboard : session.playback.deck.board = session'.playback.deck.board :=
    Board.ext_socket fun site => socket_eq_of_unmuted h (haudible site)
  obtain ⟨image, header, engines, ⟨⟨board, banks, pending, place⟩, position, ended, halted⟩, cache⟩ :=
    session
  obtain ⟨image', header', engines', ⟨⟨board', banks', pending', place'⟩, position', ended', halted'⟩,
    cache'⟩ := session'
  simp only [unmuted, mk.injEq, Playback.mk.injEq, Deck.mk.injEq] at h hboard ⊢
  simp_all

end Session

/-! ## 4. Scripts without their mutes -/

/-- Sockets with the same voice, wherever their switches stand. -/
def sameVoice {σ : Type} (_ : Site) (s t : Socket σ) : Prop := s.voice = t.voice

theorem likeness_sameVoice (engines : Factory σ) : Likeness sameVoice engines engines where
  active {site s t} h := congrArg Option.isSome h
  send {site s t} calls h := by
    unfold sameVoice at h ⊢
    rw [Socket.voice_send, Socket.voice_send, h]
  install {site s t} field h hs := by
    have ht : t.isActive = false := (congrArg Option.isSome h).symm.trans hs
    rw [Socket.install_of_inactive hs, Socket.install_of_inactive ht]
    rfl

theorem steady_sameVoice : Steady fun _ => (sameVoice : Site → Socket σ → Socket σ → Prop) where
  advance h := congrArg (Option.map Voice.advance) h
  setAudible _ h := h

namespace Session

variable {session session' : Session σ}

theorem alike_sameVoice (session : Session σ) : session.Alike sameVoice session :=
  alike_self (likeness_sameVoice _) steady_sameVoice fun _ => rfl

namespace Alike

/-- A switch may be thrown on one side alone. -/
theorem setAudible_left (h : session.Alike sameVoice session') (site : Site) (audible : Bool) :
    (session.setAudible site audible).Alike sameVoice session' := by
  refine { h with playback := { h.playback with deck := { h.playback.deck with board := ?_ } } }
  intro other
  show sameVoice other ((session.playback.deck.board.setAudible site audible).socket other) _
  rw [Board.socket_setAudible]
  split
  case isTrue hsite =>
    rw [hsite]
    exact h.playback.deck.board site
  case isFalse => exact h.playback.deck.board other

/-- **A script does what it does without its mutes**, but for the switches. -/
theorem performAll_unmuted (h : session.Alike sameVoice session') (calls : List Call) :
    Like (AnsweredAll (Alike sameVoice)) (session.performAll calls)
      (session'.performAll (Call.unmuted calls)) := by
  induction calls generalizing session session' with
  | nil => exact Like.pure ⟨rfl, h⟩
  | cons call calls ih =>
    cases hmute : call.isMute with
    | true =>
      cases call with
      | setAudible site audible =>
        obtain ⟨hevents, hanswers, hlast⟩ := ih (h.setAudible_left site audible)
        refine ⟨?_, hanswers, hlast⟩
        rw [Session.performAll, Logged.events_bind, Logged.events_bind]
        exact (List.append_nil _).trans hevents
      | _ => cases hmute
    | false =>
      have hcalls : Call.unmuted (call :: calls) = call :: Call.unmuted calls := by
        simp [Call.unmuted, hmute]
      rw [hcalls]
      exact like_performAll_cons (h.perform call) (ih (h.perform call).2.2)

/-- Sessions of the same engines whose sockets have the same voices differ in switches alone. -/
theorem unmuted_eq (h : session.Alike sameVoice session')
    (hengines : session.engines = session'.engines) : session.unmuted = session'.unmuted := by
  have hboard : session.playback.deck.board.unmuted = session'.playback.deck.board.unmuted := by
    refine Board.ext_socket fun site => ?_
    rw [Board.socket_unmuted, Board.socket_unmuted]
    exact congrArg (fun voice => (⟨voice, true⟩ : Socket σ)) (h.playback.deck.board site)
  obtain ⟨⟨_, hbanks, hpending, hplace⟩, hposition, hended, hhalted⟩ := h.playback
  simp only [unmuted, h.image, h.header, hengines, h.cache, hposition, hended, hhalted, hboard, hbanks,
    hpending, hplace]

end Alike

/-! ## 5. Frames -/

/-- The sum of what the chips deliver that are not switched off.  The others have no part in it. -/
def mixHeard (session : Session σ) : RawFrame :=
  session.playback.deck.board.addTo .silence session.playback.deck.board.heard

/-- A frame is made by the chips that are not switched off. -/
theorem tick_eq_mixHeard (session : Session σ) :
    session.tick = (session.tick.2.mixHeard.narrow, session.tick.2) :=
  Prod.ext (congrArg RawFrame.narrow (Board.output_eq_sum_heard _)) rfl

/-- So is every one of many frames. -/
theorem frames_ticks (count : Nat) (session : Session σ) :
    (session.replies (List.replicate count .tick)).flatMap Reply.frameList =
      (List.range count).map fun k =>
        (session.after (List.replicate (k + 1) .tick)).mixHeard.narrow := by
  induction count with
  | zero => rfl
  | succ count ih =>
    have hlast : ∀ session : Session σ, (session.replies [.tick]).flatMap Reply.frameList =
        [(session.after [.tick]).mixHeard.narrow] := by
      intro session
      exact congrArg (fun frame => [frame]) (congrArg Prod.fst session.tick_eq_mixHeard)
    rw [List.replicate_succ', replies_append, List.flatMap_append, ih, hlast, ← after_append,
      ← List.replicate_succ', List.range_succ, List.map_append]
    rfl

/-! ## 6. Mutes gate the mix -/

/-- Right after the opening all switches are on. -/
theorem audible_of_load {engines : Factory σ} {image : ByteArray}
    (h : (load engines image).value = .ok session) (site : Site) :
    (session.socket site).audible = true := by
  obtain ⟨header, -, rfl⟩ := load_eq_ok_iff.mp h
  have halike := Playback.alike_ofHeader (likeness_switched engines fun _ => true)
    (fun _ => ⟨rfl, rfl⟩) header
  exact (halike.2.deck.board site).2

/-- What two scripts that differ in mutes alone have in common: all the events and answers, the state
they lead to but for the switches, and for each engine the list of all that is done to it, clocks
and calls in their order.  A chip whose switch both leave in one place is left the same by both, and
if they agree on all switches, they lead to the same state. -/
structure SameButMutes (session : Session σ) (recorded : Session (Recorded σ))
    (calls calls' : List Call) : Prop where
  events : (session.performAll calls).events = (session.performAll calls').events
  answers : (session.replies calls).filterMap Reply.answer? =
    (session.replies calls').filterMap Reply.answer?
  state : (session.after calls).unmuted = (session.after calls').unmuted
  voice : ∀ site,
    ((session.after calls).socket site).voice = ((session.after calls').socket site).voice
  record : ∀ site, (recorded.after calls).recordOf site = (recorded.after calls').recordOf site
  chip : ∀ site, Call.switchAll site true calls = Call.switchAll site true calls' →
    (session.after calls).socket site = (session.after calls').socket site
  rejoin : (∀ site, Call.switchAll site true calls = Call.switchAll site true calls') →
    session.after calls = session.after calls'

/-- Scripts that differ in mutes alone lead to states that differ in switches alone. -/
theorem unmuted_after {calls calls' : List Call} (h : Call.unmuted calls = Call.unmuted calls')
    (session : Session σ) : (session.after calls).unmuted = (session.after calls').unmuted := by
  have hbare : ∀ calls, (session.after calls).unmuted =
      (session.after (Call.unmuted calls)).unmuted := by
    intro calls
    refine (session.alike_sameVoice.performAll_unmuted calls).2.2.unmuted_eq ?_
    exact (engines_after calls session).trans (engines_after _ session).symm
  rw [hbare, hbare calls', h]

theorem sameButMutes {calls calls' : List Call} (h : Call.unmuted calls = Call.unmuted calls')
    (hopened : ∀ site, (session.socket site).audible = true) (recorded : Session (Recorded σ)) :
    session.SameButMutes recorded calls calls' := by
  have hstate := unmuted_after h session
  have hswitch : ∀ {site}, Call.switchAll site true calls = Call.switchAll site true calls' →
      ((session.after calls).socket site).audible =
        ((session.after calls').socket site).audible := by
    intro site hsite
    rw [audible_after, audible_after, hopened]
    exact hsite
  obtain ⟨hevents, hanswers, -⟩ := session.alike_sameVoice.performAll_unmuted calls
  obtain ⟨hevents', hanswers', -⟩ := session.alike_sameVoice.performAll_unmuted calls'
  rw [h] at hevents hanswers
  exact {
    events := hevents.trans hevents'.symm
    answers := hanswers.trans hanswers'.symm
    state := hstate
    voice := voice_eq_of_unmuted hstate
    record := fun site => by
      rw [recordOf, recordOf, voice_eq_of_unmuted (unmuted_after h recorded) site]
    chip := fun site hsite => socket_eq_of_unmuted hstate (hswitch hsite)
    rejoin := fun hsites => eq_of_unmuted hstate fun site => hswitch (hsites site) }

/-- **Mutes only gate the mix.**  Put records in front of all engines of a session that has been opened.

* Two scripts that differ in mutes alone have everything in common but where the switches stand
  (`SameButMutes`).  Where these stand depends on the last mute of each chip, and the engines of the
  session are what the records make of the engines that were made for their sites.
* A chip that is switched off and later on again is from then on as if it had never been off.
* Each frame, whether it is made alone or in a row, is the sum of what the chips deliver that are not
  switched off at that time. -/
theorem mutes_only_gate_the_mix {engines : Factory σ} {image : ByteArray} {session : Session σ}
    (h : (load engines image).value = .ok session) :
    ∃ recorded, (load (Recorded.factory engines) image).value = .ok recorded ∧
      (∀ calls calls', Call.unmuted calls = Call.unmuted calls' →
        session.SameButMutes recorded calls calls') ∧
      (∀ calls site,
        ((session.after calls).socket site).audible = Call.switchAll site true calls ∧
        ((session.after calls).socket site).voice.map Voice.engine =
          ((recorded.after calls).recordOf site).map fun record =>
            EngineEvent.applyAll record (engines site)) ∧
      (∀ before between site, ((session.after before).socket site).audible = true →
        (∀ on, .setAudible site on ∉ between) →
        session.after (before ++ .setAudible site false :: between ++ [.setAudible site true]) =
          session.after (before ++ between)) ∧
      ∀ calls,
        (session.after calls).tick = ((session.after (calls ++ [.tick])).mixHeard.narrow,
          session.after (calls ++ [.tick])) ∧
        ∀ count, (session.after calls).render #[] count =
          (((List.range count).map fun k =>
            (session.after (calls ++ List.replicate (k + 1) .tick)).mixHeard.narrow).toArray,
          session.after (calls ++ List.replicate count .tick)) := by
  obtain ⟨recorded, hload, hrecorded⟩ := load_recorded h
  have hopened := audible_of_load h
  have hsame : ∀ calls calls', Call.unmuted calls = Call.unmuted calls' →
      session.SameButMutes recorded calls calls' := by
    intro calls calls' hcalls
    exact sameButMutes hcalls hopened recorded
  refine ⟨recorded, hload, hsame, ?_, ?_, ?_⟩
  · intro calls site
    refine ⟨?_, hrecorded.engine_after calls site⟩
    rw [audible_after, hopened]
  · intro before between site hon hquiet
    have hbare : Call.unmuted (before ++ .setAudible site false :: between ++
        [.setAudible site true]) = Call.unmuted (before ++ between) := by
      simp [Call.unmuted, Call.isMute]
    refine (hsame _ _ hbare).rejoin ?_
    intro other
    rw [audible_after, hopened] at hon
    exact Call.switchAll_off_on hquiet hon other
  · intro calls
    constructor
    · rw [after_append]
      exact tick_eq_mixHeard (session.after calls)
    · intro count
      rw [render_eq_ticks, frames_ticks, after_append]
      simp only [after_append, Array.empty_append]

/-- A PSG that is off for one frame and then on again takes eleven clocks in two frames, right after
the byte it is sent, and is left as if it had been on all the time. -/
theorem psg_muted_for_a_frame : ∃ session recorded,
    (load Bundled.factory (sampleLog [0x50, 0x9F, 0x66])).value = .ok session ∧
    (load (Recorded.factory Bundled.factory) (sampleLog [0x50, 0x9F, 0x66])).value = .ok recorded ∧
    session.after [.step, .setAudible ⟨.sn76489, .primary⟩ false, .tick,
      .setAudible ⟨.sn76489, .primary⟩ true, .tick] = session.after [.step, .tick, .tick] ∧
    (recorded.after [.step, .setAudible ⟨.sn76489, .primary⟩ false, .tick,
      .setAudible ⟨.sn76489, .primary⟩ true, .tick]).recordOf ⟨.sn76489, .primary⟩ =
        some ([.told (.start 3579545), .told (.configure 0), .told (.bus 0 0x9F)] ++
          List.replicate 11 .clocked) := by
  have hrecord : ((Header.parse (sampleLog [0x50, 0x9F, 0x66])).toOption.bind fun header =>
      ((opened (Recorded.factory Bundled.factory) (sampleLog [0x50, 0x9F, 0x66]) header).after
        [.step, .tick, .tick]).recordOf ⟨.sn76489, .primary⟩) =
      some ([.told (.start 3579545), .told (.configure 0), .told (.bus 0 0x9F)] ++
        List.replicate 11 .clocked) := by decide +kernel
  obtain ⟨header, hparse, -, hload⟩ := @load_sampleLog [0x50, 0x9F, 0x66] rfl
  rw [hparse] at hrecord
  obtain ⟨recorded, hrecorded, hsame, -⟩ := mutes_only_gate_the_mix hload
  cases (load_eq_ok_iff.mpr ⟨header, hparse, rfl⟩).symm.trans hrecorded
  have hmuted := hsame [.step, .setAudible ⟨.sn76489, .primary⟩ false, .tick,
    .setAudible ⟨.sn76489, .primary⟩ true, .tick] [.step, .tick, .tick] rfl
  refine ⟨_, _, hload, hrecorded, hmuted.rejoin fun site => ?_, (hmuted.record _).trans hrecord⟩
  simp [Call.switchAll, Call.switch]

end Session

end ChipLog
