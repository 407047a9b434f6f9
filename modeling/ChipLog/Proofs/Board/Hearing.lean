/-
# What engines hear

The events of a journal are of two kinds.  Notices are for the user; the others are deeds, things
that were done to a chip: its engine was made, or a call reached it.  This module says what the
deeds of a journal mean for an engine, and that a board does what its journal says.

* `Socket.Hears make deeds s t`: a socket `s` has become `t` by exactly these deeds in this order,
  with any frames and mutes in between.  An engine is started once, before it hears anything else,
  and is never replaced.
* Calls to a socket and the start of engines on a board do what their events say
  (`Socket.hears_send`, `Board.hears_send`, `Board.hears_activate`).
* What is sent to a site is told to its chip and to no other, and only if there is an engine
  (`Board.toldTo_send`); starting engines tells them nothing else (`Board.toldTo_activate`).
* An engine that is there stays there, and its clock stays the same (`Socket.Hears.keeps`).  What
  is on a board as far as chips and clocks go (`Board.SameChips`) changes by deeds alone.
-/
import ChipLog.Proofs.Board.Sites

namespace ChipLog

/-! ## 1. Deeds -/

/-- Whether a call starts an engine. -/
def EngineCall.isStart : EngineCall → Bool
  | start _ => true
  | _ => false

namespace Event

variable {ι κ : Type}

/-- Whether an event is something that was done to a chip. -/
def isDeed : Event ι → Bool
  | notice _ => false
  | _ => true

variable [DecidableEq ι] [DecidableEq κ]

/-- What an event is to one chip, which knows only itself. -/
def at? (chip : ι) : Event ι → Option (Event Unit)
  | notice _ => none
  | created other => if other = chip then some (created ()) else none
  | call other c => if other = chip then some (call () c) else none

/-- The deeds that concern one chip. -/
def heardBy (chip : ι) (events : List (Event ι)) : List (Event Unit) := events.filterMap (at? chip)

@[simp] theorem heardBy_nil (chip : ι) : heardBy chip [] = [] := rfl

@[simp] theorem heardBy_append (chip : ι) (first second : List (Event ι)) :
    heardBy chip (first ++ second) = heardBy chip first ++ heardBy chip second :=
  List.filterMap_append

/-- Notices are not heard. -/
@[simp] theorem heardBy_notice (chip : ι) (n : Notice) : heardBy chip [notice n] = [] := rfl

/-- Nobody hears more than the deeds. -/
theorem heardBy_filter_isDeed (chip : ι) (events : List (Event ι)) :
    heardBy chip (events.filter isDeed) = heardBy chip events := by
  rw [heardBy, heardBy, List.filterMap_filter]
  congr 1
  funext event
  cases event <;> rfl

/-- A chip hears the same under another name. -/
theorem heardBy_relabel_self {f : ι → κ} (hf : ∀ a b, f a = f b → a = b) (chip : ι)
    (events : List (Event ι)) :
    heardBy (f chip) (events.map (relabel f)) = heardBy chip events := by
  rw [heardBy, heardBy, List.filterMap_map]
  congr 1
  funext event
  have hiff : ∀ other, f other = f chip ↔ other = chip := fun other =>
    ⟨hf other chip, congrArg f⟩
  cases event <;> simp [relabel, at?, hiff]

/-- The calls that a chip hears, apart from the one that starts its engine. -/
def toldTo (chip : ι) (events : List (Event ι)) : List EngineCall :=
  (heardBy chip events).filterMap fun
    | call () c => if c.isStart then none else some c
    | _ => none

omit [DecidableEq κ] in
@[simp] theorem toldTo_nil (chip : ι) : toldTo chip ([] : List (Event ι)) = [] := rfl

omit [DecidableEq κ] in
@[simp] theorem toldTo_append (chip : ι) (first second : List (Event ι)) :
    toldTo chip (first ++ second) = toldTo chip first ++ toldTo chip second := by
  rw [toldTo, heardBy_append, List.filterMap_append]
  rfl

omit [DecidableEq κ] in
/-- What a chip is told is among the deeds. -/
theorem toldTo_filter_isDeed (chip : ι) (events : List (Event ι)) :
    toldTo chip (events.filter isDeed) = toldTo chip events := by
  rw [toldTo, heardBy_filter_isDeed, toldTo]

omit [DecidableEq ι] [DecidableEq κ] in
/-- Calls that start no engine are told one and all. -/
theorem filterMap_told {calls : List EngineCall} (hcalls : ∀ c ∈ calls, c.isStart = false) :
    ((calls.map (call ())).filterMap fun
      | call () c => if c.isStart then none else some c
      | _ => none) = calls := by
  induction calls with
  | nil => rfl
  | cons c calls ih =>
    have hc := hcalls c List.mem_cons_self
    simpa [hc] using ih fun c hc => hcalls c (List.mem_cons_of_mem _ hc)

omit [DecidableEq κ] in
/-- A chip that hears of its start and then of calls is told these calls. -/
theorem toldTo_of_heardBy {chip : ι} {events : List (Event ι)} {hz : UInt32}
    {calls : List EngineCall}
    (h : heardBy chip events = created () :: call () (.start hz) :: calls.map (call ()))
    (hcalls : ∀ c ∈ calls, c.isStart = false) : toldTo chip events = calls := by
  rw [toldTo, h]
  exact filterMap_told hcalls

omit [DecidableEq ι] in
/-- What is done under other names is not heard. -/
theorem heardBy_relabel_of_ne {f : ι → κ} (chip : κ) (hf : ∀ other, f other ≠ chip)
    (events : List (Event ι)) : heardBy chip (events.map (relabel f)) = [] := by
  rw [heardBy, List.filterMap_map, List.filterMap_eq_nil_iff]
  intro event _
  cases event <;> simp [relabel, at?, hf]

end Event

namespace Logged

variable {ι α β : Type}

/-- The deeds among the events. -/
def deeds (x : Logged ι α) : List (Event ι) := x.events.filter Event.isDeed

@[simp] theorem deeds_pure (a : α) : (pure a : Logged ι α).deeds = [] := rfl

@[simp] theorem deeds_bind (x : Logged ι α) (f : α → Logged ι β) :
    (x >>= f).deeds = x.deeds ++ (f x.value).deeds := List.filter_append _ _

@[simp] theorem deeds_note (n : Notice) : (note n : Logged ι Unit).deeds = [] := rfl

end Logged

open Event (heardBy toldTo)

/-! ## 2. Sockets -/

namespace Socket

variable {σ : Type} [ChipEngine σ]

/-- An empty socket with an engine put in and started. -/
def started (make : σ) (field : ClockField) (socket : Socket σ) : Socket σ :=
  { socket with voice := some (Voice.start make field.hz) }

/-- A socket has become another one by some deeds, with any frames and mutes in between.  Its
engine is the one made for it, is started before all else, and hears every call. -/
inductive Hears (make : σ) : List (Event Unit) → Socket σ → Socket σ → Prop
  | nil (s : Socket σ) : Hears make [] s s
  | start {s t : Socket σ} {deeds : List (Event Unit)} (field : ClockField)
      (hidle : s.isActive = false) (rest : Hears make deeds (s.started make field) t) :
      Hears make (.created () :: .call () (.start field.hz) :: deeds) s t
  | call {s t : Socket σ} {deeds : List (Event Unit)} {voice : Voice σ} (c : EngineCall)
      (hc : c.isStart = false) (hvoice : s.voice = some voice)
      (rest : Hears make deeds { s with voice := some (voice.send [c]) } t) :
      Hears make (.call () c :: deeds) s t
  | frame {s t : Socket σ} {deeds : List (Event Unit)} (rest : Hears make deeds s.advance t) :
      Hears make deeds s t
  | mute {s t : Socket σ} {deeds : List (Event Unit)} (audible : Bool)
      (rest : Hears make deeds (s.setAudible audible) t) : Hears make deeds s t

variable {make : σ} {s t u : Socket σ} {deeds deeds' : List (Event Unit)}

theorem Hears.trans (first : Hears make deeds s t) (second : Hears make deeds' t u) :
    Hears make (deeds ++ deeds') s u := by
  induction first with
  | nil s => exact second
  | start field hidle _ ih => exact .start field hidle (ih second)
  | call c hc hvoice _ ih => exact .call c hc hvoice (ih second)
  | frame _ ih => exact .frame (ih second)
  | mute audible _ ih => exact .mute audible (ih second)

/-- **An engine that is there stays there, and its clock stays the same.** -/
theorem Hears.keeps (h : Hears make deeds s t) (hactive : s.isActive = true) :
    t.isActive = true ∧ t.hz = s.hz := by
  induction h with
  | nil s => exact ⟨hactive, rfl⟩
  | start field hidle _ _ => rw [hidle] at hactive; cases hactive
  | call c hc hvoice _ ih =>
    obtain ⟨ht, hhz⟩ := ih rfl
    exact ⟨ht, by rw [hhz, hz, hz, hvoice]; rfl⟩
  | frame _ ih =>
    rw [isActive_advance] at ih
    obtain ⟨ht, hhz⟩ := ih hactive
    refine ⟨ht, hhz.trans ?_⟩
    rw [hz, hz, advance, Option.map_map]
    exact congrArg (fun f : Voice σ → UInt32 => (Option.map f _).getD 0)
      (funext fun voice => voice.hz_advance)
  | mute audible _ ih => exact ih hactive

/-- An empty socket to which nothing was done is still empty. -/
theorem Hears.idle (h : Hears make [] s t) (hidle : s.isActive = false) : t.isActive = false := by
  generalize hnil : ([] : List (Event Unit)) = deeds at h
  induction h with
  | nil s => exact hidle
  | start field _ _ _ => cases hnil
  | call c _ _ _ _ => cases hnil
  | frame _ ih => exact ih (by rw [isActive_advance]; exact hidle) hnil
  | mute audible _ ih => exact ih hidle hnil

/-- While nothing is done to it, a socket neither gains an engine nor loses one. -/
theorem Hears.isActive_eq (h : Hears make [] s t) : t.isActive = s.isActive := by
  cases hs : s.isActive with
  | true => exact (h.keeps hs).1
  | false => exact h.idle hs

/-- Calls that start no engine are heard by an engine, and by nobody if there is none. -/
theorem hears_send {calls : List EngineCall} (hcalls : ∀ c ∈ calls, c.isStart = false)
    (make : σ) (s : Socket σ) : Hears make (s.send calls).events s (s.send calls).value := by
  cases hvoice : s.voice with
  | none =>
    rw [send, hvoice]
    exact .nil s
  | some voice =>
    have hsend : s.send calls =
        ⟨{ s with voice := some (voice.send calls) }, calls.map (.call ())⟩ := by
      rw [send, hvoice]
      exact congrArg (Logged.mk _) (List.append_nil _)
    rw [hsend]
    -- one call after the other; the voice that is left is the one for the calls that are left
    clear hsend
    induction calls generalizing s voice with
    | nil =>
      have hsame : { s with voice := some (voice.send []) } = s := by
        obtain ⟨_, audible⟩ := s
        cases hvoice
        rfl
      rw [hsame]
      exact .nil s
    | cons c calls ih =>
      refine .call c (hcalls c List.mem_cons_self) hvoice ?_
      exact ih (fun c hc => hcalls c (List.mem_cons_of_mem _ hc))
        { s with voice := some (voice.send [c]) } (voice.send [c]) rfl

end Socket

/-! ## 3. Pairs -/

namespace Pair

variable {σ : Type} [ChipEngine σ]

/-- Switching on a rank makes its engine, unless there is one. -/
theorem switchOn_eq (field : ClockField) (make : Rank → σ) (rank : Rank) (pair : Pair σ) :
    pair.switchOn field make rank =
      if (pair.socket rank).isActive then ⟨pair, []⟩
      else ⟨pair.setSocket rank ((pair.socket rank).started (make rank) field),
        [.created rank, .call rank (.start field.hz)]⟩ := by
  unfold switchOn
  split
  case isTrue => rfl
  case isFalse hidle =>
    rw [Bool.not_eq_true] at hidle
    rw [Socket.install_of_inactive hidle]
    rfl

/-- What each rank is then, and what it hears. -/
theorem switchOn_at (field : ClockField) (make : Rank → σ) (rank other : Rank) (pair : Pair σ) :
    ((pair.switchOn field make rank).value.socket other,
      heardBy other (pair.switchOn field make rank).events) =
      if other = rank ∧ (pair.socket other).isActive = false
      then ((pair.socket other).started (make other) field,
        [.created (), .call () (.start field.hz)])
      else (pair.socket other, []) := by
  rw [switchOn_eq]
  by_cases hrank : other = rank
  · subst hrank
    cases hactive : (pair.socket other).isActive <;> simp [heardBy, Event.at?]
  · rw [if_neg (fun h => hrank h.1 : ¬(other = rank ∧ (pair.socket other).isActive = false))]
    split
    · rfl
    · simp [socket_setSocket_of_ne pair _ hrank, heardBy, Event.at?, Ne.symm hrank]

theorem socket_switchOn (field : ClockField) (make : Rank → σ) (rank other : Rank)
    (pair : Pair σ) :
    (pair.switchOn field make rank).value.socket other =
      if other = rank ∧ (pair.socket other).isActive = false
      then (pair.socket other).started (make other) field else pair.socket other := by
  have hat := congrArg Prod.fst (pair.switchOn_at field make rank other)
  rwa [apply_ite Prod.fst] at hat

theorem heardBy_switchOn (field : ClockField) (make : Rank → σ) (rank other : Rank)
    (pair : Pair σ) :
    heardBy other (pair.switchOn field make rank).events =
      if other = rank ∧ (pair.socket other).isActive = false
      then [.created (), .call () (.start field.hz)] else [] := by
  have hat := congrArg Prod.snd (pair.switchOn_at field make rank other)
  rwa [apply_ite Prod.snd] at hat

/-- Starting the engines of a clock field fills the empty sockets that the field is for. -/
theorem activate_at (field : ClockField) (make : Rank → σ) (rank : Rank) (pair : Pair σ) :
    ((pair.activate field make).value.2.socket rank,
      heardBy rank (pair.activate field make).events) =
      if (rank = .primary ∨ field.dual = true) ∧ (pair.socket rank).isActive = false
      then ((pair.socket rank).started (make rank) field,
        [.created (), .call () (.start field.hz)])
      else (pair.socket rank, []) := by
  unfold activate
  cases hactive : (pair.socket rank).isActive <;> cases hdual : field.dual <;> cases rank <;>
    simp [socket_switchOn, heardBy_switchOn, hactive]

end Pair

/-! ## 4. Boards -/

namespace Board

variable {σ : Type} [ChipEngine σ]

/-- A board has become another one by the deeds among some events, with any frames and mutes in
between. -/
def Hears (engines : Factory σ) (events : List (Event Site)) (b c : Board σ) : Prop :=
  ∀ site, Socket.Hears (engines site) (heardBy site events) (b.socket site) (c.socket site)

variable {engines : Factory σ} {b c d : Board σ} {events events' : List (Event Site)}

theorem Hears.refl (engines : Factory σ) (b : Board σ) : b.Hears engines [] b :=
  fun _ => .nil _

theorem Hears.trans (first : b.Hears engines events c) (second : c.Hears engines events' d) :
    b.Hears engines (events ++ events') d := by
  intro site
  rw [Event.heardBy_append]
  exact (first site).trans (second site)

/-- Notices make no difference. -/
theorem Hears.of_deeds (h : b.Hears engines events c)
    (hdeeds : events.filter Event.isDeed = events'.filter Event.isDeed) :
    b.Hears engines events' c := by
  intro site
  rw [← Event.heardBy_filter_isDeed, ← hdeeds, Event.heardBy_filter_isDeed]
  exact h site

/-- Calls that are sent to a chip are deeds, if there is an engine. -/
theorem deeds_send (site : Site) (calls : List EngineCall) (board : Board σ) :
    (board.send site calls).deeds =
      if (board.socket site).isActive then calls.map (.call site) else [] := by
  rw [Logged.deeds, events_send]
  refine List.filter_eq_self.mpr fun event hevent => ?_
  split at hevent
  · obtain ⟨call, -, rfl⟩ := List.mem_map.mp hevent
    rfl
  · cases hevent

/-- A chip hears what is sent to its site, if there is an engine to hear it. -/
theorem heardBy_send (site other : Site) (calls : List EngineCall) (board : Board σ) :
    heardBy other (board.send site calls).events =
      if other = site ∧ (board.socket site).isActive = true then calls.map (.call ()) else [] := by
  rw [events_send]
  cases hactive : (board.socket site).isActive with
  | false => simp
  | true =>
    by_cases hsite : other = site
    · subst hsite
      simp [heardBy, Event.at?, Function.comp_def]
    · simp [heardBy, Event.at?, Function.comp_def, hsite, Ne.symm hsite]

theorem hears_send {calls : List EngineCall} (hcalls : ∀ c ∈ calls, c.isStart = false)
    (engines : Factory σ) (site : Site) (board : Board σ) :
    board.Hears engines (board.send site calls).events (board.send site calls).value := by
  intro other
  rw [socket_send, heardBy_send]
  by_cases hsite : other = site
  · subst hsite
    have hears := Socket.hears_send hcalls (engines other) (board.socket other)
    rw [Socket.events_send] at hears
    simpa using hears
  · rw [if_neg hsite, if_neg fun h => hsite h.1]
    exact .nil _

/-- Starting the engines of a clock field fills the empty sockets of the kind that the field is
for, unless the primary one is taken; they hear their start, and no other chip hears anything. -/
theorem activate_at (engines : Factory σ) (kind : ChipKind) (field : ClockField)
    (board : Board σ) (site : Site) :
    ((board.activate engines kind field).value.2.socket site,
      heardBy site (board.activate engines kind field).events) =
      if site.kind = kind ∧ board.isActive kind = false ∧
        (site.rank = .primary ∨ field.dual = true) ∧ (board.socket site).isActive = false
      then ((board.socket site).started (engines site) field,
        [.created (), .call () (.start field.hz)])
      else (board.socket site, []) := by
  obtain ⟨kind', rank⟩ := site
  unfold activate
  cases hactive : board.isActive kind with
  | true => simp
  | false =>
    by_cases hkind : kind' = kind
    · subst hkind
      have hpair := Pair.activate_at field (fun rank => engines ⟨kind', rank⟩) rank
        (board.slot kind')
      rw [← Event.heardBy_relabel_self (f := Site.mk kind')
        (fun _ _ h => (Site.mk.inj h).2),
        show (board.slot kind').socket rank = board.socket ⟨kind', rank⟩ from rfl] at hpair
      simpa [Logged.relabel, Logged.note] using hpair
    · have hpair := Event.heardBy_relabel_of_ne (f := Site.mk kind) ⟨kind', rank⟩
        (fun _ h => hkind (Site.mk.inj h).1.symm)
      simpa [Logged.relabel, Logged.note, hpair, hkind] using
        socket_setSlot_of_ne board _ hkind

theorem socket_activate (engines : Factory σ) (kind : ChipKind) (field : ClockField)
    (board : Board σ) (site : Site) :
    (board.activate engines kind field).value.2.socket site =
      if site.kind = kind ∧ board.isActive kind = false ∧
        (site.rank = .primary ∨ field.dual = true) ∧ (board.socket site).isActive = false
      then (board.socket site).started (engines site) field else board.socket site := by
  have hat := congrArg Prod.fst (board.activate_at engines kind field site)
  rwa [apply_ite Prod.fst] at hat

theorem heardBy_activate (engines : Factory σ) (kind : ChipKind) (field : ClockField)
    (board : Board σ) (site : Site) :
    heardBy site (board.activate engines kind field).events =
      if site.kind = kind ∧ board.isActive kind = false ∧
        (site.rank = .primary ∨ field.dual = true) ∧ (board.socket site).isActive = false
      then [.created (), .call () (.start field.hz)] else [] := by
  have hat := congrArg Prod.snd (board.activate_at engines kind field site)
  rwa [apply_ite Prod.snd] at hat

theorem hears_activate (engines : Factory σ) (kind : ChipKind) (field : ClockField)
    (board : Board σ) :
    board.Hears engines (board.activate engines kind field).events
      (board.activate engines kind field).value.2 := by
  intro site
  rw [socket_activate, heardBy_activate]
  split
  case isTrue h => exact .start field h.2.2.2 (.nil _)
  case isFalse => exact .nil _

/-- What is sent to a site is told to its chip, and to no other. -/
theorem toldTo_send {calls : List EngineCall} (hcalls : ∀ c ∈ calls, c.isStart = false)
    (site other : Site) (board : Board σ) :
    toldTo other (board.send site calls).events =
      if other = site ∧ (board.socket site).isActive = true then calls else [] := by
  rw [toldTo, heardBy_send]
  split
  case isTrue => exact Event.filterMap_told hcalls
  case isFalse => rfl

/-- The start of engines tells them nothing else. -/
theorem toldTo_activate (engines : Factory σ) (kind : ChipKind) (field : ClockField)
    (board : Board σ) (site : Site) : toldTo site (board.activate engines kind field).events = [] := by
  rw [toldTo, heardBy_activate]
  split <;> simp [EngineCall.isStart]

end Board

/-! ## 5. The same chips -/

section SameChips

variable {σ : Type} [ChipEngine σ]

/-- Both sockets are empty, or both have engines at the same clock. -/
structure Socket.SameChip {σ τ : Type} (s : Socket σ) (t : Socket τ) : Prop where
  active : s.isActive = t.isActive
  hz : s.hz = t.hz

/-- Two boards have the same chips at the same clocks. -/
def Board.SameChips {σ τ : Type} (b : Board σ) (c : Board τ) : Prop :=
  ∀ site, (b.socket site).SameChip (c.socket site)

theorem Board.SameChips.refl {σ : Type} (b : Board σ) : b.SameChips b := fun _ => ⟨rfl, rfl⟩

theorem Board.SameChips.symm {σ τ : Type} {b : Board σ} {c : Board τ} (h : b.SameChips c) :
    c.SameChips b := fun site => ⟨(h site).active.symm, (h site).hz.symm⟩

theorem Board.SameChips.trans {ρ σ τ : Type} {b : Board ρ} {c : Board σ} {d : Board τ}
    (first : b.SameChips c) (second : c.SameChips d) : b.SameChips d := fun site =>
  ⟨(first site).active.trans (second site).active, (first site).hz.trans (second site).hz⟩

/-- An empty socket has no clock. -/
theorem Socket.hz_of_inactive {σ : Type} {s : Socket σ} (h : s.isActive = false) : s.hz = 0 := by
  cases hvoice : s.voice with
  | none => rw [hz, hvoice]; rfl
  | some voice => simp [isActive, hvoice] at h

/-- While nothing is done to it, a socket keeps its chip. -/
theorem Socket.Hears.sameChip {make : σ} {s t : Socket σ} (h : Hears make [] s t) :
    t.SameChip s := by
  refine ⟨h.isActive_eq, ?_⟩
  cases hs : s.isActive with
  | true => exact (h.keeps hs).2
  | false => rw [hz_of_inactive hs, hz_of_inactive (h.idle hs)]

/-- A call leaves a chip and its clock as they are. -/
theorem Socket.sameChip_send (calls : List EngineCall) (s : Socket σ) :
    (s.send calls).value.SameChip s := by
  refine ⟨isActive_send calls s, ?_⟩
  cases hvoice : s.voice with
  | none => simp [send, hvoice]
  | some voice => simp [send, hvoice, hz, Voice.send]

theorem Board.sameChips_send (site : Site) (calls : List EngineCall) (board : Board σ) :
    (board.send site calls).value.SameChips board := by
  intro other
  rw [socket_send]
  split
  case isTrue hsite =>
    rw [hsite]
    exact Socket.sameChip_send calls _
  case isFalse => exact ⟨rfl, rfl⟩

/-- The list of chips is known from what is on the board. -/
theorem Board.activeChips_eq {σ τ : Type} {b : Board σ} {c : Board τ} (h : b.SameChips c) :
    b.activeChips = c.activeChips := by
  unfold activeChips
  have hactive : (fun site => (b.socket site).isActive) = fun site => (c.socket site).isActive :=
    funext fun site => (h site).active
  have hhz : (fun site => (site, (b.socket site).hz)) = fun site => (site, (c.socket site).hz) :=
    funext fun site => by rw [(h site).hz]
  rw [hactive, hhz]

end SameChips

end ChipLog
