/-
# Players that take commands alike

What a command makes a player do depends on its engines in one way only: on which sites there
are any.  So two players that differ in their engines, or in anything else that belongs to a
socket, stay in step as long as their sockets are alike in a sense that calls and new engines
keep up.  Such a sense is a `Likeness`.

Main statements: players that are alike take every step with the same outcome and the same
events, and are alike afterwards (`Playback.Like.step`), and players that open the same header
begin alike (`Playback.like_ofHeader`).  What time does to sockets is not part of the notion: that
is for each likeness to say.
-/
import ChipLog.Playback.Basic
import ChipLog.Proofs.Board.Sites

namespace ChipLog

/-! ## 1. Computations with the same events -/

namespace Logged

variable {ι κ α β γ δ : Type}

/-- The same events, and results that are related. -/
def Like (R : α → β → Prop) (x : Logged ι α) (y : Logged ι β) : Prop :=
  x.events = y.events ∧ R x.value y.value

variable {R : α → β → Prop} {S : γ → δ → Prop}

theorem Like.refl {R : α → α → Prop} (x : Logged ι α) (h : R x.value x.value) : Like R x x :=
  ⟨rfl, h⟩

theorem Like.pure {a : α} {b : β} (h : R a b) :
    Like R (Pure.pure a : Logged ι α) (Pure.pure b) := ⟨rfl, h⟩

theorem Like.bind {x : Logged ι α} {y : Logged ι β} {f : α → Logged ι γ} {g : β → Logged ι δ}
    (hxy : Like R x y) (hfg : ∀ a b, R a b → Like S (f a) (g b)) :
    Like S (x >>= f) (y >>= g) := by
  obtain ⟨hevents, hvalue⟩ := hxy
  obtain ⟨hevents', hvalue'⟩ := hfg _ _ hvalue
  refine ⟨?_, hvalue'⟩
  rw [events_bind, events_bind, hevents, hevents']

/-- What both do first makes no difference. -/
theorem Like.after {x : Logged ι α} {f : α → Logged ι γ} {g : α → Logged ι δ}
    (h : Like S (f x.value) (g x.value)) : Like S (x >>= f) (x >>= g) := by
  refine Like.bind (Like.refl (R := fun a b => a = x.value ∧ b = x.value) x ⟨rfl, rfl⟩) ?_
  rintro _ _ ⟨rfl, rfl⟩
  exact h

theorem Like.relabel {x : Logged ι α} {y : Logged ι β} (f : ι → κ) (h : Like R x y) :
    Like R (x.relabel f) (y.relabel f) :=
  ⟨congrArg (List.map (Event.relabel f)) h.1, h.2⟩

end Logged

open Logged (Like)

/-! ## 2. Sockets -/

variable {σ τ : Type} [ChipEngine σ] [ChipEngine τ]

/-- A way to compare the sockets of two boards, site by site, that holds on through every call
and through the start of an engine. -/
structure Likeness (like : Site → Socket σ → Socket τ → Prop) (engines : Factory σ)
    (engines' : Factory τ) : Prop where
  active : ∀ {site s t}, like site s t → s.isActive = t.isActive
  send : ∀ {site s t} (calls : List EngineCall), like site s t →
    like site (s.send calls).value (t.send calls).value
  install : ∀ {site s t} (field : ClockField), like site s t → s.isActive = false →
    like site (s.install field (engines site)).value.2 (t.install field (engines' site)).value.2

variable {like : Site → Socket σ → Socket τ → Prop} {engines : Factory σ} {engines' : Factory τ}

/-- Sockets that are alike report the same calls. -/
theorem Likeness.send_socket (hlike : Likeness like engines engines') {site : Site}
    {s : Socket σ} {t : Socket τ} (calls : List EngineCall) (h : like site s t) :
    Like (like site) (s.send calls) (t.send calls) := by
  refine ⟨?_, hlike.send calls h⟩
  rw [Socket.events_send, Socket.events_send, hlike.active h]

/-- Sockets that are one and the same, of which something holds. -/
def kept {σ : Type} (holds : Site → Socket σ → Prop) (site : Site) (s t : Socket σ) : Prop :=
  s = t ∧ holds site s

/-- Whatever calls and new engines keep makes a likeness of a board with itself. -/
theorem likeness_kept {engines : Factory σ} {holds : Site → Socket σ → Prop}
    (hsend : ∀ {site s} calls, holds site s → holds site (s.send calls).value)
    (hinstall : ∀ {site s} field, holds site s → s.isActive = false →
      holds site (s.install field (engines site)).value.2) :
    Likeness (kept holds) engines engines where
  active {site s t} h := by rw [h.1]
  send {site s t} calls h := ⟨by rw [h.1], hsend calls h.2⟩
  install {site s t} field h hs := ⟨by rw [h.1], hinstall field h.2 hs⟩

/-! ## 3. Pairs -/

/-- Two pairs of a kind are alike in both ranks. -/
def Pair.Alike (like : Site → Socket σ → Socket τ → Prop) (kind : ChipKind) (p : Pair σ)
    (q : Pair τ) : Prop :=
  ∀ rank, like ⟨kind, rank⟩ (p.socket rank) (q.socket rank)

omit [ChipEngine σ] [ChipEngine τ] in
theorem Pair.Alike.setSocket {kind : ChipKind} {p : Pair σ} {q : Pair τ} {rank : Rank}
    {s : Socket σ} {t : Socket τ} (h : p.Alike like kind q) (hst : like ⟨kind, rank⟩ s t) :
    (p.setSocket rank s).Alike like kind (q.setSocket rank t) := by
  intro other
  by_cases hrank : other = rank
  · subst hrank
    simpa using hst
  · rw [Pair.socket_setSocket_of_ne p s hrank, Pair.socket_setSocket_of_ne q t hrank]
    exact h other

theorem Pair.Alike.activeCount {kind : ChipKind} {p : Pair σ} {q : Pair τ}
    (hlike : Likeness like engines engines') (h : p.Alike like kind q) :
    p.activeCount = q.activeCount := by
  have hprimary := hlike.active (h .primary)
  have hsecondary := hlike.active (h .secondary)
  simp only [Pair.socket] at hprimary hsecondary
  simp [Pair.activeCount, List.countP_cons, hprimary, hsecondary]

theorem Pair.Alike.switchOn {kind : ChipKind} {p : Pair σ} {q : Pair τ}
    (hlike : Likeness like engines engines') (h : p.Alike like kind q) (field : ClockField)
    (rank : Rank) :
    Like (Pair.Alike like kind) (p.switchOn field (fun rank => engines ⟨kind, rank⟩) rank)
      (q.switchOn field (fun rank => engines' ⟨kind, rank⟩) rank) := by
  have hactive := hlike.active (h rank)
  unfold Pair.switchOn
  cases hp : (p.socket rank).isActive with
  | true =>
    rw [← hactive, hp, if_pos rfl, if_pos rfl]
    exact Like.pure h
  | false =>
    have hinstalled := hlike.install field (h rank) hp
    rw [hp] at hactive
    rw [← hactive, if_neg Bool.false_ne_true, if_neg Bool.false_ne_true]
    refine Like.after ?_
    rw [Socket.install_of_inactive hp, Socket.install_of_inactive hactive.symm] at *
    exact ⟨rfl, h.setSocket hinstalled⟩

/-- Pairs that are alike start the same engines. -/
theorem Pair.Alike.activate {kind : ChipKind} {p : Pair σ} {q : Pair τ}
    (hlike : Likeness like engines engines') (h : p.Alike like kind q) (field : ClockField) :
    Like (fun r r' => r.1 = r'.1 ∧ Pair.Alike like kind r.2 r'.2)
      (p.activate field fun rank => engines ⟨kind, rank⟩)
      (q.activate field fun rank => engines' ⟨kind, rank⟩) := by
  have hcount : ∀ {both both'}, both.Alike like kind both' →
      Like (fun r r' => r.1 = r'.1 ∧ Pair.Alike like kind r.2 r'.2)
        (pure (both.activeCount - p.activeCount, both) : Logged Rank _)
        (pure (both'.activeCount - q.activeCount, both')) := by
    intro both both' hboth
    exact Like.pure ⟨by rw [hboth.activeCount hlike, h.activeCount hlike], hboth⟩
  refine Like.bind (h.switchOn hlike field .primary) fun first first' hfirst => ?_
  dsimp only
  split
  · exact Like.bind (hfirst.switchOn hlike field .secondary) fun _ _ => hcount
  · exact Like.bind (Like.pure hfirst) fun _ _ => hcount

/-! ## 4. Boards -/

/-- Two boards are alike at every site. -/
def Board.Alike (like : Site → Socket σ → Socket τ → Prop) (b : Board σ) (c : Board τ) : Prop :=
  ∀ site, like site (b.socket site) (c.socket site)

namespace Board.Alike

variable {b : Board σ} {c : Board τ}

theorem isActive (hlike : Likeness like engines engines') (h : b.Alike like c)
    (kind : ChipKind) : b.isActive kind = c.isActive kind :=
  hlike.active (h ⟨kind, .primary⟩)

omit [ChipEngine σ] [ChipEngine τ] in
theorem setSocket {site : Site} {s : Socket σ} {t : Socket τ} (h : b.Alike like c)
    (hst : like site s t) : (b.setSocket site s).Alike like (c.setSocket site t) := by
  intro other
  by_cases hsite : other = site
  · subst hsite
    simpa using hst
  · rw [socket_setSocket_of_ne b s hsite, socket_setSocket_of_ne c t hsite]
    exact h other

omit [ChipEngine σ] [ChipEngine τ] in
theorem setSlot {kind : ChipKind} {p : Pair σ} {q : Pair τ} (h : b.Alike like c)
    (hpq : p.Alike like kind q) : (b.setSlot kind p).Alike like (c.setSlot kind q) := by
  rintro ⟨kind', rank⟩
  by_cases hkind : kind' = kind
  · subst hkind
    simpa using hpq rank
  · rw [socket_setSlot_of_ne b p hkind, socket_setSlot_of_ne c q hkind]
    exact h ⟨kind', rank⟩

theorem send (hlike : Likeness like engines engines') (h : b.Alike like c) (site : Site)
    (calls : List EngineCall) : Like (Board.Alike like) (b.send site calls) (c.send site calls) :=
  Like.bind ((hlike.send_socket calls (h site)).relabel _) fun _ _ hst =>
    Like.pure (h.setSocket hst)

/-- Boards that are alike start the same engines. -/
theorem activate (hlike : Likeness like engines engines') (h : b.Alike like c) (kind : ChipKind)
    (field : ClockField) :
    Like (fun r r' => r.1 = r'.1 ∧ Board.Alike like r.2 r'.2) (b.activate engines kind field)
      (c.activate engines' kind field) := by
  have hactive := h.isActive hlike kind
  have hslot : (b.slot kind).Alike like kind (c.slot kind) := fun rank => h ⟨kind, rank⟩
  unfold Board.activate
  rw [← hactive]
  split
  · exact Like.pure ⟨rfl, h⟩
  · refine Like.bind ((hslot.activate hlike field).relabel (Site.mk kind)) ?_
    rintro ⟨count, p⟩ ⟨_, q⟩ ⟨rfl, hpq⟩
    exact Like.after (Like.pure ⟨rfl, h.setSlot hpq⟩)

end Board.Alike

/-! ## 5. Decks -/

/-- Two decks differ in their boards at most, and those are alike. -/
structure Deck.Alike (like : Site → Socket σ → Socket τ → Prop) (d : Deck σ) (e : Deck τ) :
    Prop where
  board : d.board.Alike like e.board
  banks : d.banks = e.banks
  pendingFm : d.pendingFm = e.pendingFm
  dacPosition : d.dacPosition = e.dacPosition

namespace Deck.Alike

variable {d : Deck σ} {e : Deck τ}

theorem send (hlike : Likeness like engines engines') (h : d.Alike like e) (site : Site)
    (calls : List EngineCall) : Like (Deck.Alike like) (d.send site calls) (e.send site calls) :=
  Like.bind (h.board.send hlike site calls) fun _ _ hboard => Like.pure { h with board := hboard }

theorem decideFm (hlike : Likeness like engines engines') (h : d.Alike like e)
    (kind : ChipKind) :
    Like (Deck.Alike like) (d.decideFm engines kind) (e.decideFm engines' kind) := by
  unfold Deck.decideFm
  rw [← h.pendingFm]
  split
  case h_1 field hfield =>
    split
    · refine Like.bind (h.board.activate hlike kind field) ?_
      rintro ⟨_, board⟩ ⟨_, board'⟩ ⟨-, hboard⟩
      exact Like.pure { h with board := hboard, pendingFm := rfl }
    · exact Like.pure h
  case h_2 => exact Like.pure h

theorem writeDac (hlike : Likeness like engines engines') (h : d.Alike like e) :
    Like (Deck.Alike like) (d.writeDac engines) (e.writeDac engines') := by
  refine Like.bind (h.decideFm hlike .ym2612) fun d e h => ?_
  rw [← h.board.isActive hlike, ← h.banks, ← h.dacPosition]
  split
  · split
    case h_1 byte hbyte =>
      refine Like.bind (h.send hlike ⟨.ym2612, .primary⟩ _) fun d e h => ?_
      exact Like.pure { h with dacPosition := by rw [h.dacPosition] }
    case h_2 => exact Like.after (Like.pure h)
  · exact Like.pure h

theorem loadContents (hlike : Likeness like engines engines') (h : d.Alike like e)
    (block : DataBlock) (contents : BlockContents) :
    Like (Deck.Alike like) (d.loadContents block contents) (e.loadContents block contents) := by
  cases contents with
  | stream bank data =>
    unfold Deck.loadContents
    rw [← h.banks]
    exact Like.after (Like.pure { h with banks := rfl })
  | packed bank packing size => exact Like.after (Like.pure h)
  | rom type size offset data =>
    unfold Deck.loadContents
    dsimp only
    split
    case h_1 kind rom htarget => exact Like.after (h.send hlike _ _)
    case h_2 => exact Like.after (Like.pure h)
  | ram type offset data =>
    unfold Deck.loadContents
    dsimp only
    split
    case h_1 kind htarget => exact h.send hlike _ _
    case h_2 => exact Like.after (Like.pure h)

theorem loadBlock (hlike : Likeness like engines engines') (h : d.Alike like e)
    (block : DataBlock) :
    Like (Deck.Alike like) (d.loadBlock block) (e.loadBlock block) := by
  unfold Deck.loadBlock
  split
  case h_1 contents hcontents => exact h.loadContents hlike block contents
  case h_2 fault hfault => exact Like.after (Like.pure h)

theorem copyRam (hlike : Likeness like engines engines') (h : d.Alike like e) (copy : RamCopy) :
    Like (Deck.Alike like) (d.copyRam copy) (e.copyRam copy) := by
  have hcopy : ∀ data, Like (Deck.Alike like)
      (if copy.bank = rf5c68Bank then d.send ⟨.rf5c68, .primary⟩ [.ram copy.writeOffset.toNat data]
        else do
          Logged.note (.copyUnknown copy.bank)
          pure d)
      (if copy.bank = rf5c68Bank then e.send ⟨.rf5c68, .primary⟩ [.ram copy.writeOffset.toNat data]
        else do
          Logged.note (.copyUnknown copy.bank)
          pure e) := by
    intro data
    split
    · exact h.send hlike _ _
    · exact Like.after (Like.pure h)
  unfold Deck.copyRam
  rw [← h.banks]
  split
  case h_1 => exact Like.after (Like.pure h)
  case h_2 data clamped hrange =>
    dsimp only
    split
    · refine Like.after ?_
      exact hcopy data
    · exact hcopy data

/-- **Decks that are alike carry out a command alike.** -/
theorem execute (hlike : Likeness like engines engines') (h : d.Alike like e)
    (command : Command) :
    Like (Deck.Alike like) (d.execute engines command) (e.execute engines' command) := by
  cases command with
  | psgWrite rank value => exact h.send hlike _ _
  | psgStereo rank value => exact h.send hlike _ _
  | registerWrite kind rank pair register value =>
    unfold Deck.execute
    dsimp only
    split
    · exact Like.bind (h.decideFm hlike kind) fun _ _ h => h.send hlike _ _
    · exact Like.bind (Like.pure h) fun _ _ h => h.send hlike _ _
  | dataBlock block => exact h.loadBlock hlike block
  | ramCopy copy => exact h.copyRam hlike copy
  | dacWrite frames => exact h.writeDac hlike
  | dacSeek position => exact Like.pure { h with dacPosition := rfl }
  | rf5c68Register register value => exact h.send hlike _ _
  | rf5c68Memory address value => exact h.send hlike _ _
  | multiPcmWrite rank register value => exact h.send hlike _ _
  | multiPcmBank rank channel offset => exact h.send hlike _ _
  | segaPcmMemory rank address value => exact h.send hlike _ _
  | pwmWrite register value => exact Like.after (Like.pure h)
  | ymf278bWrite part register value => exact Like.after (Like.pure h)
  | ymf271Write part register value => exact Like.after (Like.pure h)
  | wait frames => exact Like.pure h
  | waitSixtieth => exact Like.pure h
  | waitFiftieth => exact Like.pure h
  | waitShort n => exact Like.pure h
  | endOfData => exact Like.pure h

end Deck.Alike

/-! ## 6. The decks with which a log begins -/

namespace Board.Alike

variable {b : Board σ} {c : Board τ}

theorem activateAll (hlike : Likeness like engines engines')
    (declared : List (ChipKind × ClockField)) (h : b.Alike like c) :
    Like (Board.Alike like) (Deck.activateAll engines declared b)
      (Deck.activateAll engines' declared c) := by
  induction declared generalizing b c with
  | nil => exact Like.pure h
  | cons chip rest ih =>
    obtain ⟨kind, field⟩ := chip
    refine Like.bind (h.activate hlike kind field) ?_
    rintro ⟨_, b⟩ ⟨_, c⟩ ⟨-, h⟩
    exact ih h

theorem configurePsg (hlike : Likeness like engines engines') (header : Header)
    (h : b.Alike like c) :
    Like (Board.Alike like) (Deck.configurePsg header b) (Deck.configurePsg header c) := by
  unfold Deck.configurePsg
  rw [← h.isActive hlike]
  split
  · exact Like.bind (h.send hlike _ _) fun _ _ h => h.send hlike _ _
  · exact Like.pure h

theorem configureSegaPcm (hlike : Likeness like engines engines') (header : Header)
    (h : b.Alike like c) :
    Like (Board.Alike like) (Deck.configureSegaPcm header b)
      (Deck.configureSegaPcm header c) := by
  unfold Deck.configureSegaPcm
  rw [← h.isActive hlike]
  split
  · exact Like.after (h.send hlike _ _)
  · exact Like.pure h

end Board.Alike

/-- If empty sockets are alike, logs begin with decks that are alike. -/
theorem Deck.alike_ofHeader (hlike : Likeness like engines engines')
    (hempty : ∀ site, like site {} {}) (header : Header) :
    Like (Deck.Alike like) (Deck.ofHeader engines header) (Deck.ofHeader engines' header) := by
  have hboard : (Board.empty : Board σ).Alike like (Board.empty : Board τ) := by
    intro site
    rw [Board.socket_empty, Board.socket_empty]
    exact hempty site
  refine Like.bind (hboard.activateAll hlike _) fun _ _ h => ?_
  refine Like.bind (h.configurePsg hlike header) fun _ _ h => ?_
  refine Like.bind (h.configureSegaPcm hlike header) fun _ _ h => ?_
  split
  · exact Like.after (Like.pure ⟨h, rfl, rfl, rfl⟩)
  · exact Like.pure ⟨h, rfl, rfl, rfl⟩

/-! ## 7. Players -/

/-- Two players stand at the same place, and their decks are alike. -/
structure Playback.Alike (like : Site → Socket σ → Socket τ → Prop) (p : Playback σ)
    (q : Playback τ) : Prop where
  deck : p.deck.Alike like q.deck
  position : p.position = q.position
  ended : p.ended = q.ended
  terminated : p.terminated = q.terminated

/-- **Players that are alike take a step alike**: with the same outcome and the same events, and
they are alike afterwards. -/
theorem Playback.Alike.step (hlike : Likeness like engines engines') {p : Playback σ}
    {q : Playback τ} (h : p.Alike like q) (image : ByteArray) :
    Like (fun r r' => r.1 = r'.1 ∧ Playback.Alike like r.2 r'.2) (p.step engines image)
      (q.step engines' image) := by
  unfold Playback.step
  rw [← h.terminated, ← h.ended, ← h.position]
  split
  · exact Like.pure ⟨rfl, h⟩
  split
  · exact Like.pure ⟨rfl, h⟩
  split
  case h_1 fault hparse => exact Like.after (Like.pure ⟨rfl, h.deck, rfl, rfl, rfl⟩)
  case h_2 length hparse => exact Like.after (Like.pure ⟨rfl, h.deck, rfl, rfl, rfl⟩)
  case h_3 command length hne hparse =>
    exact Like.bind (h.deck.execute hlike command) fun _ _ hdeck =>
      Like.pure ⟨rfl, hdeck, rfl, rfl, rfl⟩

omit [ChipEngine σ] [ChipEngine τ] in
theorem Playback.Alike.seek {p : Playback σ} {q : Playback τ} (h : p.Alike like q)
    (position : Nat) : (p.seek position).Alike like (q.seek position) :=
  { h with
    position := rfl
    ended := by simp [Playback.seek, h.ended, h.position] }

/-- Players that open the same header begin alike. -/
theorem Playback.alike_ofHeader (hlike : Likeness like engines engines')
    (hempty : ∀ site, like site {} {}) (header : Header) :
    Like (Playback.Alike like) (Playback.ofHeader engines header)
      (Playback.ofHeader engines' header) :=
  Like.bind (Deck.alike_ofHeader hlike hempty header) fun _ _ hdeck =>
    Like.pure ⟨hdeck, rfl, rfl, rfl⟩

end ChipLog
