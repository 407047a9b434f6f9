/-
# Sessions that are alike

Players whose sockets are alike take their steps alike (`Proofs/Playback/Likeness`).  What sockets
have in common may go by the frames that they have made since they have an engine, and then there is
a sense of being alike for every number of frames.  If sockets that are alike are so again after one
more frame, and when chips are switched on or off, these senses are `Steady`.

Sessions that are alike answer every call alike, but for the frames, and are alike after it, as
many frames further on as the call has made; so it is with every script that is run on both
(`Session.AlikeAt.performAll`).  Frames may differ, since nothing is said of what sockets deliver.
If sockets that are alike deliver the same (`Faithful`), the frames are the same as well
(`Session.AlikeAt.replies_eq`).

Sessions that are loaded from one image are alike as soon as empty sockets are
(`Session.load_alike`).  Most likenesses do not count frames; for them there is `Session.Alike`.

Last there are the likenesses that come from engines behind engines (`Proofs/Board/Passage`): one
socket is what one sees of the other behind the engine in front (`Socket.Behind`).  They are faithful,
and they are steady as soon as frames keep what is said of the engine in front.
-/
import ChipLog.Proofs.Board.Passage
import ChipLog.Proofs.Playback.Likeness
import ChipLog.Proofs.Session.Script

namespace ChipLog

open Logged (Like)

variable {σ τ : Type} [ChipEngine σ] [ChipEngine τ]

/-! ## 1. Likenesses that last -/

/-- A way to compare sockets, by the frames that they have made, that holds on through frames and
mutes.  A socket makes frames only if it has an engine. -/
structure Steady (like : Nat → Site → Socket σ → Socket τ → Prop) : Prop where
  advance : ∀ {made site s t}, like made site s t →
    like (made + if s.isActive then 1 else 0) site s.advance t.advance
  setAudible : ∀ {made site s t} audible, like made site s t →
    like made site (s.setAudible audible) (t.setAudible audible)

/-- What frames and mutes keep is steady. -/
theorem steady_kept {holds : Site → Socket σ → Prop}
    (hadvance : ∀ {site s}, holds site s → holds site s.advance)
    (hswitch : ∀ {site s} audible, holds site s → holds site (s.setAudible audible)) :
    Steady fun _ => kept holds where
  advance {_ site s t} h := ⟨by rw [h.1], hadvance h.2⟩
  setAudible {_ site s t} audible h := ⟨by rw [h.1], hswitch audible h.2⟩

/-- Sockets that are alike deliver the same. -/
structure Faithful (like : Nat → Site → Socket σ → Socket τ → Prop) : Prop where
  output : ∀ {made site s t}, like made site s t → s.output = t.output

/-- How the sockets of two boards compare that have made the frames that `made` says. -/
abbrev likeAt {σ τ : Type} (like : Nat → Site → Socket σ → Socket τ → Prop) (made : Site → Nat) :
    Site → Socket σ → Socket τ → Prop :=
  fun site => like (made site) site

namespace Board

/-- The frames that the sites have made, once every site with an engine has made `count` more. -/
def counted {σ : Type} (made : Site → Nat) (count : Nat) (board : Board σ) : Site → Nat :=
  fun site => made site + if (board.socket site).isActive then count else 0

theorem counted_zero {σ : Type} (made : Site → Nat) (board : Board σ) :
    board.counted made 0 = made := by
  funext site
  simp [counted]

theorem counted_succ (made : Site → Nat) (count : Nat) (board : Board σ) :
    board.advance.counted (board.counted made 1) count = board.counted made (count + 1) := by
  funext site
  simp only [counted, socket_advance, Socket.isActive_advance]
  split <;> omega

namespace Alike

variable {like : Nat → Site → Socket σ → Socket τ → Prop} {made : Site → Nat} {b : Board σ}
  {c : Board τ}

theorem advance (hsteady : Steady like) (h : b.Alike (likeAt like made) c) :
    b.advance.Alike (likeAt like (b.counted made 1)) c.advance := by
  intro site
  rw [socket_advance, socket_advance]
  exact hsteady.advance (h site)

theorem render (hsteady : Steady like) (count : Nat) (frames frames' : Array StereoFrame)
    (h : b.Alike (likeAt like made) c) :
    (b.render frames count).2.Alike (likeAt like (b.counted made count))
      (c.render frames' count).2 := by
  induction count generalizing frames frames' made b c with
  | zero =>
    rw [counted_zero]
    exact h
  | succ count ih =>
    rw [← counted_succ]
    exact ih _ _ (h.advance hsteady)

/-- Boards whose sockets deliver the same have the same output. -/
theorem output_eq (hactive : ∀ {site s t}, likeAt like made site s t → s.isActive = t.isActive)
    (hfaithful : Faithful like) (h : b.Alike (likeAt like made) c) : b.output = c.output := by
  have hmix : (fun total site => (b.socket site).mixOutput total) =
      fun total site => (c.socket site).mixOutput total := by
    funext total site
    rw [Socket.mixOutput, Socket.mixOutput, hactive (h site), hfaithful.output (h site)]
  rw [output_eq_foldl, output_eq_foldl, hmix]

/-- They go on with the same frames. -/
theorem frames_eq
    (hactive : ∀ {made site s t}, likeAt like made site s t → s.isActive = t.isActive)
    (hsteady : Steady like) (hfaithful : Faithful like) (count : Nat) (frames : Array StereoFrame)
    (h : b.Alike (likeAt like made) c) :
    (b.render frames count).1 = (c.render frames count).1 := by
  induction count generalizing frames made b c with
  | zero => rfl
  | succ count ih =>
    have hnext := h.advance hsteady
    have hframe : b.tick.1 = c.tick.1 :=
      congrArg RawFrame.narrow (hnext.output_eq hactive hfaithful)
    unfold Board.render
    dsimp only
    rw [← hframe]
    exact ih _ hnext

end Alike

end Board

/-! ## 2. Answers -/

/-- The reply, if it says something of the log: the outcome of a step, or the tag. -/
def Reply.answer? : Reply → Option Reply
  | .stepped result => some (.stepped result)
  | .tag answer => some (.tag answer)
  | _ => none

theorem Reply.answer?_frames (frames : Array StereoFrame) : (Reply.frames frames).answer? = none :=
  rfl

namespace Session

/-- The same answer, if any, and sessions that are related. -/
def Answered (related : Session σ → Session τ → Prop) (r : Reply × Session σ)
    (r' : Reply × Session τ) : Prop :=
  r.1.answer? = r'.1.answer? ∧ related r.2 r'.2

/-- The same answers, and sessions that are related. -/
def AnsweredAll (related : Session σ → Session τ → Prop) (r : List Reply × Session σ)
    (r' : List Reply × Session τ) : Prop :=
  r.1.filterMap Reply.answer? = r'.1.filterMap Reply.answer? ∧ related r.2 r'.2

variable {session : Session σ} {session' : Session τ}

/-- Scripts that begin with the same answer and go on with the same answers have the same answers. -/
theorem like_performAll_cons {related related' : Session σ → Session τ → Prop} {call call' : Call}
    {calls calls' : List Call}
    (hcall : Like (Answered related) (session.perform call) (session'.perform call'))
    (hcalls : Like (AnsweredAll related') ((session.perform call).value.2.performAll calls)
      ((session'.perform call').value.2.performAll calls')) :
    Like (AnsweredAll related') (session.performAll (call :: calls))
      (session'.performAll (call' :: calls')) := by
  obtain ⟨hevents, hanswer, -⟩ := hcall
  obtain ⟨hevents', hanswers, hlast⟩ := hcalls
  refine ⟨?_, ?_, hlast⟩
  · simp only [performAll, Logged.events_bind, Logged.events_pure, hevents, hevents']
  · simp only [performAll, Logged.value_bind, Logged.value_pure, List.filterMap_cons, hanswer,
      hanswers]

/-! ## 3. Sessions -/

/-- Two sessions of one log whose sockets have made the frames that `made` says and are alike, and
stay so. -/
structure AlikeAt (like : Nat → Site → Socket σ → Socket τ → Prop) (made : Site → Nat)
    (session : Session σ) (session' : Session τ) : Prop where
  likeness : ∀ made, Likeness (likeAt like made) session.engines session'.engines
  steady : Steady like
  image : session.image = session'.image
  header : session.header = session'.header
  cache : session.cache = session'.cache
  playback : session.playback.Alike (likeAt like made) session'.playback

/-- The frames that the sites have made, once every site with an engine has made `count` more. -/
def counted {σ : Type} (made : Site → Nat) (count : Nat) (session : Session σ) : Site → Nat :=
  session.playback.deck.board.counted made count

theorem counted_apply {σ : Type} (made : Site → Nat) (count : Nat) (session : Session σ)
    (site : Site) :
    session.counted made count site = made site + if session.isActive site then count else 0 := rfl

theorem counted_zero {σ : Type} (made : Site → Nat) (session : Session σ) :
    session.counted made 0 = made :=
  Board.counted_zero made _

namespace AlikeAt

variable {like : Nat → Site → Socket σ → Socket τ → Prop} {made : Site → Nat}

theorem step (h : session.AlikeAt like made session') :
    Like (fun r r' => r.1 = r'.1 ∧ r.2.AlikeAt like made r'.2) session.step session'.step := by
  unfold Session.step
  rw [← h.image]
  refine Like.bind (h.playback.step (h.likeness made) session.image) ?_
  rintro ⟨result, playback⟩ ⟨_, playback'⟩ ⟨rfl, hplayback⟩
  exact Like.pure ⟨rfl, { h with image := rfl, playback := hplayback }⟩

theorem tag (h : session.AlikeAt like made session') :
    Like (fun r r' => r.1 = r'.1 ∧ r.2.AlikeAt like made r'.2) session.tag session'.tag := by
  unfold Session.tag
  rw [h.image, h.header, h.cache]
  exact Like.after (Like.pure ⟨rfl, { h with cache := rfl, header := rfl, image := rfl }⟩)

theorem withBoard (h : session.AlikeAt like made session') {made' : Site → Nat} {b : Board σ}
    {c : Board τ} (hboard : b.Alike (likeAt like made') c) :
    AlikeAt like made'
      { session with playback := { session.playback with deck :=
        { session.playback.deck with board := b } } }
      { session' with playback := { session'.playback with deck :=
        { session'.playback.deck with board := c } } } :=
  { h with
    playback := { h.playback with
      deck := { h.playback.deck with board := hboard } } }

/-- **Every call is answered alike.** -/
theorem perform (h : session.AlikeAt like made session') (call : Call) :
    Like (Answered (AlikeAt like (session.counted made call.frames))) (session.perform call)
      (session'.perform call) := by
  cases call with
  | step =>
    simp only [Call.frames, counted_zero]
    refine Like.bind h.step ?_
    rintro ⟨result, next⟩ ⟨_, next'⟩ ⟨rfl, hnext⟩
    exact Like.pure ⟨rfl, hnext⟩
  | seek position =>
    simp only [Call.frames, counted_zero]
    exact Like.pure ⟨rfl, { h with playback := h.playback.seek position }⟩
  | tick =>
    exact Like.pure ⟨(Reply.answer?_frames _).trans (Reply.answer?_frames _).symm,
      h.withBoard (h.playback.deck.board.advance h.steady)⟩
  | render count =>
    exact Like.pure ⟨(Reply.answer?_frames _).trans (Reply.answer?_frames _).symm,
      h.withBoard (h.playback.deck.board.render h.steady count #[] #[])⟩
  | setAudible site audible =>
    simp only [Call.frames, counted_zero]
    have hsocket := h.steady.setAudible audible (h.playback.deck.board site)
    exact Like.pure ⟨rfl, h.withBoard (h.playback.deck.board.setSocket hsocket)⟩
  | tag =>
    simp only [Call.frames, counted_zero]
    refine Like.bind h.tag ?_
    rintro ⟨answer, next⟩ ⟨_, next'⟩ ⟨rfl, hnext⟩
    exact Like.pure ⟨rfl, hnext⟩

/-- **The simulation.**  One script does the same to sessions that are alike. -/
theorem performAll (h : session.AlikeAt like made session') (calls : List Call) :
    Like (AnsweredAll (AlikeAt like fun site => made site + session.framesSince site calls))
      (session.performAll calls) (session'.performAll calls) := by
  induction calls generalizing made session session' with
  | nil => exact Like.pure ⟨rfl, h⟩
  | cons call calls ih =>
    have hcount : (fun site => session.counted made call.frames site +
        (session.perform call).value.2.framesSince site calls) =
          fun site => made site + session.framesSince site (call :: calls) := by
      funext site
      rw [counted_apply, framesSince, Nat.add_assoc]
    rw [← hcount]
    exact like_performAll_cons (h.perform call) (ih (h.perform call).2.2)

/-- If sockets that are alike deliver the same, every call has the same reply. -/
theorem reply_eq (hfaithful : Faithful like) (h : session.AlikeAt like made session')
    (call : Call) : (session.perform call).value.1 = (session'.perform call).value.1 := by
  have hactive : ∀ {made site s t}, likeAt like made site s t → s.isActive = t.isActive :=
    fun {made} => (h.likeness made).active
  cases call with
  | step => exact congrArg Reply.stepped h.step.2.1
  | seek position => rfl
  | tick =>
    have hnext := h.playback.deck.board.advance h.steady
    exact congrArg (fun total => Reply.frames #[total.narrow]) (hnext.output_eq hactive hfaithful)
  | render count =>
    exact congrArg Reply.frames
      (h.playback.deck.board.frames_eq hactive h.steady hfaithful count #[])
  | setAudible site audible => rfl
  | tag => exact congrArg Reply.tag h.tag.2.1

/-- **Then a script has the same replies**, frames and all. -/
theorem replies_eq (hfaithful : Faithful like) (h : session.AlikeAt like made session')
    (calls : List Call) : session.replies calls = session'.replies calls := by
  induction calls generalizing made session session' with
  | nil => rfl
  | cons call calls ih =>
    rw [replies_cons, replies_cons, h.reply_eq hfaithful call, ih (h.perform call).2.2]

end AlikeAt

/-- An image that loads with some engines loads with others, and the sessions are alike if empty
sockets are. -/
theorem load_alike {like : Nat → Site → Socket σ → Socket τ → Prop} {engines : Factory σ}
    {engines' : Factory τ} {image : ByteArray}
    (hlike : ∀ made, Likeness (likeAt like made) engines engines') (hsteady : Steady like)
    (hempty : ∀ site, like 0 site {} {}) (h : (load engines image).value = .ok session) :
    ∃ session', (load engines' image).value = .ok session' ∧
      session.AlikeAt like (fun _ => 0) session' := by
  obtain ⟨header, hparse, rfl⟩ := load_eq_ok_iff.mp h
  exact ⟨opened engines' image header, load_eq_ok_iff.mpr ⟨header, hparse, rfl⟩, hlike, hsteady,
    rfl, rfl, rfl, (Playback.alike_ofHeader (hlike _) hempty header).2⟩

/-! ## 4. Likenesses that do not count -/

variable {like : Site → Socket σ → Socket τ → Prop}

/-- Two sessions of one log whose sockets are alike and stay so, however many frames are made. -/
abbrev Alike (like : Site → Socket σ → Socket τ → Prop) (session : Session σ)
    (session' : Session τ) : Prop :=
  session.AlikeAt (fun _ => like) (fun _ => 0) session'

/-- Where frames do not count, any number of them will do. -/
theorem AlikeAt.uncounted {made : Site → Nat} (h : session.AlikeAt (fun _ => like) made session') :
    session.Alike like session' :=
  { h with playback := h.playback }

/-- A session is alike itself if each of its sockets is. -/
theorem alike_self {like : Site → Socket σ → Socket σ → Prop}
    (hlike : Likeness like session.engines session.engines) (hsteady : Steady fun _ => like)
    (h : ∀ site, like site (session.socket site) (session.socket site)) :
    session.Alike like session :=
  ⟨fun _ => hlike, hsteady, rfl, rfl, rfl, ⟨⟨h, rfl, rfl, rfl⟩, rfl, rfl, rfl⟩⟩

namespace Alike

theorem perform (h : session.Alike like session') (call : Call) :
    Like (Answered (Alike like)) (session.perform call) (session'.perform call) := by
  obtain ⟨hevents, hanswer, hnext⟩ := AlikeAt.perform h call
  exact ⟨hevents, hanswer, hnext.uncounted⟩

theorem performAll (h : session.Alike like session') (calls : List Call) :
    Like (AnsweredAll (Alike like)) (session.performAll calls) (session'.performAll calls) := by
  obtain ⟨hevents, hanswers, hlast⟩ := AlikeAt.performAll h calls
  exact ⟨hevents, hanswers, hlast.uncounted⟩

end Alike

/-- The journals of loading with the one engines and with the others are the same. -/
theorem events_load_alike {engines : Factory σ} {engines' : Factory τ} {image : ByteArray}
    (hlike : Likeness like engines engines') (hempty : ∀ site, like site {} {}) :
    (load engines image).events = (load engines' image).events := by
  have hload : Like (fun _ _ => True) (load engines image) (load engines' image) := by
    refine Like.after ?_
    cases (Header.read image : Logged Site (Except Fault Header)).value with
    | error fault => exact Like.pure trivial
    | ok header =>
      exact Like.bind (Playback.alike_ofHeader hlike hempty header) fun _ _ _ => Like.pure trivial
  exact hload.1

end Session

/-! ## 5. Engines behind engines -/

/-- A socket is what one sees of another one behind the engine in front, and something holds of the
voice of that one, or of its having none. -/
structure Socket.Behind {σ τ : Type} (f : τ → σ) (holds : Option (Voice τ) → Prop) (s : Socket σ)
    (t : Socket τ) : Prop where
  behind : s = t.map f
  voice : holds t.voice

variable {f : τ → σ}

/-- Calls and new engines go through, if they keep what is said of the voices. -/
theorem likeness_behind (hf : Passage f) {engines : Factory σ} {engines' : Factory τ}
    {holds : Site → Option (Voice τ) → Prop} (hengines : ∀ site, engines site = f (engines' site))
    (hsend : ∀ {site voice} calls, holds site (some voice) → holds site (some (voice.send calls)))
    (hstart : ∀ {site} hz, holds site none → holds site (some (Voice.start (engines' site) hz))) :
    Likeness (fun site => Socket.Behind f (holds site)) engines engines' where
  active {site s t} h := by rw [h.behind, Socket.isActive_map]
  send {site s t} calls h := by
    refine ⟨by rw [h.behind, Socket.map_send hf], ?_⟩
    have hvoice := h.voice
    rw [Socket.voice_send]
    cases ht : t.voice with
    | none => rwa [ht] at hvoice
    | some voice =>
      rw [ht] at hvoice
      exact hsend calls hvoice
  install {site s t} field h hs := by
    have ht : t.isActive = false := by rw [← hs, h.behind, Socket.isActive_map]
    have hvoice := h.voice
    rw [Option.not_isSome_iff_eq_none.mp (Bool.eq_false_iff.mp ht)] at hvoice
    rw [Socket.install_of_inactive hs, Socket.install_of_inactive ht]
    refine ⟨?_, hstart field.hz hvoice⟩
    rw [hengines, ← Voice.map_start hf, h.behind]
    rfl

/-- So do frames and mutes. -/
theorem steady_behind (hf : Passage f) {holds : Nat → Site → Option (Voice τ) → Prop}
    (hadvance : ∀ {made site voice}, holds made site (some voice) →
      holds (made + 1) site (some voice.advance)) :
    Steady fun made site => Socket.Behind f (holds made site) where
  advance {made site s t} h := by
    refine ⟨by rw [h.behind, Socket.map_advance hf], ?_⟩
    have hvoice := h.voice
    rw [h.behind, Socket.isActive_map, Socket.isActive, Socket.advance]
    cases ht : t.voice with
    | none => rwa [ht] at hvoice
    | some voice =>
      rw [ht] at hvoice
      exact hadvance hvoice
  setAudible {made site s t} audible h := ⟨by rw [h.behind]; rfl, h.voice⟩

/-- The engine in front is not heard. -/
theorem faithful_behind (hf : Passage f) {holds : Nat → Site → Option (Voice τ) → Prop} :
    Faithful fun made site => Socket.Behind f (holds made site) where
  output h := by rw [h.behind, Socket.output_map hf]

end ChipLog
