/-
# Scripts: any use of a session

Whoever holds a session may take steps, go to other places of the command stream, let frames
be made, mute chips and ask for the tag, in any order.  A `Call` is one of these requests, and
a script is a list of them.  Statements about "every reachable state" are statements about
every script that starts at a loaded session (`Session.performAll`).

Main statements: a loaded session holds exactly the image it was loaded from, its header, and a
player at the start of the command stream (`load_eq_ok_iff`), and no script changes the image,
the header or the engines to choose from (`image_performAll` and its companions).
-/
import ChipLog.Session

namespace ChipLog

/-! ## 1. Calls and replies -/

/-- One request to a session. -/
inductive Call
  | step
  | seek (position : Nat)
  | tick
  | render (count : Nat)
  | setAudible (site : Site) (audible : Bool)
  | tag
  deriving DecidableEq

/-- What a session answers. -/
inductive Reply
  | stepped (result : Except Fault Step)
  | frames (frames : Array StereoFrame)
  | tag (answer : Except Fault (Option Tag))
  | done

/-- How many frames a call makes. -/
def Call.frames : Call → Nat
  | .tick => 1
  | .render count => count
  | _ => 0

/-- How many frames a script makes. -/
def Call.totalFrames : List Call → Nat
  | [] => 0
  | call :: calls => call.frames + totalFrames calls

/-- The frames that a reply brings. -/
def Reply.frameList : Reply → List StereoFrame
  | .frames made => made.toList
  | _ => []

/-- The outcome of a step, if the reply is one. -/
def Reply.step? : Reply → Option (Except Fault Step)
  | .stepped result => some result
  | _ => none

namespace Session

variable {σ : Type} [ChipEngine σ]

/-- Do what a call asks for. -/
def perform (call : Call) (session : Session σ) : Logged Site (Reply × Session σ) :=
  match call with
  | .step => do
    let (result, next) ← session.step
    pure (.stepped result, next)
  | .seek position => pure (.done, session.seek position)
  | .tick =>
    let (frame, next) := session.tick
    pure (.frames #[frame], next)
  | .render count =>
    let (frames, next) := session.render #[] count
    pure (.frames frames, next)
  | .setAudible site audible => pure (.done, session.setAudible site audible)
  | .tag => do
    let (answer, next) ← session.tag
    pure (.tag answer, next)

/-- Do what a script asks for, call by call. -/
def performAll : List Call → Session σ → Logged Site (List Reply × Session σ)
  | [], session => pure ([], session)
  | call :: calls, session => do
    let (reply, next) ← session.perform call
    let (replies, last) ← performAll calls next
    pure (reply :: replies, last)

/-- The state after a script. -/
def after (calls : List Call) (session : Session σ) : Session σ :=
  (session.performAll calls).value.2

/-- The socket of a site. -/
def socket {σ : Type} (site : Site) (session : Session σ) : Socket σ :=
  session.playback.deck.board.socket site

/-- Whether a site has an engine. -/
def isActive {σ : Type} (site : Site) (session : Session σ) : Bool := (session.socket site).isActive

/-- The replies to a script. -/
def replies (calls : List Call) (session : Session σ) : List Reply :=
  (session.performAll calls).value.1

@[simp] theorem after_nil (session : Session σ) : session.after [] = session := rfl

@[simp] theorem after_cons (call : Call) (calls : List Call) (session : Session σ) :
    session.after (call :: calls) = (session.perform call).value.2.after calls := rfl

@[simp] theorem replies_nil (session : Session σ) : session.replies [] = [] := rfl

@[simp] theorem replies_cons (call : Call) (calls : List Call) (session : Session σ) :
    session.replies (call :: calls) =
      (session.perform call).value.1 :: (session.perform call).value.2.replies calls := rfl

/-- A script in two parts ends where its second part ends. -/
theorem after_append (first second : List Call) (session : Session σ) :
    session.after (first ++ second) = (session.after first).after second := by
  induction first generalizing session with
  | nil => rfl
  | cons call calls ih => simp only [List.cons_append, after_cons, ih]

theorem replies_append (first second : List Call) (session : Session σ) :
    session.replies (first ++ second) =
      session.replies first ++ (session.after first).replies second := by
  induction first generalizing session with
  | nil => rfl
  | cons call calls ih => simp only [List.cons_append, replies_cons, after_cons, ih]

/-- The frames of a script in which the engine of a site took part: those of the calls that found
an engine there. -/
def framesSince (site : Site) : List Call → Session σ → Nat
  | [], _ => 0
  | call :: calls, session =>
    (if session.isActive site then call.frames else 0) +
      framesSince site calls (session.perform call).value.2

theorem framesSince_append (site : Site) (first second : List Call) (session : Session σ) :
    session.framesSince site (first ++ second) =
      session.framesSince site first + (session.after first).framesSince site second := by
  induction first generalizing session with
  | nil => simp [framesSince]
  | cons call calls ih => simp only [List.cons_append, framesSince, after_cons, ih, Nat.add_assoc]

/-- To render some frames is to tick as often. -/
theorem render_eq_ticks (frames : Array StereoFrame) (count : Nat) (session : Session σ) :
    session.render frames count =
      (frames ++ ((session.replies (List.replicate count .tick)).flatMap Reply.frameList).toArray,
        session.after (List.replicate count .tick)) := by
  induction count generalizing frames session with
  | zero => simp; rfl
  | succ count ih =>
    have hfirst : session.render frames (count + 1) =
        session.tick.2.render (frames.push session.tick.1) count := rfl
    have hreply : (session.perform .tick).value.1 = .frames #[session.tick.1] := rfl
    have hnext : (session.perform .tick).value.2 = session.tick.2 := rfl
    rw [hfirst, ih, List.replicate_succ, after_cons, replies_cons, List.flatMap_cons, hreply, hnext]
    refine Prod.ext ?_ rfl
    apply Array.toList_inj.mp
    simp [Reply.frameList]

/-! ## 2. What every script keeps -/

theorem image_perform (call : Call) (session : Session σ) :
    (session.perform call).value.2.image = session.image := by
  cases call <;> rfl

theorem header_perform (call : Call) (session : Session σ) :
    (session.perform call).value.2.header = session.header := by
  cases call <;> rfl

theorem engines_perform (call : Call) (session : Session σ) :
    (session.perform call).value.2.engines = session.engines := by
  cases call <;> rfl

@[simp] theorem image_after (calls : List Call) (session : Session σ) :
    (session.after calls).image = session.image := by
  induction calls generalizing session with
  | nil => rfl
  | cons call calls ih => rw [after_cons, ih, image_perform]

@[simp] theorem header_after (calls : List Call) (session : Session σ) :
    (session.after calls).header = session.header := by
  induction calls generalizing session with
  | nil => rfl
  | cons call calls ih => rw [after_cons, ih, header_perform]

@[simp] theorem engines_after (calls : List Call) (session : Session σ) :
    (session.after calls).engines = session.engines := by
  induction calls generalizing session with
  | nil => rfl
  | cons call calls ih => rw [after_cons, ih, engines_perform]

/-! ## 3. What is loaded -/

/-- The session that a header opens on an image. -/
def opened (engines : Factory σ) (image : ByteArray) (header : Header) : Session σ :=
  { image, header, engines, playback := (Playback.ofHeader engines header).value }

/-- **An image loads exactly if its header can be read**, and the session is then the one that
the header opens. -/
theorem load_eq_ok_iff {engines : Factory σ} {image : ByteArray} {session : Session σ} :
    (load engines image).value = .ok session ↔
      ∃ header, Header.parse image = .ok header ∧ session = opened engines image header := by
  unfold load Header.read
  cases hparse : Header.parse image with
  | error fault => simp
  | ok header =>
    simp only [Logged.value_bind]
    constructor
    · intro h
      cases h
      exact ⟨header, rfl, rfl⟩
    · rintro ⟨header', hheader, rfl⟩
      cases hheader
      rfl

/-! ## 4. Small logs -/

/-- A log of version 1.50 for two SN76489 at 3579545 Hz: a header of 64 bytes, and commands. -/
def sampleLog (commands : List UInt8) : ByteArray :=
  Header.ident ++ (Bytes.digits 4 0 ++ Bytes.digits 4 0x150 ++ Bytes.digits 4 0x40369E99
    ++ List.replicate 48 0 ++ commands).toByteArray

/-- A log of version 1.50 for two SN76489 at 3579545 Hz whose loop point is `loop`: a header of 64
bytes, and commands. -/
def loopLog (loop : Nat) (commands : List UInt8) : ByteArray :=
  Header.ident ++ (Bytes.digits 4 0 ++ Bytes.digits 4 0x150 ++ Bytes.digits 4 0x40369E99
    ++ List.replicate 12 0 ++ Bytes.digits 4 (loop - 0x1C) ++ List.replicate 32 0
    ++ commands).toByteArray

/-- A log of version 1.01 for an FM chip at 7670454 Hz whose kind is open: a header of 64 bytes,
and commands. -/
def legacyLog (commands : List UInt8) : ByteArray :=
  Header.ident ++ (Bytes.digits 4 0 ++ Bytes.digits 4 0x101 ++ Bytes.digits 4 0
    ++ Bytes.digits 4 0x00750AB6 ++ List.replicate 44 0 ++ commands).toByteArray

/-- An old log that switches on the converter of its YM2612.  What follows, from position 67 on, is
to be played over and over: two converter bytes, back to the first byte of the bank, and two
bytes for the converter. -/
def converterLog : ByteArray :=
  legacyLog [0x52, 0x2B, 0x80, 0x67, 0x66, 0x00, 0x02, 0x00, 0x00, 0x00, 0x7F, 0x81,
    0xE0, 0x00, 0x00, 0x00, 0x00, 0x83, 0x84, 0x66]

/-- A log whose header can be read is one that the bundled engines can play from its first command
on. -/
theorem load_of_dataStart {image : ByteArray} {start : Nat}
    (h : (Header.parse image).map Header.dataStart = .ok start) :
    ∃ header, Header.parse image = .ok header ∧ header.dataStart = start ∧
      (load Bundled.factory image).value = .ok (opened Bundled.factory image header) := by
  cases hparse : Header.parse image with
  | error fault => rw [hparse] at h; cases h
  | ok header =>
    rw [hparse] at h
    exact ⟨header, rfl, Except.ok.inj h, load_eq_ok_iff.mpr ⟨header, hparse, rfl⟩⟩

theorem load_sampleLog {commands : List UInt8}
    (h : (Header.parse (sampleLog commands)).map Header.dataStart = .ok 64) :
    ∃ header, Header.parse (sampleLog commands) = .ok header ∧ header.dataStart = 64 ∧
      (load Bundled.factory (sampleLog commands)).value =
        .ok (opened Bundled.factory (sampleLog commands) header) :=
  load_of_dataStart h

end Session

end ChipLog
