/-
# Frames on the machine

An engine is clocked until its phase has reached its rate, and then the rate is taken off.  The phase
is a sum that may leave its word and a difference that may fall below zero.  It does neither: the
loop adds to a phase below the rate only, which has 32 bits (`Board.Paced`), and ends at a phase that
is not.  Every engine of a session has such a rate (`Board.Hears.paced`), whatever it answers.

What the engines deliver is added up with sums that stop at the end of their word, and each total is
limited to sixteen bits.  So the last cast of a frame loses nothing (`narrow_eq`).

Main statement: a frame is reached on every board with such engines (`tick_eq`).
-/
import ChipLog.Proofs.Board.Hearing
import ChipLog.Proofs.Board.Levels
import ChipLog.Proofs.Machine.Checked

namespace ChipLog

variable {σ : Type} [ChipEngine σ]

/-! ## 1. Rates -/

/-- The rate of an engine is a word of 32 bits. -/
def Socket.Paced {σ : Type} (socket : Socket σ) : Prop :=
  ∀ voice, socket.voice = some voice → voice.rate < 2 ^ 32

def Board.Paced {σ : Type} (board : Board σ) : Prop := ∀ site, (board.socket site).Paced

theorem Socket.Paced.advance {socket : Socket σ} (h : socket.Paced) : socket.advance.Paced := by
  intro voice hvoice
  obtain ⟨before, hbefore, rfl⟩ := Option.map_eq_some_iff.mp hvoice
  rw [Voice.rate_advance]
  exact h before hbefore

theorem Board.Paced.advance {board : Board σ} (h : board.Paced) : board.advance.Paced := by
  intro site
  rw [socket_advance]
  exact (h site).advance

/-- **Whatever happens to a socket, its engine keeps such a rate**: the engine gives it when it is
started. -/
theorem Socket.Hears.paced {make : σ} {deeds : List (Event Unit)} {s t : Socket σ}
    (h : Hears make deeds s t) (hs : s.Paced) : t.Paced := by
  induction h with
  | nil s => exact hs
  | start field _ _ ih =>
    refine ih ?_
    rintro voice ⟨⟩
    exact UInt32.toNat_lt _
  | call c _ hvoice _ ih =>
    have hrate := hs _ hvoice
    refine ih ?_
    rintro told ⟨⟩
    exact hrate
  | frame _ ih => exact ih hs.advance
  | mute audible _ ih => exact ih hs

theorem Board.Hears.paced {engines : Factory σ} {events : List (Event Site)} {b c : Board σ}
    (h : b.Hears engines events c) (hb : b.Paced) : c.Paced :=
  fun site => (h site).paced (hb site)

omit [ChipEngine σ] in
theorem Board.paced_empty : (empty : Board σ).Paced := by
  intro site voice hvoice
  rw [socket_empty] at hvoice
  cases hvoice

namespace Machine

/-! ## 2. Advancing -/

/-- One step more brings the phase closer to the rate. -/
theorem closer_of_add {phase rate step next : Nat} (hstep : 0 < step) (hdue : phase < rate)
    (hnext : add phase step = .ok next) : rate - next < rate - phase := by
  have hmoved := eq_add_of_add hnext
  omega

/-- Clock the engine, which adds `step` to the phase each time, until it is due for the next
frame. -/
def catchUp (step : Nat) (hstep : 0 < step) (voice : Voice σ) : Checked (Voice σ) :=
  if hdue : voice.phase < voice.rate then
    match hnext : add voice.phase step with
    | .error halt => .error halt
    | .ok phase =>
      have := closer_of_add hstep hdue hnext
      catchUp step hstep { voice with engine := ChipEngine.clock voice.engine, phase }
  else .ok voice
termination_by voice.rate - voice.phase

theorem outputRate_pos : 0 < outputRate := Nat.zero_lt_succ _

/-- Go on by one frame of output. -/
def advanceVoice (voice : Voice σ) : Checked (Voice σ) := do
  let voice ← catchUp outputRate outputRate_pos voice
  let phase ← sub voice.phase voice.rate
  return { voice with phase }

def advanceSocket (socket : Socket σ) : Checked (Socket σ) :=
  match socket.voice with
  | some voice => do
    let voice ← advanceVoice voice
    return { socket with voice := some voice }
  | none => return socket

def advancePair (pair : Pair σ) : Checked (Pair σ) := do
  let primary ← advanceSocket pair.primary
  let secondary ← advanceSocket pair.secondary
  return ⟨primary, secondary⟩

def advance (board : Board σ) : Checked (Board σ) := do
  let slots ← tabulate fun kind => advancePair (board.slot kind)
  return ⟨slots⟩

/-- The loop stays in its word, as it goes no further than one step beyond the rate. -/
theorem catchUp_eq {voice : Voice σ} (hrate : voice.rate < 2 ^ 32) :
    catchUp outputRate outputRate_pos voice = .ok voice.catchUp := by
  fun_induction Voice.catchUp voice with
  | case1 voice hdue ih =>
    have hnext : add voice.phase outputRate = .ok (voice.phase + outputRate) := by
      unfold outputRate
      exact add_of_lt (by omega)
    rw [catchUp, dif_pos hdue]
    split
    case h_1 hhalt =>
      rw [hnext] at hhalt
      cases hhalt
    case h_2 hfound =>
      rw [hnext] at hfound
      cases hfound
      exact ih hrate
  | case2 voice hdue => rw [catchUp, dif_neg hdue]

theorem advanceVoice_eq {voice : Voice σ} (hrate : voice.rate < 2 ^ 32) :
    advanceVoice voice = .ok voice.advance := by
  have hdue : voice.catchUp.rate ≤ voice.catchUp.phase := by
    rw [Voice.rate_catchUp]
    exact voice.rate_le_phase_catchUp
  unfold advanceVoice
  rw [catchUp_eq hrate]
  show (do
    let phase ← sub voice.catchUp.phase voice.catchUp.rate
    return { voice.catchUp with phase }) = _
  rw [sub_of_le hdue]
  rfl

theorem advanceSocket_eq {socket : Socket σ} (h : socket.Paced) :
    advanceSocket socket = .ok socket.advance := by
  unfold advanceSocket Socket.advance
  cases hvoice : socket.voice with
  | none =>
    obtain ⟨voice, audible⟩ := socket
    cases hvoice
    rfl
  | some voice =>
    dsimp only
    rw [advanceVoice_eq (h voice hvoice)]
    rfl

theorem advance_eq {board : Board σ} (h : board.Paced) : advance board = .ok board.advance := by
  have hpair : ∀ kind, advancePair (board.slot kind) = .ok (board.slot kind).advance := by
    intro kind
    have hprimary : (board.slot kind).primary.Paced := h ⟨kind, .primary⟩
    have hsecondary : (board.slot kind).secondary.Paced := h ⟨kind, .secondary⟩
    unfold advancePair
    rw [advanceSocket_eq hprimary, advanceSocket_eq hsecondary]
    rfl
  have hslots : PerKind.ofFn (fun kind => (board.slot kind).advance) =
      board.slots.map Pair.advance := PerKind.ext_get fun kind => by simp [Board.slot]
  unfold advance
  rw [tabulate_eq hpair, hslots]
  rfl

/-! ## 3. Frames -/

/-- Cast a word to sixteen bits; a cast that loses bits is refused. -/
def toWord16 (word : Int32) : Checked Int16 :=
  if word.toInt16.toInt = word.toInt then .ok word.toInt16 else .error .panic

def narrow (total : RawFrame) : Checked StereoFrame := do
  let left ← toWord16 total.left
  let right ← toWord16 total.right
  return ⟨left, right⟩

/-- One frame of output. -/
def tick (board : Board σ) : Checked (StereoFrame × Board σ) := do
  let board ← advance board
  let frame ← narrow board.output
  return (frame, board)

/-- `count` frames of output, put behind the `frames` so far. -/
def render (frames : Array StereoFrame) (board : Board σ) :
    (count : Nat) → Checked (Array StereoFrame × Board σ)
  | 0 => return (frames, board)
  | count + 1 => do
    let (frame, board) ← tick board
    render (frames.push frame) board count

theorem toWord16_of_fits {word : Int32} (h : Fits16 word.toInt) :
    toWord16 word = .ok word.toInt16 := if_pos (toInt_toInt16_of_fits h)

/-- **The cast of a frame loses nothing**, whatever the engines have delivered. -/
theorem narrow_eq (board : Board σ) :
    narrow board.advance.output = .ok board.advance.output.narrow := by
  have hfits : ∀ side, Fits16 (board.advance.output.on side) := fun side => by
    rw [Board.on_output_advance_eq]
    exact fits16_sumLimited _
  unfold narrow
  rw [toWord16_of_fits (hfits .left), toWord16_of_fits (hfits .right)]
  rfl

/-- **A frame is reached on every board in pace.** -/
theorem tick_eq {board : Board σ} (h : board.Paced) : tick board = .ok board.tick := by
  unfold tick
  rw [advance_eq h]
  show (do let frame ← narrow board.advance.output; return (frame, board.advance)) = _
  rw [narrow_eq]
  rfl

theorem render_eq (frames : Array StereoFrame) {board : Board σ} (h : board.Paced) (count : Nat) :
    render frames board count = .ok (board.render frames count) := by
  induction count generalizing frames board with
  | zero => rfl
  | succ count ih =>
    rw [render, tick_eq h]
    exact ih (frames.push board.tick.1) h.advance

end Machine

end ChipLog
