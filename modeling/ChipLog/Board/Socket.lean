/-
# A socket for one chip

A socket is empty until an engine is installed, and keeps that engine from then on.  An empty
socket takes every call without effect and adds nothing to the mix.

Whether a socket is heard is a switch in front of the mix.  It does not reach the engine,
which goes on in silence.
-/
import ChipLog.Board.Voice
import ChipLog.Journal

namespace ChipLog

/-- The place for one engine. -/
structure Socket (σ : Type) where
  voice : Option (Voice σ) := none
  /-- Whether the chip is heard. -/
  audible : Bool := true
  deriving DecidableEq

namespace Socket

variable {σ : Type} [ChipEngine σ]

/-! ## 1. State -/

/-- Whether there is an engine. -/
def isActive (socket : Socket σ) : Bool := socket.voice.isSome

/-- The master clock, zero while there is no engine. -/
def hz (socket : Socket σ) : UInt32 := (socket.voice.map Voice.hz).getD 0

/-- Samples of the engine in a second, zero while there is none. -/
def rate (socket : Socket σ) : Nat := (socket.voice.map Voice.rate).getD 0

/-- What the engine has in hand for the next frame. -/
def phase (socket : Socket σ) : Nat := (socket.voice.map Voice.phase).getD 0

/-- Switch the chip on or off in the mix. -/
def setAudible (audible : Bool) (socket : Socket σ) : Socket σ := { socket with audible }

/-! ## 2. Calls -/

/-- Start an engine in an empty socket.  A socket that has an engine keeps it, and the new
engine is not even started.  The answer says whether it was installed. -/
def install (field : ClockField) (engine : σ) (socket : Socket σ) :
    Logged Unit (Bool × Socket σ) :=
  match socket.voice with
  | some _ => do
    Logged.note .alreadyActive
    pure (false, socket)
  | none => do
    Logged.calls () [.start field.hz]
    pure (true, { socket with voice := some (Voice.start engine field.hz) })

/-- Tell the engine something, if there is one. -/
def send (calls : List EngineCall) (socket : Socket σ) : Logged Unit (Socket σ) :=
  match socket.voice with
  | some voice => do
    Logged.calls () calls
    pure { socket with voice := some (voice.send calls) }
  | none => pure socket

/-! ## 3. Time -/

/-- Go on by one frame of output. -/
def advance (socket : Socket σ) : Socket σ :=
  { socket with voice := socket.voice.map Voice.advance }

/-- The sample of the socket: silence if it is empty or switched off. -/
def output (socket : Socket σ) : RawFrame :=
  match socket.voice with
  | some voice => if socket.audible then voice.output else .silence
  | none => .silence

/-- One frame of the socket alone. -/
def tick (socket : Socket σ) : RawFrame × Socket σ :=
  let socket := socket.advance
  (socket.output, socket)

/-- Add the sample of the socket to a total; an empty socket leaves the total as it is. -/
def mixOutput (total : RawFrame) (socket : Socket σ) : RawFrame :=
  if socket.isActive then total.mix socket.output else total

/-- Go on by one frame and add the sample to a total. -/
def mix (total : RawFrame) (socket : Socket σ) : RawFrame × Socket σ :=
  let socket := socket.advance
  (socket.mixOutput total, socket)

/-! ## 4. What is kept -/

omit [ChipEngine σ] in
@[simp] theorem isActive_setAudible (audible : Bool) (socket : Socket σ) :
    (socket.setAudible audible).isActive = socket.isActive := rfl

@[simp] theorem isActive_advance (socket : Socket σ) :
    socket.advance.isActive = socket.isActive := by
  simp [isActive, advance]

@[simp] theorem isActive_send (calls : List EngineCall) (socket : Socket σ) :
    (socket.send calls).value.isActive = socket.isActive := by
  unfold send
  split <;> simp_all [isActive]

/-- A socket has an engine after one was offered to it. -/
theorem isActive_install (field : ClockField) (engine : σ) (socket : Socket σ) :
    (socket.install field engine).value.2.isActive = true := by
  unfold install
  split <;> simp_all [isActive]

/-- An engine is installed exactly if there was none. -/
theorem installed_iff (field : ClockField) (engine : σ) (socket : Socket σ) :
    (socket.install field engine).value.1 = !socket.isActive := by
  unfold install
  split <;> simp_all [isActive]

end Socket

end ChipLog
