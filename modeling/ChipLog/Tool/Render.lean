/-
# Rendering a log

A log is played from its start, some chips muted, and the frames are kept.  The rendering
goes back to the loop point a number of times, and can be limited to a number of seconds.
-/
import ChipLog.Session
import ChipLog.Tool.Mute

namespace ChipLog

/-- What a rendering should do. -/
structure RenderOptions where
  /-- How often to go back to the loop point. -/
  loops : Nat
  /-- The chips to mute, as the user has named them. -/
  mute : List String
  maxSeconds : Option Nat
  deriving DecidableEq, Repr

namespace Render

/-- Why a rendering has failed. -/
inductive Failure
  | load (fault : Fault)
  | mute (refusal : Mute.Refusal)
  | stopped (fault : Fault)
  deriving DecidableEq

/-- The wording of a failure. -/
def Failure.message : Failure → String
  | load fault => "failed to load VGM: " ++ fault.message
  | mute refusal => refusal.message
  | stopped fault => "playback stopped: " ++ fault.message

variable {σ : Type} [ChipEngine σ]

/-- Mute the chips that the user has named. -/
def muteAll (session : Session σ) :
    List String → Logged Site (Except Mute.Refusal (Session σ))
  | [] => pure (.ok session)
  | name :: rest =>
    match Mute.parse name with
    | .ok site => do
      Logged.note (.muted site)
      muteAll (session.setAudible site false) rest
    | .error refusal => pure (.error refusal)

/-- Play a session that has been set up. -/
def play (options : RenderOptions) (path : String) (session : Session σ) :
    Logged Site (Except Failure (Array StereoFrame)) := do
  let (ending, run) := session.play options.loops (options.maxSeconds.map (· * outputRate))
  Logged.report run.events.toList
  match ending with
  | .fault fault => pure (.error (.stopped fault))
  | .limit =>
    Logged.note .timeLimit
    Logged.note (.written path run.frames.size)
    pure (.ok run.frames)
  | .endOfStream =>
    Logged.note (.written path run.frames.size)
    pure (.ok run.frames)

/-- Render an image; `path` is where the frames will be written. -/
def run (engines : Factory σ) (image : ByteArray) (path : String) (options : RenderOptions) :
    Logged Site (Except Failure (Array StereoFrame)) := do
  match ← Session.load engines image with
  | .error fault => pure (.error (.load fault))
  | .ok session =>
    match ← muteAll session options.mute with
    | .error refusal => pure (.error (.mute refusal))
    | .ok session => play options path session

end Render

end ChipLog
