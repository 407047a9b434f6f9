/-
# What the user asks for

The command line asks for the summary of a log or for a rendering of it.
-/
import ChipLog.Tool.Render

namespace ChipLog

/-- What the user asks for. -/
inductive Request
  | summary (file : String)
  | rendering (file output : String) (options : RenderOptions)
  deriving DecidableEq, Repr

namespace Request

/-- Why a command line asks for nothing. -/
inductive Misuse
  | noCommand
  | badCommand (word : String)
  | badOption (word : String)
  | badValue (option value : String)
  | badFiles
  deriving DecidableEq, Repr

/-- The wording of a misuse. -/
def Misuse.message : Misuse → String
  | noCommand => "a command is missing: info or render"
  | badCommand word => "unknown command '" ++ word ++ "'"
  | badOption word => "unknown or incomplete option '" ++ word ++ "'"
  | badValue option value => "invalid value '" ++ value ++ "' for '" ++ option ++ "'"
  | badFiles => "wrong number of files"

/-- A rendering without options goes back to the loop point once. -/
def defaultOptions : RenderOptions := { loops := 1, mute := [], maxSeconds := none }

/-- The largest number an option can have. -/
def maxNumber : Nat := 0xFFFFFFFF

/-- The number that an option has. -/
def numberOf (option value : String) : Except Misuse Nat :=
  match value.toNat? with
  | some n => if n ≤ maxNumber then .ok n else .error (.badValue option value)
  | none => .error (.badValue option value)

/-- Read the words after `render`: files, and options with their values, in any order. -/
def renderWords (files : List String) (options : RenderOptions) :
    List String → Except Misuse (List String × RenderOptions)
  | [] => .ok (files.reverse, options)
  | "--loops" :: value :: rest => do
    let loops ← numberOf "--loops" value
    renderWords files { options with loops } rest
  | "--mute" :: value :: rest =>
    renderWords files { options with mute := options.mute ++ [value] } rest
  | "--max-seconds" :: value :: rest => do
    let seconds ← numberOf "--max-seconds" value
    renderWords files { options with maxSeconds := some seconds } rest
  | word :: rest =>
    if word.startsWith "--" then .error (.badOption word)
    else renderWords (word :: files) options rest

/-- Read a command line. -/
def parse : List String → Except Misuse Request
  | [] => .error .noCommand
  | ["info", file] => .ok (.summary file)
  | "info" :: _ => .error .badFiles
  | "render" :: words => do
    match ← renderWords [] defaultOptions words with
    | ([file, output], options) => pure (.rendering file output options)
    | _ => .error .badFiles
  | word :: _ => .error (.badCommand word)

end Request

end ChipLog
