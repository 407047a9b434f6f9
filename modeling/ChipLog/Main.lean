/-
# The command line

`info FILE` prints a summary of a log.  `render FILE OUTPUT` plays it into a wave file; the
options are `--loops N`, `--mute CHIP` (any number of times) and `--max-seconds N`.  A file
named `-` is standard input.  Notices go to standard error.
-/
import ChipLog.Gzip.Basic
import ChipLog.Tool.Arguments
import ChipLog.Tool.Summary
import ChipLog.Tool.Wave

namespace ChipLog

/-- All of standard input. -/
partial def readInput (input : IO.FS.Stream) (before : ByteArray) : IO ByteArray := do
  let more ← input.read 65536
  if more.isEmpty then pure before else readInput input (before ++ more)

/-- The bytes of a file, or of standard input. -/
def readSource (file : String) : IO ByteArray := do
  if file = "-" then readInput (← IO.getStdin) ByteArray.empty
  else IO.FS.readBinFile file

/-- Print the notices that matter to a user. -/
def printNotices (notices : List Notice) : IO Unit := do
  for notice in notices do
    match notice.level with
    | .error => IO.eprintln ("ERROR " ++ notice.text)
    | .warn => IO.eprintln ("WARN " ++ notice.text)
    | .info => IO.eprintln ("INFO " ++ notice.text)
    | .debug => pure ()

/-- Do what the user asks for.  The answer is what to say if it cannot be done. -/
def serve (request : Request) : IO (Except String Unit) := do
  match request with
  | .summary file =>
    match Gzip.imageOf file (← readSource file) with
    | .error _ => pure (.error Gzip.message)
    | .ok image =>
      let out := Summary.lines Bundled.factory file image
      printNotices out.notices
      match out.value with
      | .error fault => pure (.error (Summary.loadMessage file fault))
      | .ok lines =>
        for line in lines do
          IO.println line
        pure (.ok ())
  | .rendering file output options =>
    match Gzip.imageOf file (← readSource file) with
    | .error _ => pure (.error Gzip.message)
    | .ok image =>
      let out := Render.run Bundled.factory image output options
      match out.value with
      | .error failure =>
        printNotices out.notices
        pure (.error failure.message)
      | .ok frames =>
        IO.FS.writeBinFile output (Wave.encode frames)
        printNotices out.notices
        pure (.ok ())

end ChipLog

open ChipLog in
def main (arguments : List String) : IO UInt32 := do
  match Request.parse arguments with
  | .error misuse =>
    IO.eprintln ("error: " ++ misuse.message)
    pure 2
  | .ok request =>
    match ← serve request with
    | .ok () => pure 0
    | .error message =>
      IO.eprintln ("Error: " ++ message)
      pure 1
