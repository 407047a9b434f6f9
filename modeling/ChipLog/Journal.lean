/-
# What a player reports

While it follows a log, a player makes engines, tells them things, and notices oddities that
it steps over.  All of that is an `Event`.  A computation that reports events on its way is a
`Logged` value: its result, and its events in order.

Events name the chip they are about in the terms of whoever reports them: a socket knows only
itself, a pair knows ranks, a board knows sites.  `Logged.relabel` carries events from one to
the next.
-/
import ChipLog.Command.Block
import ChipLog.Header.Version
import ChipLog.Text.Duration

namespace ChipLog

/-! ## 1. Notices -/

/-- How much a notice matters. -/
inductive Level
  | error
  | warn
  | info
  | debug
  deriving DecidableEq, Repr

/-- Something worth telling the user. -/
inductive Notice
  /-- The format version of the log. -/
  | version (version : Version)
  /-- Engines were started for a kind of chip. -/
  | chipDetected (kind : ChipKind) (hz : UInt32) (dual : Bool)
  /-- An engine was refused by a socket that has one. -/
  | alreadyActive
  /-- The interface register that the header has for the SegaPCM. -/
  | segaPcmInterface (register : UInt32)
  /-- The header has a clock for an FM chip of a kind that is not decided yet. -/
  | fmUndecided (hz : UInt32)
  /-- The command that ends the stream stands at this offset. -/
  | endOfStream (offset : Nat)
  /-- A fault ends the session. -/
  | stopping (fault : Fault)
  /-- A write to a chip that no engine can be made for. -/
  | pwmIgnored (register : UInt8) (value : UInt16)
  | ymf278bIgnored (part register value : UInt8)
  | ymf271Ignored (part register value : UInt8)
  /-- Sample data was put into a bank. -/
  | bankGrown (bank : UInt8) (added size : Nat)
  /-- There is no converter byte at this position. -/
  | dacPastEnd (position size : Nat)
  /-- A data block is too short for its type. -/
  | blockMalformed (type : UInt8) (fault : Fault)
  /-- A data block is packed. -/
  | blockPacked (bank : UInt8) (packing : Packing) (size : UInt32)
  /-- Part of a ROM was brought for a chip, whether it has an engine or not. -/
  | romLoaded (kind : ChipKind) (rom : RomKind) (added offset size : Nat)
  /-- Nobody knows which chip a data block is for. -/
  | romUnknown (type : UInt8)
  | ramUnknown (type : UInt8)
  /-- A copy begins at the end of its bank or beyond it. -/
  | copyPastEnd (offset : Nat) (bank : UInt8)
  /-- A copy ends beyond the end of its bank. -/
  | copyClamped (asked given : Nat) (bank : UInt8)
  /-- Nobody knows which chip a copy is for. -/
  | copyUnknown (bank : UInt8)
  /-- There is something else where the tag should be. -/
  | tagIdent (offset : Nat) (found : ByteArray)
  /-- The tag is of a version nobody knows. -/
  | tagVersion (found : UInt32)
  /-- The image cuts the tag short. -/
  | tagUnreadable (fault : Fault)
  /-- The user has muted a chip. -/
  | muted (site : Site)
  /-- The user's limit of seconds is reached. -/
  | timeLimit
  /-- The frames were handed over to be written. -/
  | written (path : String) (frames : Nat)
  deriving DecidableEq

namespace Notice

def level : Notice → Level
  | version v => if v.isNewer then .warn else .info
  | stopping _ => .error
  | chipDetected .. | segaPcmInterface _ | muted _ | timeLimit | written .. => .info
  | blockMalformed .. | blockPacked .. | romUnknown _ | ramUnknown _ | copyClamped ..
  | copyUnknown _ | tagIdent .. | tagVersion _ | tagUnreadable _ => .warn
  | alreadyActive | fmUndecided _ | endOfStream _ | pwmIgnored .. | ymf278bIgnored ..
  | ymf271Ignored .. | bankGrown .. | dacPastEnd .. | romLoaded .. | copyPastEnd .. => .debug

/-- A byte in messages, such as `0x0A`. -/
private def byteText (byte : UInt8) : String := "0x" ++ Numeral.hex 2 byte.toNat

/-- A count in messages. -/
private def countText (n : Nat) : String := Numeral.decimal 0 n

/-- A write to a chip that no engine can be made for; the top bit of the part is the rank. -/
private def ignoredText (chip : String) (part register value : UInt8) : String :=
  chip ++ " #" ++ countText (part / 128).toNat ++ " port " ++ countText (part % 128).toNat
    ++ " reg " ++ byteText register ++ " <- " ++ byteText value ++ " (no " ++ chip ++ " support)"

/-- The wording of a notice. -/
def text : Notice → String
  | version v =>
    if v.isNewer then "VGM version " ++ v.text ++ " is newer than supported, playing anyway"
    else "VGM version " ++ v.text
  | chipDetected kind hz dual =>
    kind.name ++ " detected, clock " ++ countText hz.toNat ++ " Hz"
      ++ (if dual then " (dual)" else "")
  | alreadyActive => "chip already active, ignoring second init"
  | segaPcmInterface register =>
    "SegaPCM interface register 0x" ++ Numeral.hex 8 register.toNat
  | fmUndecided hz =>
    "pre-1.10 FM clock " ++ countText hz.toNat ++ " Hz, chip decided by first FM command"
  | endOfStream offset => "end of stream at " ++ Numeral.address offset
  | stopping fault => "stopping playback: " ++ fault.message
  | pwmIgnored register value =>
    "PWM register " ++ countText register.toNat ++ " <- 0x" ++ Numeral.hex 3 value.toNat
      ++ " (no PWM support)"
  | ymf278bIgnored part register value => ignoredText "YMF278B" part register value
  | ymf271Ignored part register value => ignoredText "YMF271" part register value
  | bankGrown bank added size =>
    "PCM bank " ++ byteText bank ++ ": +" ++ countText added ++ " bytes, now " ++ countText size
  | dacPastEnd position size =>
    "DAC read at " ++ Numeral.address position ++ " past end of PCM bank (" ++ countText size
      ++ " bytes)"
  | blockMalformed type fault =>
    "skipping malformed data block type " ++ byteText type ++ ": " ++ fault.message
  | blockPacked bank packing size =>
    "skipping compressed data block for bank " ++ byteText bank ++ " (" ++ packing.label ++ ", "
      ++ countText size.toNat ++ " bytes unpacked)"
  | romLoaded kind rom added offset size =>
    kind.name ++ " " ++ rom.label ++ " ROM: " ++ countText added ++ " bytes at "
      ++ Numeral.address offset ++ " of " ++ Numeral.address size
  | romUnknown type => "skipping unrecognized ROM type " ++ byteText type
  | ramUnknown type => "skipping unrecognized RAM type " ++ byteText type
  | copyPastEnd offset bank =>
    "PCM RAM copy from " ++ Numeral.address offset ++ " past end of bank " ++ byteText bank
  | copyClamped asked given bank =>
    "PCM RAM copy of " ++ countText asked ++ " bytes clamped to " ++ countText given
      ++ " at end of bank " ++ byteText bank
  | copyUnknown bank => "skipping PCM RAM copy for unrecognized type " ++ byteText bank
  | tagIdent offset found =>
    "GD3 ident mismatch at " ++ Numeral.address offset ++ ": " ++ Numeral.byteRow found
  | tagVersion found => "GD3 version mismatch: 0x" ++ Numeral.hex 8 found.toNat
  | tagUnreadable fault => "GD3 tag unreadable: " ++ fault.message
  | muted site => "muted " ++ site.kind.name ++ " " ++ site.rank.label
  | timeLimit => "reached time limit"
  | written path frames =>
    "wrote " ++ path ++ " (" ++ countText frames ++ " frames, "
      ++ Duration.text (min frames 0xFFFFFFFF) ++ ")"

end Notice

/-! ## 2. Events -/

/-- Something that happened, to a chip named by an `ι` or to nobody in particular. -/
inductive Event (ι : Type)
  | notice (notice : Notice)
  | created (chip : ι)
  | call (chip : ι) (call : EngineCall)
  deriving DecidableEq

namespace Event

variable {ι κ : Type}

/-- Name the chip of an event in other terms. -/
def relabel (f : ι → κ) : Event ι → Event κ
  | notice n => notice n
  | created chip => created (f chip)
  | call chip c => call (f chip) c

/-- The notice of an event, if it is one. -/
def notice? : Event ι → Option Notice
  | notice n => some n
  | _ => none

end Event

/-! ## 3. Logged computations -/

/-- A result, and the events on the way to it. -/
structure Logged (ι α : Type) where
  value : α
  events : List (Event ι)

namespace Logged

variable {ι κ α β : Type}

instance : Monad (Logged ι) where
  pure a := ⟨a, []⟩
  bind x f := ⟨(f x.value).value, x.events ++ (f x.value).events⟩

@[simp] theorem value_pure (a : α) : (pure a : Logged ι α).value = a := rfl

@[simp] theorem events_pure (a : α) : (pure a : Logged ι α).events = [] := rfl

@[simp] theorem value_bind (x : Logged ι α) (f : α → Logged ι β) :
    (x >>= f).value = (f x.value).value := rfl

@[simp] theorem events_bind (x : Logged ι α) (f : α → Logged ι β) :
    (x >>= f).events = x.events ++ (f x.value).events := rfl

/-- Report a notice. -/
def note (n : Notice) : Logged ι Unit := ⟨(), [.notice n]⟩

/-- Report a notice if there is one. -/
def note? : Option Notice → Logged ι Unit
  | some n => note n
  | none => pure ()

/-- Report events that have been collected elsewhere. -/
def report (events : List (Event ι)) : Logged ι Unit := ⟨(), events⟩

/-- Report that the engine of a chip was made. -/
def create (chip : ι) : Logged ι Unit := ⟨(), [.created chip]⟩

/-- Report calls that reached the engine of a chip. -/
def calls (chip : ι) (calls : List EngineCall) : Logged ι Unit := ⟨(), calls.map (.call chip)⟩

/-- Name the chips of all events in other terms. -/
def relabel (f : ι → κ) (x : Logged ι α) : Logged κ α := ⟨x.value, x.events.map (.relabel f)⟩

@[simp] theorem value_relabel (f : ι → κ) (x : Logged ι α) : (x.relabel f).value = x.value := rfl

/-- The notices among the events. -/
def notices (x : Logged ι α) : List Notice := x.events.filterMap Event.notice?

end Logged

end ChipLog
