/-
# What ends a session

A fault is the reason why an image cannot be opened or why its command stream cannot be
followed any further.  There are five, and only two of them (`Fault.isFormat`) say that the
file is not a log of chip commands in the first place.

Oddities that a player can step over, such as a data block of a type nobody knows, are not
faults; they are reported as notices (`ChipLog.Journal`).
-/
import ChipLog.Bytes.Equality
import ChipLog.Text.Numeral

namespace ChipLog

/-! ## 1. Causes -/

/-- The part of the file that a failed read was for, where it has a name of its own. -/
inductive Place
  | dataOffset
  | blockPayload
  | tagIdent
  | tagVersion
  | tagLength
  | tagText
  deriving DecidableEq, Repr

/-- The name of a place in messages. -/
def Place.label : Place → String
  | .dataOffset => "data offset"
  | .blockPayload => "data block payload"
  | .tagIdent => "gd3 ident"
  | .tagVersion => "gd3 version"
  | .tagLength => "gd3 length"
  | .tagText => "gd3 text"

/-- Why an image cannot be opened or followed. -/
inductive Fault
  /-- The image is shorter than the smallest header. -/
  | headerTooShort (size : Nat)
  /-- The image, or a chunk of it, starts with other bytes than it should. -/
  | badIdent (found : ByteArray)
  /-- A read of `needed` bytes at `offset` leaves the `available` bytes of the image. -/
  | outOfRange (offset needed available : Nat) (place : Option Place)
  /-- No command has this opcode, so the length of the command is unknown. -/
  | unknownOpcode (opcode : UInt8) (offset : Nat)
  /-- An earlier fault has already ended the session. -/
  | terminated
  deriving DecidableEq

namespace Fault

/-! ## 2. Reading a fault -/

/-- Whether the fault was raised while the header was being checked. -/
def isFormat : Fault → Bool
  | headerTooShort _ | badIdent _ => true
  | _ => false

/-- Name the place of a failed read; other faults stay as they are. -/
def within (place : Place) : Fault → Fault
  | outOfRange offset needed available _ => outOfRange offset needed available (some place)
  | fault => fault

/-- The wording of a fault. -/
def message : Fault → String
  | headerTooShort size =>
    "header too short: " ++ Numeral.decimal 0 size ++ " bytes (need at least 64)"
  | badIdent found => "invalid ident: " ++ Numeral.byteRow found
  | outOfRange offset needed available place =>
    "offset out of range" ++ (match place with
      | some p => " at " ++ p.label
      | none => "")
      ++ ": " ++ Numeral.address offset ++ " (needed " ++ Numeral.decimal 0 needed
      ++ " bytes, available " ++ Numeral.decimal 0 available ++ ")"
  | unknownOpcode opcode offset =>
    "unknown opcode 0x" ++ Numeral.hex 2 opcode.toNat ++ " at offset " ++ Numeral.address offset
  | terminated => "session terminated by an earlier fatal error"

end Fault

end ChipLog
