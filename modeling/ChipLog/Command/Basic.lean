/-
# Commands

A log is a stream of commands: writes to chips, waits between them, blocks of sample data,
and a last command that ends the stream.  This module says what the commands are and how long
each one waits.
-/
import ChipLog.Bytes.Equality
import ChipLog.Chip.Site

namespace ChipLog

/-! ## 1. Commands with data -/

/-- A block of data; the type says what the data is for. -/
structure DataBlock where
  type : UInt8
  rank : Rank
  payload : ByteArray
  /-- The size that the stream gives for the payload, without the bit for the rank. -/
  size : UInt32 := payload.size.toUInt32
  deriving DecidableEq

/-- A copy from a bank of sample data into the memory of a chip. -/
structure RamCopy where
  bank : UInt8
  readOffset : UInt32
  writeOffset : UInt32
  length : UInt32
  deriving DecidableEq, Repr

/-- The length that a copy of no bytes stands for. -/
def RamCopy.maxLength : UInt32 := 0x1000000

/-! ## 2. Commands -/

/-- A command of the stream. -/
inductive Command
  /-- A byte for the SN76489. -/
  | psgWrite (rank : Rank) (value : UInt8)
  /-- The stereo mask of the SN76489. -/
  | psgStereo (rank : Rank) (value : UInt8)
  /-- A register of a chip whose bus has pairs of addresses for registers and values. -/
  | registerWrite (kind : ChipKind) (rank : Rank) (pair register value : UInt8)
  /-- A wait of any length up to 65535 frames. -/
  | wait (frames : UInt16)
  /-- A sixtieth of a second. -/
  | waitSixtieth
  /-- A fiftieth of a second. -/
  | waitFiftieth
  /-- A wait of `n + 1` frames. -/
  | waitShort (n : UInt8)
  | endOfData
  | dataBlock (block : DataBlock)
  | ramCopy (copy : RamCopy)
  /-- The next byte of sample bank 0 to the converter of the YM2612, and a wait. -/
  | dacWrite (frames : UInt8)
  | rf5c68Register (register value : UInt8)
  | pwmWrite (register : UInt8) (value : UInt16)
  | multiPcmWrite (rank : Rank) (register value : UInt8)
  | segaPcmMemory (rank : Rank) (address : UInt16) (value : UInt8)
  | rf5c68Memory (address : UInt16) (value : UInt8)
  | multiPcmBank (rank : Rank) (channel : UInt8) (offset : UInt16)
  | ymf278bWrite (part register value : UInt8)
  | ymf271Write (part register value : UInt8)
  /-- Where in sample bank 0 the next converter write reads. -/
  | dacSeek (position : UInt32)
  deriving DecidableEq

namespace Command

/-- The frames that a command waits, if it is one that waits at all. -/
def wait? : Command → Option Nat
  | wait frames => some frames.toNat
  | waitSixtieth => some 735
  | waitFiftieth => some 882
  | waitShort n => some (n.toNat + 1)
  | dacWrite frames => some frames.toNat
  | _ => none

/-- The frames to be played before the next command. -/
def duration (command : Command) : Nat := command.wait?.getD 0

end Command

end ChipLog
