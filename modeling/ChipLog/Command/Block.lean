/-
# What is in a data block

The top two bits of a block's type choose between four layouts: sample data for a bank,
packed sample data, part of a ROM, and bytes for a sample memory.  All but the first put a
few numbers in front of the data; a block that is too short for them has no contents.
-/
import ChipLog.Bytes.LittleEndian
import ChipLog.Command.Basic
import ChipLog.Engine

namespace ChipLog

/-! ## 1. Types of blocks -/

/-- The four layouts. -/
inductive BlockCategory
  | stream
  | packed
  | rom
  | ram
  deriving DecidableEq, Repr

/-- The ROM that a block is part of. -/
inductive RomType
  | segaPcm
  | ym2610Pcm
  | ym2610DeltaT
  | ymz280b
  | y8950DeltaT
  | multiPcm
  | unknown (type : UInt8)
  deriving DecidableEq, Repr

namespace RomType

def ofByte : UInt8 → RomType
  | 0x80 => segaPcm
  | 0x82 => ym2610Pcm
  | 0x83 => ym2610DeltaT
  | 0x86 => ymz280b
  | 0x88 => y8950DeltaT
  | 0x89 => multiPcm
  | type => unknown type

/-- The chip and the memory of it that the ROM belongs to. -/
def target? : RomType → Option (ChipKind × RomKind)
  | segaPcm => some (.segaPcm, .pcm)
  | ym2610Pcm => some (.ym2610, .pcm)
  | ym2610DeltaT => some (.ym2610, .deltaT)
  | ymz280b => some (.ymz280b, .pcm)
  | y8950DeltaT => some (.y8950, .deltaT)
  | multiPcm => some (.multiPcm, .pcm)
  | unknown _ => none

end RomType

/-- The sample memory that a block is for. -/
inductive RamType
  | rf5c68
  | unknown (type : UInt8)
  deriving DecidableEq, Repr

namespace RamType

def ofByte : UInt8 → RamType
  | 0xC0 => rf5c68
  | type => unknown type

/-- The chip that the memory belongs to. -/
def target? : RamType → Option ChipKind
  | rf5c68 => some .rf5c68
  | unknown _ => none

end RamType

/-- How the data of a packed block is packed. -/
inductive Packing
  | bitPacking
  | dpcm
  | unknown (type : UInt8)
  deriving DecidableEq, Repr

namespace Packing

def ofByte : UInt8 → Packing
  | 0x00 => bitPacking
  | 0x01 => dpcm
  | type => unknown type

def label : Packing → String
  | bitPacking => "BitPacking"
  | dpcm => "Dpcm"
  | unknown type => "Unknown(" ++ Numeral.decimal 0 type.toNat ++ ")"

end Packing

/-! ## 2. Contents -/

/-- The contents of a data block. -/
inductive BlockContents
  | stream (bank : UInt8) (data : ByteArray)
  | packed (bank : UInt8) (packing : Packing) (size : UInt32)
  | rom (type : RomType) (size offset : UInt32) (data : ByteArray)
  | ram (type : RamType) (offset : UInt16) (data : ByteArray)
  deriving DecidableEq

namespace DataBlock

/-- The low six bits of the type. -/
def id (block : DataBlock) : UInt8 := block.type % 64

/-- The layout that the top two bits of the type choose. -/
def category (block : DataBlock) : BlockCategory :=
  match block.type.toNat / 64 with
  | 0 => .stream
  | 1 => .packed
  | 2 => .rom
  | _ => .ram

/-- What the payload holds.  A fault counts its offsets from the start of the payload. -/
def contents (block : DataBlock) : Except Fault BlockContents :=
  let payload := block.payload
  match block.category with
  | .stream => pure (.stream block.id payload)
  | .packed => do
    let packing ← Bytes.readU8 payload 0
    let size ← Bytes.readU32 payload 1
    pure (.packed block.id (.ofByte packing) size)
  | .rom => do
    let size ← Bytes.readU32 payload 0
    let offset ← Bytes.readU32 payload 4
    let data ← Bytes.slice payload 8 (payload.size - 8)
    pure (.rom (.ofByte block.type) size offset data)
  | .ram => do
    let offset ← Bytes.readU16 payload 0
    let data ← Bytes.slice payload 2 (payload.size - 2)
    pure (.ram (.ofByte block.type) offset data)

end DataBlock

end ChipLog
