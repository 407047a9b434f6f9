/-
# Engines

An engine is what makes the sound of one chip.  A player knows it only through the few
operations of `ChipEngine`: it is started with a clock, told things over its bus and
through its memories, clocked once for each of its own samples, and asked for the last one.

What a player tells an engine, apart from clocking it, is a list of `EngineCall`s, so that
"which calls did this command make" is a value one can compare.
-/
import ChipLog.Bytes.Equality
import ChipLog.Chip.Site
import ChipLog.Sample

namespace ChipLog

/-! ## 1. Operations -/

/-- Which of its sample memories a ROM image is for. -/
inductive RomKind
  | pcm
  | deltaT
  deriving DecidableEq, Repr

def RomKind.label : RomKind → String
  | .pcm => "Pcm"
  | .deltaT => "DeltaT"

/-- What a player needs from the states of an engine. -/
class ChipEngine (σ : Type) where
  /-- Samples per second when the master clock runs at `hz`. -/
  sampleRate (engine : σ) (hz : UInt32) : UInt32
  /-- Reset for a master clock. -/
  start (hz : UInt32) (engine : σ) : σ
  /-- Take a word of settings from the header. -/
  configure (_flags : UInt32) (engine : σ) : σ := engine
  /-- Take a byte at an address of the bus. -/
  writeBus (address data : UInt8) (engine : σ) : σ
  /-- Go on by one sample. -/
  clock (engine : σ) : σ
  /-- The sample of the last clock. -/
  sample (engine : σ) : RawFrame
  /-- Take part of a ROM image of `size` bytes, to be placed at `offset`. -/
  writeRom (_kind : RomKind) (_size _offset : Nat) (_data : ByteArray) (engine : σ) : σ := engine
  /-- Take bytes for the sample memory, to be placed at `offset`. -/
  writeRam (_offset : Nat) (_data : ByteArray) (engine : σ) : σ := engine

/-- Makes the engine of a chip when the chip is switched on. -/
abbrev Factory (σ : Type) : Type := Site → σ

/-! ## 2. Calls -/

/-- One thing an engine is told. -/
inductive EngineCall
  | start (hz : UInt32)
  | configure (flags : UInt32)
  | bus (address data : UInt8)
  | rom (kind : RomKind) (size offset : Nat) (data : ByteArray)
  | ram (offset : Nat) (data : ByteArray)
  deriving DecidableEq

namespace EngineCall

variable {σ : Type} [ChipEngine σ]

/-- Carry out a call. -/
def apply : EngineCall → σ → σ
  | start hz => ChipEngine.start hz
  | configure flags => ChipEngine.configure flags
  | bus address data => ChipEngine.writeBus address data
  | rom kind size offset data => ChipEngine.writeRom kind size offset data
  | ram offset data => ChipEngine.writeRam offset data

/-- Carry out calls one after the other. -/
def applyAll (calls : List EngineCall) (engine : σ) : σ :=
  calls.foldl (fun engine call => call.apply engine) engine

@[simp] theorem applyAll_nil (engine : σ) : applyAll [] engine = engine := rfl

@[simp] theorem applyAll_cons (call : EngineCall) (calls : List EngineCall) (engine : σ) :
    applyAll (call :: calls) engine = applyAll calls (call.apply engine) := rfl

/-! ## 3. Ways of writing

Most chips take the number of a register at an even bus address and its value at the odd one
above it.  The sample players use their bus in ways of their own. -/

/-- Write a register at one of the pairs of bus addresses. -/
def register (pair register value : UInt8) : List EngineCall :=
  [bus (pair * 2) register, bus (pair * 2 ||| 1) value]

/-- Write a byte of a chip's memory: the address, high part first, then the byte. -/
def memory (address : UInt16) (data : UInt8) : List EngineCall :=
  [bus 0 (address / 256).toUInt8, bus 1 address.toUInt8, bus 2 data]

/-- Write a register whose number goes to an address of its own. -/
def indexed (register value : UInt8) : List EngineCall := [bus 3 register, bus 4 value]

/-- Set the memory bank of a channel: the channel, then the bank, high part first. -/
def bank (channel : UInt8) (offset : UInt16) : List EngineCall :=
  [bus 3 channel, bus 4 (offset / 256).toUInt8, bus 5 offset.toUInt8]

end EngineCall

/-! ## 4. Silence -/

/-- An engine that takes every call and stays silent at the pace of its chip. -/
structure SilentChip where
  divider : UInt32
  deriving DecidableEq, Repr

def SilentChip.ofKind (kind : ChipKind) : SilentChip := ⟨kind.divider⟩

instance : ChipEngine SilentChip where
  sampleRate engine hz := hz / max engine.divider 1
  start _ engine := engine
  writeBus _ _ engine := engine
  clock engine := engine
  sample _ := .silence

end ChipLog
