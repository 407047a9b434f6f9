/-
# The header of a log

A log begins with a header of at least 64 bytes: the ident, the version, the clocks of its
chips, and pointers to the command stream, the loop point and the tag.

A clock field counts only in files of the version that introduced it, or later.  Fields from
version 1.51 on must moreover end before the command stream begins: short headers are common,
and what follows a header are commands, not clocks.  Before version 1.10 one field serves
three kinds of FM chip, and the first FM command decides which it is.
-/
import ChipLog.Bytes.LittleEndian
import ChipLog.Chip.PerKind
import ChipLog.Chip.Site
import ChipLog.Header.Version

namespace ChipLog

/-! ## 1. Layout -/

/-- A field of the header that is not a clock. -/
inductive HeaderField
  | ident
  | eofOffset
  | version
  | tagOffset
  | totalSamples
  | loopOffset
  | loopSamples
  | rate
  | psgFeedback
  | psgWidth
  | dataOffset
  | segaPcmInterface
  deriving DecidableEq, Repr

namespace HeaderField

/-- All fields, in the order of the file. -/
def all : List HeaderField :=
  [ident, eofOffset, version, tagOffset, totalSamples, loopOffset, loopSamples, rate,
    psgFeedback, psgWidth, dataOffset, segaPcmInterface]

/-- Where the field stands. -/
def offset : HeaderField → Nat
  | ident => 0x00
  | eofOffset => 0x04
  | version => 0x08
  | tagOffset => 0x14
  | totalSamples => 0x18
  | loopOffset => 0x1C
  | loopSamples => 0x20
  | rate => 0x24
  | psgFeedback => 0x28
  | psgWidth => 0x2A
  | dataOffset => 0x34
  | segaPcmInterface => 0x3C

end HeaderField

/-- What the header says. -/
structure Header where
  version : Version
  eofOffset : UInt32
  totalSamples : UInt32
  loopSamples : UInt32
  rate : UInt32
  /-- Where the command stream begins. -/
  dataStart : Nat
  loopOffset : Option Nat
  tagOffset : Option Nat
  clocks : PerKind ClockField
  /-- The clock of an FM chip yet to be decided; zero if there is none. -/
  fmClock : ClockField
  /-- Taps and width of the noise register of the SN76489. -/
  psgFlags : UInt32
  segaPcmInterface : UInt32
  deriving DecidableEq

namespace Header

/-- The ident of a log. -/
def ident : ByteArray := "Vgm ".toUTF8

/-- The smallest size of a header. -/
def minSize : Nat := 0x40

/-- Where the command stream begins unless the header says otherwise. -/
def defaultDataStart : Nat := 0x40

/-- The settings of a noise register with the usual taps and sixteen bits. -/
def defaultPsgFlags : UInt32 := 0x00091000

/-- The clock field of a kind. -/
def clock (header : Header) (kind : ChipKind) : ClockField := header.clocks.get kind

/-- The kinds that are declared, with their clock fields. -/
def declared (header : Header) : List (ChipKind × ClockField) :=
  (ChipKind.all.map fun kind => (kind, header.clock kind)).filter (·.2.declared)

/-- Whether the kind of the FM chip is yet to be decided. -/
def awaitsFm (header : Header) : Bool := header.fmClock.declared

/-! ## 2. Reading -/

/-- A pointer counts from where it stands, and zero points nowhere. -/
def readPointer (bytes : ByteArray) (field : HeaderField) : Except Fault (Option Nat) := do
  let distance ← Bytes.readU32 bytes field.offset
  pure (if distance == 0 then none else some (field.offset + distance.toNat))

/-- Where the command stream begins; the pointer to it came with version 1.50. -/
def readDataStart (bytes : ByteArray) (version : Version) : Except Fault Nat :=
  if version.atLeast 1 50 then do
    let start ← (readPointer bytes .dataOffset).mapError (Fault.within .dataOffset)
    pure (start.getD defaultDataStart)
  else pure defaultDataStart

/-- Whether a field of a tier counts. -/
def counts (version : Version) (dataStart : Nat) (tier : ClockTier) (offset : Nat) : Bool :=
  version.atLeast tier.minVersion.1 tier.minVersion.2
    && (!tier.needsHeaderSpace || offset + 4 ≤ dataStart)

/-- A word that reads as zero when it does not count or is not in the file. -/
def readTiered (bytes : ByteArray) (version : Version) (dataStart : Nat) (tier : ClockTier)
    (offset : Nat) : UInt32 :=
  if counts version dataStart tier offset then
    match Bytes.readU32 bytes offset with
    | .ok word => word
    | .error _ => 0
  else 0

/-- The clock fields of all kinds. -/
def readClocks (bytes : ByteArray) (version : Version) (dataStart : Nat) : PerKind ClockField :=
  PerKind.ofFn fun kind => ⟨readTiered bytes version dataStart kind.tier kind.clockOffset⟩

/-- Before version 1.10 the field of the YM2413 is for an FM chip yet to be decided. -/
def readFmClock (bytes : ByteArray) (version : Version) : Except Fault ClockField :=
  if version.atLeast 1 10 then pure ⟨0⟩
  else ClockField.mk <$> Bytes.readU32 bytes ChipKind.ym2413.clockOffset

/-- Taps and width of the noise register, which the header has from version 1.10 on. -/
def readPsgFlags (bytes : ByteArray) (version : Version) : Except Fault UInt32 :=
  if version.atLeast 1 10 then do
    let taps ← Bytes.readU16 bytes HeaderField.psgFeedback.offset
    let width ← Bytes.readU8 bytes HeaderField.psgWidth.offset
    pure (taps.toUInt32 * 0x10000 + width.toUInt32 * 0x100)
  else pure defaultPsgFlags

/-- Refuse an image that is no log. -/
def check (bytes : ByteArray) : Except Fault Unit :=
  if bytes.size < minSize then .error (.headerTooShort bytes.size)
  else do
    let found ← Bytes.slice bytes HeaderField.ident.offset 4
    if found = ident then pure () else .error (.badIdent found)

/-- Read the header of an image. -/
def parse (bytes : ByteArray) : Except Fault Header := do
  check bytes
  let version := Version.ofWord (← Bytes.readU32 bytes HeaderField.version.offset)
  let dataStart ← readDataStart bytes version
  pure {
    version := version
    eofOffset := ← Bytes.readU32 bytes HeaderField.eofOffset.offset
    totalSamples := ← Bytes.readU32 bytes HeaderField.totalSamples.offset
    loopSamples := ← Bytes.readU32 bytes HeaderField.loopSamples.offset
    rate := ← Bytes.readU32 bytes HeaderField.rate.offset
    dataStart := dataStart
    loopOffset := ← readPointer bytes .loopOffset
    tagOffset := ← readPointer bytes .tagOffset
    clocks := readClocks bytes version dataStart
    fmClock := ← readFmClock bytes version
    psgFlags := ← readPsgFlags bytes version
    segaPcmInterface :=
      readTiered bytes version dataStart .v151 HeaderField.segaPcmInterface.offset }

end Header

end ChipLog
