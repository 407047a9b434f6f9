/-
# What commands act on

A deck is the part of a player that commands change: the board with its engines, the banks of
sample data, the place in bank 0 where the next converter byte is read, and the clock of an
FM chip whose kind is not decided yet.

Where the player stands in the command stream is not part of it.  So no command can move the
player, end the stream or stop the session, whatever data it brings.
-/
import ChipLog.Board.Basic
import ChipLog.Header.Basic
import ChipLog.Playback.Banks

namespace ChipLog

/-- The part of a player that commands change. -/
structure Deck (σ : Type) where
  board : Board σ
  banks : Banks := .empty
  /-- The clock of an FM chip, until the first FM command decides its kind. -/
  pendingFm : Option ClockField := none
  /-- Where in bank 0 the next converter byte is read. -/
  dacPosition : Nat := 0
  deriving DecidableEq

namespace Deck

variable {σ : Type} [ChipEngine σ]

/-! ## 1. Starting up -/

/-- Start the engines that a header declares. -/
def activateAll (engines : Factory σ) :
    List (ChipKind × ClockField) → Board σ → Logged Site (Board σ)
  | [], board => pure board
  | (kind, field) :: rest, board => do
    let (_, board) ← board.activate engines kind field
    activateAll engines rest board

/-- Give the settings of the header to both noise generators. -/
def configurePsg (header : Header) (board : Board σ) : Logged Site (Board σ) :=
  if board.isActive .sn76489 then do
    let board ← board.send ⟨.sn76489, .primary⟩ [.configure header.psgFlags]
    board.send ⟨.sn76489, .secondary⟩ [.configure header.psgFlags]
  else pure board

/-- Give the interface register of the header to the primary sample player. -/
def configureSegaPcm (header : Header) (board : Board σ) : Logged Site (Board σ) :=
  if board.isActive .segaPcm then do
    Logged.note (.segaPcmInterface header.segaPcmInterface)
    board.send ⟨.segaPcm, .primary⟩ [.configure header.segaPcmInterface]
  else pure board

/-- The deck with which a log begins. -/
def ofHeader (engines : Factory σ) (header : Header) : Logged Site (Deck σ) := do
  let board ← activateAll engines header.declared .empty
  let board ← configurePsg header board
  let board ← configureSegaPcm header board
  if header.awaitsFm then
    Logged.note (.fmUndecided header.fmClock.hz)
    pure { board, pendingFm := some header.fmClock }
  else pure { board }

/-! ## 2. Parts of commands -/

/-- Tell the engine of a site something, if there is one. -/
def send (site : Site) (calls : List EngineCall) (deck : Deck σ) : Logged Site (Deck σ) := do
  let board ← deck.board.send site calls
  pure { deck with board }

/-- Whether a chip is one of those that an undecided FM clock can be for. -/
def takesFmClock : ChipKind → Bool
  | .ym2413 | .ym2612 | .ym2151 => true
  | _ => false

/-- A command for a chip decides the kind of the FM chip, if that is still open and the chip
is of such a kind. -/
def decideFm (engines : Factory σ) (kind : ChipKind) (deck : Deck σ) : Logged Site (Deck σ) :=
  match deck.pendingFm with
  | some field =>
    if takesFmClock kind then do
      let (_, board) ← deck.board.activate engines kind field
      pure { deck with board, pendingFm := none }
    else pure deck
  | none => pure deck

/-- The register of the YM2612 that takes bytes for its converter. -/
def dacRegister : UInt8 := 0x2A

/-- The bank that converter bytes are read from. -/
def dacBank : UInt8 := 0

/-- The bank that is copied to the memory of the RF5C68. -/
def rf5c68Bank : UInt8 := 1

/-- Give the next converter byte to the YM2612.  Without that chip, or beyond the end of the
bank, nothing is read and the place of the next read stays. -/
def writeDac (engines : Factory σ) (deck : Deck σ) : Logged Site (Deck σ) := do
  let deck ← deck.decideFm engines .ym2612
  if deck.board.isActive .ym2612 then
    match deck.banks.byteAt? dacBank deck.dacPosition with
    | some byte =>
      let deck ← deck.send ⟨.ym2612, .primary⟩ (EngineCall.register 0 dacRegister byte)
      pure { deck with dacPosition := deck.dacPosition + 1 }
    | none =>
      Logged.note (.dacPastEnd deck.dacPosition (deck.banks.bank dacBank).size)
      pure deck
  else pure deck

/-- Put the contents of a data block where they belong. -/
def loadContents (block : DataBlock) (contents : BlockContents) (deck : Deck σ) :
    Logged Site (Deck σ) :=
  match contents with
  | .stream bank data => do
    let banks ← deck.banks.load bank data
    pure { deck with banks }
  | .packed bank packing size => do
    Logged.note (.blockPacked bank packing size)
    pure deck
  | .rom type size offset data =>
    match type.target? with
    | some (kind, rom) => do
      Logged.note (.romLoaded kind rom data.size offset.toNat size.toNat)
      deck.send ⟨kind, block.rank⟩ [.rom rom size.toNat offset.toNat data]
    | none => do
      Logged.note (.romUnknown block.type)
      pure deck
  | .ram type offset data =>
    match type.target? with
    | some kind => deck.send ⟨kind, block.rank⟩ [.ram offset.toNat data]
    | none => do
      Logged.note (.ramUnknown block.type)
      pure deck

/-- Take a data block.  One without contents is passed over. -/
def loadBlock (block : DataBlock) (deck : Deck σ) : Logged Site (Deck σ) :=
  match block.contents with
  | .ok contents => deck.loadContents block contents
  | .error fault => do
    Logged.note (.blockMalformed block.type fault)
    pure deck

/-- Copy part of a bank into the memory of a chip. -/
def copyRam (copy : RamCopy) (deck : Deck σ) : Logged Site (Deck σ) :=
  match deck.banks.range? copy.bank copy.readOffset.toNat copy.length.toNat with
  | none => do
    Logged.note (.copyPastEnd copy.readOffset.toNat copy.bank)
    pure deck
  | some (data, clamped) => do
    if clamped then
      Logged.note (.copyClamped copy.length.toNat data.size copy.bank)
    if copy.bank = rf5c68Bank then
      deck.send ⟨.rf5c68, .primary⟩ [.ram copy.writeOffset.toNat data]
    else do
      Logged.note (.copyUnknown copy.bank)
      pure deck

/-! ## 3. Commands -/

/-- Carry out a command. -/
def execute (engines : Factory σ) (command : Command) (deck : Deck σ) : Logged Site (Deck σ) :=
  match command with
  | .psgWrite rank value => deck.send ⟨.sn76489, rank⟩ [.bus 0 value]
  | .psgStereo rank value => deck.send ⟨.sn76489, rank⟩ [.bus 1 value]
  | .registerWrite kind rank pair register value => do
    let deck ← if rank = .primary then deck.decideFm engines kind else pure deck
    deck.send ⟨kind, rank⟩ (EngineCall.register pair register value)
  | .dataBlock block => deck.loadBlock block
  | .ramCopy copy => deck.copyRam copy
  | .dacWrite _ => deck.writeDac engines
  | .dacSeek position => pure { deck with dacPosition := position.toNat }
  | .rf5c68Register register value =>
    deck.send ⟨.rf5c68, .primary⟩ (EngineCall.indexed register value)
  | .rf5c68Memory address value =>
    deck.send ⟨.rf5c68, .primary⟩ (EngineCall.memory address value)
  | .multiPcmWrite rank register value => deck.send ⟨.multiPcm, rank⟩ [.bus register value]
  | .multiPcmBank rank channel offset =>
    deck.send ⟨.multiPcm, rank⟩ (EngineCall.bank channel offset)
  | .segaPcmMemory rank address value =>
    deck.send ⟨.segaPcm, rank⟩ (EngineCall.memory address value)
  | .pwmWrite register value => do
    Logged.note (.pwmIgnored register value)
    pure deck
  | .ymf278bWrite part register value => do
    Logged.note (.ymf278bIgnored part register value)
    pure deck
  | .ymf271Write part register value => do
    Logged.note (.ymf271Ignored part register value)
    pure deck
  | .wait _ | .waitSixtieth | .waitFiftieth | .waitShort _ | .endOfData => pure deck

/-! ## 4. Time -/

/-- Let the engines make `count` frames, put behind the `frames` so far. -/
def render (frames : Array StereoFrame) (count : Nat) (deck : Deck σ) :
    Array StereoFrame × Deck σ :=
  let (frames, board) := deck.board.render frames count
  (frames, { deck with board })

end Deck

end ChipLog
