/-
# What blocks and copies deliver

Two commands bring more than a few bytes: a data block has its data in it, and a copy takes its data
from a bank.  Either may come to nothing.  A block may be of a type nobody knows, it may be too short
for the numbers that should stand in front of its data, or its chip may not be there.  A copy may begin
behind the end of its bank, or be cut short by it.  None of this is a fault, and the player has to step
over all of it by exactly as many bytes as the command has.

Main statements, for a session that goes on with its command stream, and any row of bytes of the form
that such a command has:

* `Session.block_has_its_own_effect`: a data block is stepped over as a whole.  It puts its payload into
  its bank, or makes one call to one chip, or does nothing.
* `Session.copy_takes_what_is_there`: a copy is stepped over.  It makes one call to the RF5C68 with the
  part of its range that is in bank 1, or does nothing.

What a block or a copy has to say is known already as its order (`DataBlock.order?`, `RamCopy.order?`).
Here the order is computed from the bytes of the row (`DataBlock.order?_of_rom`, `RamCopy.order?_eq`).
-/
import ChipLog.Proofs.Header.Acceptance
import ChipLog.Proofs.Session.Commuting
import ChipLog.Proofs.Session.SampleData

namespace ChipLog

/-! ## 1. Blocks for chips -/

/-- The rest of an image can be read from any place in it. -/
theorem Bytes.slice_rest {bytes : ByteArray} {off : Nat} (h : off ≤ bytes.size) :
    slice bytes off (bytes.size - off) = .ok (bytes.extract off bytes.size) := by
  rw [slice_eq_ok_iff, Nat.add_sub_cancel' h]
  exact ⟨Nat.le_refl _, rfl⟩

/-- The types of blocks that are part of a ROM, with the chip and the memory that they are for. -/
def romTypes : List (UInt8 × ChipKind × RomKind) :=
  [(0x80, .segaPcm, .pcm), (0x82, .ym2610, .pcm), (0x83, .ym2610, .deltaT), (0x86, .ymz280b, .pcm),
    (0x88, .y8950, .deltaT), (0x89, .multiPcm, .pcm)]

/-- The type of blocks for the memory of an RF5C68. -/
def ramType : UInt8 := 0xC0

theorem mem_romTypes_iff {type : UInt8} {kind : ChipKind} {rom : RomKind} :
    (type, kind, rom) ∈ romTypes ↔ (RomType.ofByte type).target? = some (kind, rom) := by
  unfold RomType.ofByte
  split <;> simp_all [romTypes, RomType.target?, eq_comm]

theorem target?_ramType {type : UInt8} {kind : ChipKind} :
    (RamType.ofByte type).target? = some kind ↔ type = ramType ∧ kind = .rf5c68 := by
  unfold RamType.ofByte
  split <;> simp_all [ramType, RamType.target?, eq_comm]

namespace DataBlock

variable {block : DataBlock} {kind : ChipKind} {rom : RomKind}

theorem category_of_mem_romTypes (h : (block.type, kind, rom) ∈ romTypes) :
    block.category = .rom := by
  have hall : ∀ entry ∈ romTypes, entry.1.toNat / 64 = 2 := by decide
  have htype : block.type.toNat / 64 = 2 := hall _ h
  rw [category, htype]
  rfl

theorem category_of_ramType (h : block.type = ramType) : block.category = .ram := by
  rw [category, h]
  rfl

/-- Only blocks of sample data bring something for a bank. -/
theorem stock_of_ne_stream (block : DataBlock) (hcategory : block.category ≠ .stream)
    (banks : Banks) : block.stock banks = banks :=
  (block.stock_eq banks).trans (if_neg (mt block.category_eq_stream_iff.mpr hcategory))

/-- What a block that is part of a ROM tells its chip. -/
def romCall (rom : RomKind) (payload : ByteArray) : EngineCall :=
  .rom rom (Bytes.number payload 0 4) (Bytes.number payload 4 4) (payload.extract 8 payload.size)

/-- What a block for a sample memory tells its chip. -/
def ramCall (payload : ByteArray) : EngineCall :=
  .ram (Bytes.number payload 0 2) (payload.extract 2 payload.size)

/-- A block of sample data for a bank, or of packed data, is for no chip. -/
theorem order?_eq_none (hrom : block.category ≠ .rom) (hram : block.category ≠ .ram) :
    block.order? = none := by
  rw [order?]
  cases hcontents : block.contents with
  | error fault => rfl
  | ok contents =>
    rw [category_of_contents hcontents] at hrom hram
    cases contents with
    | stream bank data => rfl
    | packed bank packing size => rfl
    | rom type size offset data => exact absurd rfl hrom
    | ram type offset data => exact absurd rfl hram

/-- A block that is part of a ROM has contents exactly if it is long enough for its two numbers. -/
theorem contents_of_rom (hcategory : block.category = .rom) (hsize : 8 ≤ block.payload.size) :
    block.contents =
      .ok (.rom (.ofByte block.type) (Bytes.word block.payload 0) (Bytes.word block.payload 4)
        (block.payload.extract 8 block.payload.size)) := by
  rw [contents, hcategory]
  dsimp only
  rw [Bytes.readU32_eq_word (by omega), Bytes.readU32_eq_word (by omega), Bytes.slice_rest hsize]
  rfl

theorem size_of_rom (hcategory : block.category = .rom) {contents : BlockContents}
    (h : block.contents = .ok contents) : 8 ≤ block.payload.size := by
  rw [DataBlock.contents, hcategory] at h
  obtain ⟨size, -, h⟩ := Fault.eq_ok_of_bind h
  obtain ⟨offset, -, h⟩ := Fault.eq_ok_of_bind h
  obtain ⟨data, hdata, -⟩ := Fault.eq_ok_of_bind h
  have hfits := (Bytes.slice_eq_ok_iff.mp hdata).1
  omega

/-- A block for a sample memory has contents exactly if it is long enough for its number. -/
theorem contents_of_ram (hcategory : block.category = .ram) (hsize : 2 ≤ block.payload.size) :
    block.contents =
      .ok (.ram (.ofByte block.type) (UInt16.ofNat (Bytes.number block.payload 0 2))
        (block.payload.extract 2 block.payload.size)) := by
  have hoffset : Bytes.readU16 block.payload 0 =
      .ok (UInt16.ofNat (Bytes.number block.payload 0 2)) := by
    rw [Bytes.readU16, Bytes.readNumber_eq_ok_iff.mpr ⟨hsize, rfl⟩]
    rfl
  rw [contents, hcategory]
  dsimp only
  rw [hoffset, Bytes.slice_rest hsize]
  rfl

theorem size_of_ram (hcategory : block.category = .ram) {contents : BlockContents}
    (h : block.contents = .ok contents) : 2 ≤ block.payload.size := by
  rw [DataBlock.contents, hcategory] at h
  obtain ⟨offset, -, h⟩ := Fault.eq_ok_of_bind h
  obtain ⟨data, hdata, -⟩ := Fault.eq_ok_of_bind h
  have hfits := (Bytes.slice_eq_ok_iff.mp hdata).1
  omega

/-- A block whose contents are there exactly if it is long enough has something to say only then. -/
theorem order?_of_size {contents : BlockContents} {size : Nat}
    (hlong : size ≤ block.payload.size → block.contents = .ok contents)
    (hshort : ∀ {contents}, block.contents = .ok contents → size ≤ block.payload.size) :
    block.order? =
      if size ≤ block.payload.size then contents.order? block.rank else none := by
  rw [order?]
  by_cases hsize : size ≤ block.payload.size
  · rw [hlong hsize, if_pos hsize]
    rfl
  · rw [if_neg hsize]
    cases hcontents : block.contents with
    | error fault => rfl
    | ok contents => exact absurd (hshort hcontents) hsize

theorem order?_of_rom (hcategory : block.category = .rom) :
    block.order? =
      if 8 ≤ block.payload.size then
        (RomType.ofByte block.type).target?.map fun target =>
          (⟨target.1, block.rank⟩, [romCall target.2 block.payload])
      else none := by
  rw [order?_of_size (contents_of_rom hcategory) (size_of_rom hcategory)]
  simp only [BlockContents.order?, Bytes.toNat_word, romCall]

theorem order?_of_ram (hcategory : block.category = .ram) :
    block.order? =
      if 2 ≤ block.payload.size then
        (RamType.ofByte block.type).target?.map fun kind =>
          (⟨kind, block.rank⟩, [ramCall block.payload])
      else none := by
  have hlow : Bytes.number block.payload 0 2 < 2 ^ 16 := Bytes.number_lt block.payload 0 2
  rw [order?_of_size (contents_of_ram hcategory) (size_of_ram hcategory)]
  simp only [BlockContents.order?, ramCall, UInt16.toNat_ofNat_of_lt' hlow]

/-- A block that is part of a ROM is for its chip, if it is long enough. -/
theorem order?_of_mem_romTypes (h : (block.type, kind, rom) ∈ romTypes)
    (hlong : 8 ≤ block.payload.size) :
    block.order? = some (⟨kind, block.rank⟩, [romCall rom block.payload]) := by
  rw [order?_of_rom (category_of_mem_romTypes h), if_pos hlong, mem_romTypes_iff.mp h]
  rfl

/-- A block for the memory of an RF5C68 is for that chip, if it is long enough. -/
theorem order?_of_ramType (h : block.type = ramType) (hlong : 2 ≤ block.payload.size) :
    block.order? = some (⟨.rf5c68, block.rank⟩, [ramCall block.payload]) := by
  rw [order?_of_ram (category_of_ramType h), if_pos hlong, target?_ramType.mpr ⟨h, rfl⟩]
  rfl

/-- Whoever a block is for, it is of a type that is known, and long enough. -/
theorem order?_cases {site : Site} {calls : List EngineCall}
    (h : block.order? = some (site, calls)) :
    (∃ kind rom, (block.type, kind, rom) ∈ romTypes ∧ 8 ≤ block.payload.size ∧
      site = ⟨kind, block.rank⟩) ∨
    (block.type = ramType ∧ 2 ≤ block.payload.size ∧ site = ⟨.rf5c68, block.rank⟩) := by
  by_cases hrom : block.category = .rom
  · rw [order?_of_rom hrom] at h
    split at h
    case isFalse => cases h
    case isTrue hsize =>
      obtain ⟨target, htarget, hsame⟩ := Option.map_eq_some_iff.mp h
      cases hsame
      exact .inl ⟨target.1, target.2, mem_romTypes_iff.mpr htarget, hsize, rfl⟩
  · by_cases hram : block.category = .ram
    · rw [order?_of_ram hram] at h
      split at h
      case isFalse => cases h
      case isTrue hsize =>
        obtain ⟨kind, hkind, hsame⟩ := Option.map_eq_some_iff.mp h
        obtain ⟨htype, rfl⟩ := target?_ramType.mp hkind
        cases hsame
        exact .inr ⟨htype, hsize, rfl⟩
    · rw [order?_eq_none hrom hram] at h
      cases h

end DataBlock

/-! ## 2. Copies -/

/-- A number of three bytes, in a word. -/
theorem Bytes.toNat_ofNat_of_lt {n : Nat} (h : n < 2 ^ 24) : (UInt32.ofNat n).toNat = n :=
  UInt32.toNat_ofNat_of_lt' (Nat.lt_trans h (by decide))

/-- The length that the length field of a copy stands for, which is never zero. -/
theorem Command.toNat_copyLength {field : Nat} (h : field < 2 ^ 24) :
    (copyLength (UInt32.ofNat field)).toNat = if field = 0 then 2 ^ 24 else field := by
  by_cases hzero : field = 0
  · subst hzero
    rfl
  · have hfield := Bytes.toNat_ofNat_of_lt h
    have hne : ¬ (UInt32.ofNat field == 0) = true := fun hsame => hzero <| by
      rw [← hfield, eq_of_beq hsame]
      rfl
    rw [copyLength, if_neg hne, if_neg hzero, hfield]

/-- **A copy is read where its row stands.** -/
theorem Command.parse_ramCopy {image : ByteArray} {pos read write field : Nat}
    {reserved type : UInt8} (hread : read < 2 ^ 24) (hwrite : write < 2 ^ 24)
    (hfield : field < 2 ^ 24)
    (h : Bytes.StandsAt image pos ([0x68, reserved, type].toByteArray ++
      (Bytes.numeral 3 read ++ (Bytes.numeral 3 write ++ Bytes.numeral 3 field)))) :
    parse image pos =
      .ok (.ramCopy ⟨type % 64, UInt32.ofNat read, UInt32.ofNat write,
        copyLength (UInt32.ofNat field)⟩, 12) := by
  have hread' := Bytes.toNat_ofNat_of_lt hread
  have hwrite' := Bytes.toNat_ofNat_of_lt hwrite
  have hfield' := Bytes.toNat_ofNat_of_lt hfield
  obtain ⟨hformed, -, slack, hrow⟩ := spelt_ramCopy
    ⟨reserved, type, UInt32.ofNat read, UInt32.ofNat write, UInt32.ofNat field,
      ⟨hread'.symm ▸ hread, hwrite'.symm ▸ hwrite, hfield'.symm ▸ hfield⟩, rfl, rfl⟩
  rw [hread', hwrite', hfield'] at hrow
  have hencoded : [0x68, reserved, type].toByteArray ++
      (Bytes.numeral 3 read ++ (Bytes.numeral 3 write ++ Bytes.numeral 3 field)) =
        (ramCopy ⟨type % 64, UInt32.ofNat read, UInt32.ofNat write,
          copyLength (UInt32.ofNat field)⟩).encodeWith slack := by
    rw [encodeWith, ← hrow, Bytes.toByteArray_cons, ByteArray.append_assoc]
    rfl
  refine parse_eq_ok_iff.mpr ⟨hformed, slack, hencoded ▸ h, ?_⟩
  rw [← hencoded]
  simp only [ByteArray.size_append, List.size_toByteArray, Bytes.size_numeral]
  rfl

/-- The top two bits of a bank number do not count. -/
theorem Banks.bank_mod (banks : Banks) (number : UInt8) :
    banks.bank (number % 64) = banks.bank number := by
  have hindex : index (number % 64) = index number := by
    apply Fin.ext
    show (number % 64).toNat % 64 = number.toNat % 64
    rw [UInt8.toNat_mod]
    exact Nat.mod_mod _ _
  simp only [bank, hindex]

/-- **A copy is for the RF5C68 if it is from bank 1 and begins inside it**, and brings as much as there is
of its range. -/
theorem RamCopy.order?_eq (copy : RamCopy) (banks : Banks) :
    copy.order? banks =
      if copy.bank = Deck.rf5c68Bank ∧ copy.readOffset.toNat < (banks.bank copy.bank).size then
        some (⟨.rf5c68, .primary⟩, [.ram copy.writeOffset.toNat
          ((banks.bank copy.bank).extract copy.readOffset.toNat
            (min (copy.readOffset.toNat + copy.length.toNat) (banks.bank copy.bank).size))])
      else none := by
  rw [order?]
  by_cases hbank : copy.bank = Deck.rf5c68Bank
  · by_cases hstart : copy.readOffset.toNat < (banks.bank copy.bank).size
    · have hend : copy.readOffset.toNat +
          min copy.length.toNat ((banks.bank copy.bank).size - copy.readOffset.toNat) =
            min (copy.readOffset.toNat + copy.length.toNat) (banks.bank copy.bank).size := by
        omega
      rw [if_pos hbank, if_pos ⟨hbank, hstart⟩, Banks.range?, if_pos hstart, hend]
      rfl
    · rw [if_pos hbank, if_neg fun h => hstart h.2, Banks.range?, if_neg hstart]
      rfl
  · rw [if_neg hbank, if_neg fun h => hbank h.1]

/-! ## 3. Steps with a delivery -/

/-- The commands that deliver data: blocks and copies. -/
def Command.delivers : Command → Bool
  | dataBlock _ | ramCopy _ => true
  | _ => false

namespace Session

variable {σ : Type} [ChipEngine σ] {session : Session σ} {command : Command} {length : Nat}

/-- The next step takes no time.  It moves the session on by `length` bytes, leaves it with this deck,
and does nothing to the chips but these deeds. -/
structure StepsTo (session : Session σ) (length : Nat) (deck : Deck σ) (deeds : List (Event Site)) :
    Prop where
  value : (session.perform .step).value = (.stepped (.ok (.wait 0)), session.moved deck length)
  deeds : (session.perform .step).deeds = deeds

section Deliveries

variable (h : session.Running)
  (hparse : Command.parse session.image session.playback.position = .ok (command, length))
  (hdelivers : command.delivers = true)

include h hparse hdelivers

/-- **A step with a delivery brings its data for a bank and passes on its order.** -/
theorem Running.stepsTo_of_delivers :
    let deck := session.playback.deck
    let passed := deck.board.pass (command.order? deck.banks deck.dacPosition)
    session.StepsTo length
      { deck with board := passed.value, banks := command.stock deck.banks } passed.deeds := by
  intro deck passed
  have hquiet : command ≠ .endOfData ∧ command.duration = 0 ∧ command.fmKind? = none ∧
      ∀ active, command.dacAfter deck.banks active deck.dacPosition = deck.dacPosition := by
    cases command with
    | dataBlock block => exact ⟨by simp, rfl, rfl, fun _ => rfl⟩
    | ramCopy copy => exact ⟨by simp, rfl, rfl, fun _ => rfl⟩
    | _ => cases hdelivers
  obtain ⟨hlast, hduration, hkind, hdac⟩ := hquiet
  obtain ⟨hvalue, hdeeds⟩ := h.perform_step hparse hlast
  have hsame := Deck.execute_sameDeeds session.engines command deck
  rw [Deck.settle_of_fmKind?_eq_none hkind] at hsame
  constructor
  · rw [hvalue, hsame.value, hduration]
    show (_, session.moved (deck.obey command).value length) = _
    simp only [Deck.obey, Logged.value_bind, Logged.value_pure, hdac, deck, passed]
  · rw [hdeeds, hsame.deeds]
    show (deck.obey command).deeds = passed.deeds
    rw [Deck.obey, Logged.deeds_bind]
    exact List.append_nil _

/-- A delivery of one call to a chip that is there. -/
theorem Running.stepsTo_of_call {site : Site} {call : EngineCall}
    (horder : command.order? session.banks session.playback.deck.dacPosition = some (site, [call]))
    (hstock : command.stock session.banks = session.banks) (hactive : session.isActive site = true) :
    session.StepsTo length
      { session.playback.deck with
        board := (session.playback.deck.board.send site [call]).value }
      [.call site call] := by
  have hstep := h.stepsTo_of_delivers hparse hdelivers
  rw [banks] at horder hstock
  have hactive : (session.playback.deck.board.socket site).isActive = true := hactive
  simp only [horder, hstock, Board.pass, Board.deeds_send, if_pos hactive] at hstep
  exact hstep

/-- A delivery that has nothing to say, or nobody to say it to, only brings its data for a bank. -/
theorem Running.stepsTo_of_nobody
    (hnobody : ∀ site calls,
      command.order? session.banks session.playback.deck.dacPosition = some (site, calls) →
        session.isActive site = false) :
    session.StepsTo length
      { session.playback.deck with banks := command.stock session.banks } [] := by
  have hpass : session.playback.deck.board.pass
      (command.order? session.banks session.playback.deck.dacPosition) =
        pure session.playback.deck.board := by
    cases horder : command.order? session.banks session.playback.deck.dacPosition with
    | none => rfl
    | some order => exact Board.send_of_inactive order.1 (hnobody order.1 order.2 horder) order.2
  rw [banks] at hpass
  have hstep := h.stepsTo_of_delivers hparse hdelivers
  simp only [hpass, Logged.value_pure, Logged.deeds_pure] at hstep
  exact hstep

end Deliveries

/-! ## 4. Blocks -/

section Blocks

variable {block : DataBlock} (h : session.Running)
  (hparse : Command.parse session.image session.playback.position = .ok (.dataBlock block, length))

include h hparse

/-- A block of sample data is put behind what its bank holds. -/
theorem Running.stepsTo_of_stream (htype : block.type < 64) :
    session.StepsTo length
      { session.playback.deck with
        banks := session.playback.deck.banks.append block.type block.payload } [] := by
  have hcategory := block.category_eq_stream_iff.mpr htype
  have hnone : block.order? = none :=
    DataBlock.order?_eq_none (by simp [hcategory]) (by simp [hcategory])
  have hstock : (Command.dataBlock block).stock session.banks =
      session.banks.append block.type block.payload :=
    (block.stock_eq session.banks).trans (if_pos htype)
  have hstep := h.stepsTo_of_nobody hparse rfl fun site calls horder => by
    cases hnone.symm.trans horder
  rwa [hstock] at hstep

/-- A block that is for a chip is brought to it. -/
theorem Running.stepsTo_of_order {site : Site} {call : EngineCall}
    (horder : block.order? = some (site, [call])) (hactive : session.isActive site = true) :
    session.StepsTo length
      { session.playback.deck with
        board := (session.playback.deck.board.send site [call]).value } [.call site call] := by
  have hcategory : block.category ≠ .stream := fun hstream => by
    rw [DataBlock.order?_eq_none (by simp [hstream]) (by simp [hstream])] at horder
    cases horder
  exact h.stepsTo_of_call hparse rfl horder (block.stock_of_ne_stream hcategory session.banks) hactive

/-- A block that nobody takes is passed over. -/
theorem Running.stepsTo_of_untaken (htype : 64 ≤ block.type)
    (hrom : ∀ kind rom, (block.type, kind, rom) ∈ romTypes → 8 ≤ block.payload.size →
      session.isActive ⟨kind, block.rank⟩ = false)
    (hram : block.type = ramType → 2 ≤ block.payload.size →
      session.isActive ⟨.rf5c68, block.rank⟩ = false) :
    session.StepsTo length session.playback.deck [] := by
  have hcategory : block.category ≠ .stream := fun hstream =>
    UInt8.not_lt.mpr htype (block.category_eq_stream_iff.mp hstream)
  have hstep := h.stepsTo_of_nobody hparse rfl fun site calls horder => by
    rcases DataBlock.order?_cases horder with ⟨kind, rom, hmem, hlong, rfl⟩ | ⟨htype, hlong, rfl⟩
    · exact hrom kind rom hmem hlong
    · exact hram htype hlong
  have hstock : (Command.dataBlock block).stock session.banks = session.banks :=
    block.stock_of_ne_stream hcategory session.banks
  rwa [hstock] at hstep

end Blocks

/-- **Every block has its own effect, and is stepped over as a whole.**  Take a session that goes on with
its command stream and stands at the row of a block: the opcode, a byte that does not count, any type, a
size with the rank in its top bit, and as many bytes.  The next step takes no time and moves the session
on by 7 bytes and the payload.  A payload of a type below 64 goes behind what the bank of that number
holds.  If the type is one of a ROM, there are eight bytes in front of the data, and the chip is there,
the chip is told to take the data, which is the only call to any chip.  It is the same with the memory
of an RF5C68 and two bytes in front of the data.  In all other cases nothing changes but the position:
if the data is packed, if nobody knows the type, if the payload is too short, or if the chip is not
there. -/
theorem block_has_its_own_effect (session : Session σ)
    (hterminated : session.playback.terminated = false) (hended : session.playback.ended = false)
    (reserved type : UInt8) (raw : UInt32) (payload : ByteArray)
    (hsize : payload.size = (raw % 0x80000000).toNat)
    (hstands : Bytes.StandsAt session.image session.playback.position
      ([0x67, reserved, type].toByteArray ++ (Bytes.numeral 4 raw.toNat ++ payload))) :
    let rank := Rank.ofFlag (0x80000000 ≤ raw)
    let length := 7 + payload.size
    let deck := session.playback.deck
    (type < 64 →
      session.StepsTo length { deck with banks := deck.banks.append type payload } [] ∧
        ∀ bank < 64, (deck.banks.append type payload).bank bank =
          if bank = type then deck.banks.bank bank ++ payload else deck.banks.bank bank) ∧
    (∀ kind rom, (type, kind, rom) ∈ romTypes → 8 ≤ payload.size →
      session.isActive ⟨kind, rank⟩ = true →
        session.StepsTo length
          { deck with board := (deck.board.send ⟨kind, rank⟩ [DataBlock.romCall rom payload]).value }
          [.call ⟨kind, rank⟩ (DataBlock.romCall rom payload)]) ∧
    (type = ramType → 2 ≤ payload.size → session.isActive ⟨.rf5c68, rank⟩ = true →
      session.StepsTo length
        { deck with board := (deck.board.send ⟨.rf5c68, rank⟩ [DataBlock.ramCall payload]).value }
        [.call ⟨.rf5c68, rank⟩ (DataBlock.ramCall payload)]) ∧
    (64 ≤ type →
      (∀ kind rom, (type, kind, rom) ∈ romTypes → 8 ≤ payload.size →
        session.isActive ⟨kind, rank⟩ = false) →
      (type = ramType → 2 ≤ payload.size → session.isActive ⟨.rf5c68, rank⟩ = false) →
        session.StepsTo length deck []) := by
  intro rank length deck
  let block : DataBlock := ⟨type, rank, payload, raw % 0x80000000⟩
  obtain ⟨hlow, hraw⟩ := Rank.word32_split raw
  have hparse : Command.parse session.image session.playback.position =
      .ok (.dataBlock block, length) := by
    refine DataBlock.parse_eq_ok_iff.mpr ⟨⟨hsize.symm, hsize ▸ hlow, reserved, ?_⟩, rfl⟩
    rw [← hsize] at hraw
    exact hraw.symm ▸ hstands
  have hrunning : session.Running := ⟨hterminated, hended⟩
  refine ⟨?_, ?_, ?_, ?_⟩
  · intro htype
    refine ⟨hrunning.stepsTo_of_stream hparse htype, fun bank hbank => ?_⟩
    exact Banks.bank_append htype hbank payload deck.banks
  · intro kind rom hrom hlong hactive
    exact hrunning.stepsTo_of_order hparse (DataBlock.order?_of_mem_romTypes hrom hlong) hactive
  · intro hram hlong hactive
    exact hrunning.stepsTo_of_order hparse (DataBlock.order?_of_ramType hram hlong) hactive
  · intro htype hrom hram
    exact hrunning.stepsTo_of_untaken hparse htype hrom hram

/-- A log of version 1.51 for an RF5C68 at 12500000 Hz: a header of 68 bytes, and commands. -/
def rf5c68Log (commands : List UInt8) : ByteArray :=
  Header.ident ++ (Bytes.digits 4 0 ++ Bytes.digits 4 0x151 ++ List.replicate 40 0
    ++ Bytes.digits 4 0x10 ++ List.replicate 8 0 ++ Bytes.digits 4 12500000 ++ commands).toByteArray

/-- Two bytes for the memory of an RF5C68, to be placed at 0x1234. -/
def rf5c68MemoryLog : ByteArray :=
  rf5c68Log [0x67, 0x66, 0xC0, 0x04, 0x00, 0x00, 0x00, 0x34, 0x12, 0xAA, 0xBB, 0x66]

/-- The RF5C68 is told to take the two bytes, and the player goes on behind them. -/
theorem rf5c68MemoryLog_has_its_effect : ∃ session,
    (load Bundled.factory rf5c68MemoryLog).value = .ok session ∧
      (session.perform .step).value.2.playback.position = 79 ∧
      (session.perform .step).deeds =
        [.call ⟨.rf5c68, .primary⟩ (.ram 0x1234 [0xAA, 0xBB].toByteArray)] := by
  have hrun : ((Header.parse rf5c68MemoryLog).toOption.map fun header =>
      (opened Bundled.factory rf5c68MemoryLog header).isActive ⟨.rf5c68, .primary⟩) =
        some true := by
    decide +kernel
  obtain ⟨header, hparse, hstart, hload⟩ := @load_of_dataStart rf5c68MemoryLog 68 rfl
  rw [hparse] at hrun
  have hposition : (opened Bundled.factory rf5c68MemoryLog header).playback.position = 68 := hstart
  have hstands : Bytes.StandsAt rf5c68MemoryLog 68 ([0x67, 0x66, 0xC0].toByteArray ++
      (Bytes.numeral 4 (4 : UInt32).toNat ++ [0x34, 0x12, 0xAA, 0xBB].toByteArray)) := by
    constructor <;> decide +kernel
  have hstep := (block_has_its_own_effect (opened Bundled.factory rf5c68MemoryLog header) rfl rfl
    0x66 0xC0 4 [0x34, 0x12, 0xAA, 0xBB].toByteArray rfl (hposition.symm ▸ hstands)).2.2.1 rfl
    (by decide) (Option.some.inj hrun)
  refine ⟨_, hload, ?_, ?_⟩
  · rw [hstep.value]
    exact congrArg (· + 11) hposition
  · rw [hstep.deeds]
    decide +kernel

/-! ## 5. Copies -/

/-- **A copy takes what is there.**  Take a session that goes on with its command stream and stands at
the row of a copy: the opcode, a byte that does not count, a byte for the bank, the place to read from,
the place to write to, and the length, where zero stands for the greatest length.  The next step takes
no time and moves the session on by 12 bytes.  If the copy is from bank 1, begins inside the bank, and
there is a first RF5C68, that chip is told to take the part of the range that is in the bank, which is
not empty.  This is the only call to any chip.  In all other cases there is none.  Nothing else changes. -/
theorem copy_takes_what_is_there (session : Session σ)
    (hterminated : session.playback.terminated = false) (hended : session.playback.ended = false)
    (reserved type : UInt8) {read write field : Nat} (hread : read < 2 ^ 24) (hwrite : write < 2 ^ 24)
    (hfield : field < 2 ^ 24)
    (hstands : Bytes.StandsAt session.image session.playback.position
      ([0x68, reserved, type].toByteArray ++
        (Bytes.numeral 3 read ++ (Bytes.numeral 3 write ++ Bytes.numeral 3 field)))) :
    let length := if field = 0 then 2 ^ 24 else field
    let bank := session.banks.bank type
    let data := bank.extract read (min (read + length) bank.size)
    let deck := session.playback.deck
    let site : Site := ⟨.rf5c68, .primary⟩
    (type % 64 = 1 → read < bank.size → session.isActive site = true →
      0 < data.size ∧
        session.StepsTo 12 { deck with board := (deck.board.send site [.ram write data]).value }
          [.call site (.ram write data)]) ∧
    (¬ (type % 64 = 1 ∧ read < bank.size ∧ session.isActive site = true) →
      session.StepsTo 12 deck []) := by
  intro length bank data deck site
  have hrunning : session.Running := ⟨hterminated, hended⟩
  let copy : RamCopy :=
    ⟨type % 64, UInt32.ofNat read, UInt32.ofNat write, Command.copyLength (UInt32.ofNat field)⟩
  have hparse : Command.parse session.image session.playback.position = .ok (.ramCopy copy, 12) :=
    Command.parse_ramCopy hread hwrite hfield hstands
  have horder : copy.order? session.banks =
      if type % 64 = 1 ∧ read < bank.size then some (site, [.ram write data]) else none := by
    rw [RamCopy.order?_eq]
    simp only [copy, Banks.bank_mod, Bytes.toNat_ofNat_of_lt hread, Bytes.toNat_ofNat_of_lt hwrite,
      Command.toNat_copyLength hfield]
    rfl
  constructor
  · intro hbank hstart hactive
    rw [if_pos ⟨hbank, hstart⟩] at horder
    refine ⟨?_, hrunning.stepsTo_of_call hparse rfl horder rfl hactive⟩
    have hpos : 0 < length := by
      show 0 < if field = 0 then 2 ^ 24 else field
      split
      · exact Nat.two_pow_pos 24
      · exact Nat.pos_of_ne_zero ‹_›
    rw [ByteArray.size_extract]
    omega
  · intro hnobody
    refine hrunning.stepsTo_of_nobody hparse rfl fun other calls hother => ?_
    rw [show (Command.ramCopy copy).order? session.banks session.playback.deck.dacPosition =
      copy.order? session.banks from rfl, horder] at hother
    split at hother
    case isTrue htaken =>
      cases hother
      exact Bool.eq_false_iff.mpr fun hactive => hnobody ⟨htaken.1, htaken.2, hactive⟩
    case isFalse => cases hother

/-- Three bytes of sample data for bank 1, and a copy of all but the first to 0x10 in the memory of an
RF5C68. -/
def rf5c68CopyLog : ByteArray :=
  rf5c68Log [0x67, 0x66, 0x01, 0x03, 0x00, 0x00, 0x00, 0xAA, 0xBB, 0xCC,
    0x68, 0x66, 0x01, 0x01, 0x00, 0x00, 0x10, 0x00, 0x00, 0x00, 0x00, 0x00, 0x66]

/-- The length of that copy is zero, which stands for far more than there is. -/
theorem rf5c68CopyLog_takes_two_bytes : ∃ session,
    (load Bundled.factory rf5c68CopyLog).value = .ok session ∧
      ((session.after [.step]).perform .step).deeds =
        [.call ⟨.rf5c68, .primary⟩ (.ram 0x10 [0xBB, 0xCC].toByteArray)] := by
  have hrun : ((Header.parse rf5c68CopyLog).toOption.map fun header =>
      let session := (opened Bundled.factory rf5c68CopyLog header).after [.step]
      (session.playback.terminated, session.playback.ended, session.playback.position,
        session.isActive ⟨.rf5c68, .primary⟩, session.banks.bank 1)) =
      some (false, false, 78, true, [0xAA, 0xBB, 0xCC].toByteArray) := by
    decide +kernel
  obtain ⟨header, hparse, -, hload⟩ := @load_of_dataStart rf5c68CopyLog 68 rfl
  rw [hparse] at hrun
  obtain ⟨hterminated, hrest⟩ := Prod.mk.inj (Option.some.inj hrun)
  obtain ⟨hended, hrest⟩ := Prod.mk.inj hrest
  obtain ⟨hposition, hrest⟩ := Prod.mk.inj hrest
  obtain ⟨hactive, hbank⟩ := Prod.mk.inj hrest
  have hstands : Bytes.StandsAt rf5c68CopyLog 78 ([0x68, 0x66, 0x01].toByteArray ++
      (Bytes.numeral 3 1 ++ (Bytes.numeral 3 0x10 ++ Bytes.numeral 3 0))) := by
    constructor <;> decide +kernel
  rw [← hposition] at hstands
  have himage : ((opened Bundled.factory rf5c68CopyLog header).after [.step]).image =
      rf5c68CopyLog := image_after _ _
  obtain ⟨-, hstep⟩ := (copy_takes_what_is_there _ hterminated hended 0x66 0x01 (by decide)
    (by decide) (by decide) (himage.symm ▸ hstands)).1 rfl (by rw [hbank]; decide) hactive
  refine ⟨_, hload, ?_⟩
  rw [hstep.deeds, hbank]
  decide +kernel

end Session

end ChipLog
