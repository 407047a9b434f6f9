/-
# Headers and tags on the machine

A header has pointers that count from where they stand, and a tag has parts that stand behind each
other.  Where these are computed, the sums are small: a pointer has 32 bits, and a part of a tag is
looked for only behind a part that has been read.  So a header is reached on every image
(`parseHeader_eq`), and a tag is reached wherever it is looked for (`findTag_eq`).
-/
import ChipLog.Proofs.Header.Fields
import ChipLog.Proofs.Machine.Checked
import ChipLog.Tag.Cache

namespace ChipLog.Machine

/-! ## 1. Versions -/

/-- The binary-coded decimal of a number, whose first digit is shifted to its place. -/
def bcd (n : UInt8) : Checked UInt16 := do
  let tens ← shiftUp 16 (n / 10).toNat 4
  return UInt16.ofNat (tens ||| (n % 10).toNat)

/-- Whether a version is that with the given numbers or later. -/
def atLeast (version : Version) (major minor : UInt8) : Checked Bool := do
  let high ← bcd major
  let low ← bcd minor
  let high ← shiftUp 16 high.toNat 8
  return UInt16.ofNat (high ||| low.toNat) ≤ version.raw

theorem bcd_eq (n : UInt8) : bcd n = .ok (Version.bcd n) := by
  have hn := n.toNat_lt
  have htens : (n / 10).toNat = n.toNat / 10 := by simp
  have hones : (n % 10).toNat = n.toNat % 10 := by simp
  have hvalue : UInt16.ofNat ((n / 10).toNat <<< 4 ||| (n % 10).toNat) = Version.bcd n := by
    rw [← UInt16.toNat_inj, Version.bcd, htens, hones,
      ← Nat.shiftLeft_add_eq_or_of_lt (by omega), Nat.shiftLeft_eq]
    simp
  unfold bcd
  rw [shiftUp_of_lt (by omega) (by rw [htens, Nat.shiftLeft_eq]; omega), ← hvalue]
  rfl

theorem atLeast_eq (version : Version) (major minor : UInt8) :
    atLeast version major minor = .ok (version.atLeast major minor) := by
  have hvalue : UInt16.ofNat ((Version.bcd major).toNat <<< 8 % 2 ^ 16 ||| (Version.bcd minor).toNat) =
      (Version.ofNumbers major minor).raw := by
    rw [← UInt16.toNat_inj, Version.ofNumbers, UInt16.toNat_ofNat', UInt16.toNat_or, Nat.mod_eq_of_lt]
    · congr 1
      rw [UInt16.toNat_mul, Nat.shiftLeft_eq]
      rfl
    · exact Nat.or_lt_two_pow (Nat.mod_lt _ (by decide)) (Version.bcd minor).toNat_lt
  unfold atLeast
  rw [bcd_eq, bcd_eq]
  show (do
    let high ← shiftUp 16 (Version.bcd major).toNat 8
    return decide (UInt16.ofNat (high ||| (Version.bcd minor).toNat) ≤ version.raw)) = _
  rw [shiftUp, if_pos (by omega)]
  show Except.ok (decide (UInt16.ofNat _ ≤ version.raw)) = _
  rw [hvalue]
  rfl

/-! ## 2. Fields -/

/-- A pointer counts from where it stands, and zero points nowhere. -/
def readPointer (bytes : ByteArray) (field : HeaderField) : Reading (Option Nat) := do
  let distance ← readU32 bytes field.offset
  if distance == 0 then return none
  else
    let target ← add field.offset distance.toNat
    return some target

/-- Where the command stream begins. -/
def readDataStart (bytes : ByteArray) (version : Version) : Reading Nat := do
  let points ← atLeast version 1 50
  if points then
    let start ← ExceptT.adapt (Fault.within .dataOffset) (readPointer bytes .dataOffset)
    return start.getD Header.defaultDataStart
  else return Header.defaultDataStart

/-- Whether a field of a tier counts.  Where it ends matters for the later tiers only. -/
def counts (version : Version) (dataStart : Nat) (tier : ClockTier) (offset : Nat) :
    Checked Bool := do
  let known ← atLeast version tier.minVersion.1 tier.minVersion.2
  if known then
    if tier.needsHeaderSpace then
      let stop ← add offset 4
      return stop ≤ dataStart
    else return true
  else return false

/-- A word that reads as zero when it does not count or is not in the file. -/
def readTiered (bytes : ByteArray) (version : Version) (dataStart : Nat) (tier : ClockTier)
    (offset : Nat) : Checked UInt32 := do
  let counted ← counts version dataStart tier offset
  if counted then
    match ← (readU32 bytes offset).run with
    | .ok word => return word
    | .error _ => return 0
  else return 0

/-- The clock fields of all kinds. -/
def readClocks (bytes : ByteArray) (version : Version) (dataStart : Nat) :
    Checked (PerKind ClockField) :=
  tabulate fun kind =>
    ClockField.mk <$> readTiered bytes version dataStart kind.tier kind.clockOffset

def readFmClock (bytes : ByteArray) (version : Version) : Reading ClockField := do
  let known ← atLeast version 1 10
  if known then return ⟨0⟩
  else ClockField.mk <$> readU32 bytes ChipKind.ym2413.clockOffset

/-- Taps and width of the noise register, which are shifted to their places. -/
def readPsgFlags (bytes : ByteArray) (version : Version) : Reading UInt32 := do
  let known ← atLeast version 1 10
  if known then
    let taps ← readU16 bytes HeaderField.psgFeedback.offset
    let width ← readU8 bytes HeaderField.psgWidth.offset
    let high ← shiftUp 32 taps.toNat 16
    let low ← shiftUp 32 width.toNat 8
    return UInt32.ofNat (high ||| low)
  else return Header.defaultPsgFlags

variable {bytes : ByteArray}

/-- A pointer cannot leave the addresses: it has 32 bits, and it stands in the first 64 bytes. -/
theorem readPointer_eq (hbytes : bytes.size ≤ maxSize) (field : HeaderField) :
    readPointer bytes field = reached (Header.readPointer bytes field) := by
  unfold readPointer Header.readPointer
  rw [readU32_eq hbytes]
  refine reached_bind fun distance _ => ?_
  split
  case isTrue => rfl
  case isFalse =>
    have hoffset : field.offset < 2 ^ 6 := by cases field <;> decide
    have hdistance := distance.toNat_lt
    exact lift_bind (add_of_lt (by omega)) fun target => pure (some target)

theorem readDataStart_eq (hbytes : bytes.size ≤ maxSize) (version : Version) :
    readDataStart bytes version = reached (Header.readDataStart bytes version) := by
  unfold readDataStart Header.readDataStart
  rw [lift_bind (atLeast_eq version 1 50)]
  split
  case isTrue =>
    rw [readPointer_eq hbytes]
    cases Header.readPointer bytes .dataOffset <;> rfl
  case isFalse => rfl

theorem counts_eq (version : Version) (dataStart : Nat) (tier : ClockTier) {offset : Nat}
    (hoffset : offset + 4 < 2 ^ 64) :
    counts version dataStart tier offset = .ok (Header.counts version dataStart tier offset) := by
  unfold counts Header.counts
  rw [atLeast_eq, add_of_lt hoffset]
  cases version.atLeast tier.minVersion.1 tier.minVersion.2 with
  | false => rfl
  | true =>
    cases tier.needsHeaderSpace with
    | false => rfl
    | true => simp; rfl

theorem readTiered_eq (hbytes : bytes.size ≤ maxSize) (version : Version) (dataStart : Nat)
    (tier : ClockTier) {offset : Nat} (hoffset : offset + 4 < 2 ^ 64) :
    readTiered bytes version dataStart tier offset =
      .ok (Header.readTiered bytes version dataStart tier offset) := by
  unfold readTiered Header.readTiered
  rw [counts_eq version dataStart tier hoffset, readU32_eq hbytes]
  cases Header.counts version dataStart tier offset with
  | false => rfl
  | true => cases Bytes.readU32 bytes offset <;> rfl

theorem readClocks_eq (hbytes : bytes.size ≤ maxSize) (version : Version) (dataStart : Nat) :
    readClocks bytes version dataStart = .ok (Header.readClocks bytes version dataStart) := by
  refine tabulate_eq fun kind => ?_
  have hoffset : kind.clockOffset + 4 < 2 ^ 64 := by cases kind <;> decide
  rw [readTiered_eq hbytes version dataStart kind.tier hoffset]
  rfl

theorem readFmClock_eq (hbytes : bytes.size ≤ maxSize) (version : Version) :
    readFmClock bytes version = reached (Header.readFmClock bytes version) := by
  unfold readFmClock Header.readFmClock
  rw [lift_bind (atLeast_eq version 1 10)]
  split
  case isTrue => rfl
  case isFalse =>
    rw [readU32_eq hbytes, reached_map]
    rfl

theorem readPsgFlags_eq (hbytes : bytes.size ≤ maxSize) (version : Version) :
    readPsgFlags bytes version = reached (Header.readPsgFlags bytes version) := by
  unfold readPsgFlags Header.readPsgFlags
  rw [lift_bind (atLeast_eq version 1 10)]
  split
  case isFalse => rfl
  case isTrue =>
    rw [readU16_eq hbytes]
    refine reached_bind fun taps _ => ?_
    rw [readU8_eq]
    refine reached_bind fun width _ => ?_
    have htaps := taps.toNat_lt
    have hwidth := width.toNat_lt
    have hlow : width.toNat <<< 8 < 2 ^ 16 := by
      rw [Nat.shiftLeft_eq]
      omega
    have hflags : UInt32.ofNat (taps.toNat <<< 16 ||| width.toNat <<< 8) =
        taps.toUInt32 * 0x10000 + width.toUInt32 * 0x100 := by
      rw [← UInt32.toNat_inj, ← Nat.shiftLeft_add_eq_or_of_lt hlow, Nat.shiftLeft_eq,
        Nat.shiftLeft_eq]
      simp
    rw [lift_bind (shiftUp_of_lt (by omega) (by rw [Nat.shiftLeft_eq]; omega)),
      lift_bind (shiftUp_of_lt (by omega) (by omega)), hflags]
    rfl

/-! ## 3. Whole headers -/

/-- A copy of a part of known size. -/
def copyOf (size : Nat) (part : ByteArray) : Checked ByteArray :=
  if part.size = size then .ok part else .error .panic

/-- Refuse an image that is no log. -/
def check (bytes : ByteArray) : Reading Unit :=
  if bytes.size < Header.minSize then throw (.headerTooShort bytes.size)
  else do
    let found ← slice bytes HeaderField.ident.offset 4
    if found = Header.ident then pure ()
    else
      let found ← copyOf 4 found
      throw (.badIdent found)

/-- Read the header of an image. -/
def parseHeader (bytes : ByteArray) : Reading Header := do
  check bytes
  let version := Version.ofWord (← readU32 bytes HeaderField.version.offset)
  let dataStart ← readDataStart bytes version
  pure {
    version := version
    eofOffset := ← readU32 bytes HeaderField.eofOffset.offset
    totalSamples := ← readU32 bytes HeaderField.totalSamples.offset
    loopSamples := ← readU32 bytes HeaderField.loopSamples.offset
    rate := ← readU32 bytes HeaderField.rate.offset
    dataStart := dataStart
    loopOffset := ← readPointer bytes .loopOffset
    tagOffset := ← readPointer bytes .tagOffset
    clocks := ← readClocks bytes version dataStart
    fmClock := ← readFmClock bytes version
    psgFlags := ← readPsgFlags bytes version
    segaPcmInterface :=
      ← readTiered bytes version dataStart .v151 HeaderField.segaPcmInterface.offset }

theorem check_reached (hbytes : bytes.size ≤ maxSize) : check bytes = reached (Header.check bytes) := by
  unfold check Header.check
  split
  case isTrue => rfl
  case isFalse =>
    rw [slice_eq hbytes]
    refine reached_bind fun found hfound => ?_
    split
    case isTrue => rfl
    case isFalse =>
      have hsize : found.size = 4 := by
        obtain ⟨hle, rfl⟩ := Bytes.slice_eq_ok_iff.mp hfound
        rw [ByteArray.size_extract]
        omega
      exact lift_bind (if_pos hsize) fun found => throw (.badIdent found)

/-- **The header of every image is reached.** -/
theorem parseHeader_eq (hbytes : bytes.size ≤ maxSize) :
    parseHeader bytes = reached (Header.parse bytes) := by
  unfold parseHeader Header.parse
  rw [check_reached hbytes]
  refine reached_bind fun _ _ => ?_
  rw [readU32_eq hbytes]
  refine reached_bind fun word _ => ?_
  dsimp only
  rw [readDataStart_eq hbytes]
  refine reached_bind fun dataStart _ => ?_
  rw [readU32_eq hbytes]
  refine reached_bind fun eofOffset _ => ?_
  rw [readU32_eq hbytes]
  refine reached_bind fun totalSamples _ => ?_
  rw [readU32_eq hbytes]
  refine reached_bind fun loopSamples _ => ?_
  rw [readU32_eq hbytes]
  refine reached_bind fun rate _ => ?_
  rw [readPointer_eq hbytes]
  refine reached_bind fun loopOffset _ => ?_
  rw [readPointer_eq hbytes]
  refine reached_bind fun tagOffset _ => ?_
  rw [lift_bind (readClocks_eq hbytes _ dataStart), readFmClock_eq hbytes]
  refine reached_bind fun fmClock _ => ?_
  rw [readPsgFlags_eq hbytes]
  refine reached_bind fun psgFlags _ => ?_
  rw [lift_bind (readTiered_eq hbytes _ dataStart .v151 (by decide))]
  rfl

/-! ## 4. Tags -/

/-- Behind a word that is read there is less of the image left. -/
theorem moved_of_readU16 {pos next : Nat} {unit : UInt16}
    (h : (readU16 bytes pos).run = .ok (.ok unit)) (hnext : add pos 2 = .ok next) :
    bytes.size - next < bytes.size - pos := by
  have hmoved := eq_add_of_add hnext
  have hfits : pos + 2 ≤ bytes.size := by
    apply Nat.not_lt.mp
    intro hshort
    have hslice : slice bytes pos 2 = throw (.outOfRange pos 2 bytes.size none) := by
      unfold slice
      rw [show addWords 64 pos 2 = .ok next from hnext]
      exact if_neg (by omega)
    rw [readU16, readNumber, hslice] at h
    cases h
  omega

/-- Read units from `pos` on, up to and with the first zero unit, behind `units`. -/
def readText (bytes : ByteArray) (units : Array UInt16) (pos : Nat) : Reading (TagText × Nat) :=
  match hunit : (readU16 bytes pos).run with
  | .error halt => .error halt
  | .ok (.error fault) => throw (fault.within .tagText)
  | .ok (.ok unit) =>
    match hnext : add pos 2 with
    | .error halt => .error halt
    | .ok next =>
      have := moved_of_readU16 hunit hnext
      if unit = 0 then pure (⟨units.push unit⟩, next) else readText bytes (units.push unit) next
termination_by bytes.size - pos

/-- Read `n` texts one after the other. -/
def readTexts (bytes : ByteArray) : (n : Nat) → (pos : Nat) → Reading (Vector TagText n × Nat)
  | 0, pos => pure (.emptyWithCapacity 0, pos)
  | n + 1, pos => do
    let (texts, next) ← readTexts bytes n pos
    let (text, stop) ← readText bytes #[] next
    return (texts.push text, stop)

/-- Read what stands at a position. -/
def readTag (bytes : ByteArray) (start : Nat) : Reading Tag.Finding := do
  let found ← ExceptT.adapt (Fault.within .tagIdent) (slice bytes start 4)
  if found ≠ Tag.ident then
    return .otherIdent start found
  let place ← add start 4
  let version ← ExceptT.adapt (Fault.within .tagVersion) (readU32 bytes place)
  if version ≠ Tag.knownVersion then
    return .otherVersion version
  let place ← add start 8
  let dataLength ← ExceptT.adapt (Fault.within .tagLength) (readU32 bytes place)
  let place ← add start 12
  let (texts, _) ← readTexts bytes TagField.count place
  return .found ⟨dataLength, texts⟩

/-- Look for the tag that a header points to. -/
def findTag (bytes : ByteArray) (offset : Option Nat) : Reading Tag.Finding :=
  match offset with
  | some start => readTag bytes start
  | none => pure .absent

theorem adapt_reached {α : Type} (f : Fault → Fault) (answer : Except Fault α) :
    ExceptT.adapt f (reached answer) = reached (answer.mapError f) := by
  cases answer <;> rfl

theorem readText_of_unit {pos next : Nat} {unit : UInt16} (units : Array UInt16)
    (hunit : (readU16 bytes pos).run = .ok (.ok unit)) (hnext : add pos 2 = .ok next) :
    readText bytes units pos =
      if unit = 0 then pure (⟨units.push unit⟩, next)
      else readText bytes (units.push unit) next := by
  rw [readText]
  split
  case h_1 hhalt => rw [hunit] at hhalt; cases hhalt
  case h_2 hfault => rw [hunit] at hfault; cases hfault
  case h_3 hfound =>
    rw [hunit] at hfound
    cases hfound
    split
    case h_1 hhalt => rw [hnext] at hhalt; cases hhalt
    case h_2 hfound =>
      rw [hnext] at hfound
      cases hfound
      rfl

theorem readText_of_fault {pos : Nat} {fault : Fault} (units : Array UInt16)
    (hfault : (readU16 bytes pos).run = .ok (.error fault)) :
    readText bytes units pos = throw (fault.within .tagText) := by
  rw [readText]
  split
  case h_1 hhalt => rw [hfault] at hhalt; cases hhalt
  case h_2 hfound => rw [hfault] at hfound; cases hfound; rfl
  case h_3 hfound => rw [hfault] at hfound; cases hfound

/-- **The offset in a text does not leave the addresses**: it moves over units that were read. -/
theorem readText_eq (hbytes : bytes.size ≤ maxSize) (units : Array UInt16) (pos : Nat) :
    readText bytes units pos = reached (Tag.readText bytes units pos) := by
  have hread : ∀ pos, pos + 2 ≤ bytes.size →
      (readU16 bytes pos).run = .ok (.ok (UInt16.ofNat (Bytes.number bytes pos 2))) ∧
        add pos 2 = .ok (pos + 2) := by
    intro pos hle
    rw [readU16_eq hbytes, Bytes.readU16, Bytes.readNumber, if_pos hle]
    unfold maxSize at hbytes
    exact ⟨rfl, add_of_lt (by omega)⟩
  fun_induction Tag.readText bytes units pos with
  | case1 units pos hle unit hzero =>
    obtain ⟨hunit, hnext⟩ := hread pos hle
    rw [readText_of_unit units hunit hnext, if_pos hzero]
    rfl
  | case2 units pos hle unit hzero ih =>
    obtain ⟨hunit, hnext⟩ := hread pos hle
    rw [readText_of_unit units hunit hnext, if_neg hzero]
    exact ih
  | case3 units pos hlt =>
    have hfault : (readU16 bytes pos).run =
        .ok (.error (.outOfRange pos 2 bytes.size none)) := by
      rw [readU16_eq hbytes, Bytes.readU16, Bytes.readNumber, if_neg hlt]
      rfl
    rw [readText_of_fault units hfault]
    rfl

theorem readTexts_eq (hbytes : bytes.size ≤ maxSize) (n pos : Nat) :
    readTexts bytes n pos = reached (Tag.readTexts bytes n pos) := by
  induction n with
  | zero => rfl
  | succ n ih =>
    rw [readTexts, Tag.readTexts, ih]
    refine reached_bind fun r _ => ?_
    obtain ⟨texts, next⟩ := r
    dsimp only
    rw [readText_eq hbytes]
    exact reached_bind fun text _ => rfl

theorem readTag_eq (hbytes : bytes.size ≤ maxSize) (start : Nat) :
    readTag bytes start = reached (Tag.readAt bytes start) := by
  unfold readTag Tag.readAt
  rw [slice_eq hbytes, adapt_reached]
  refine reached_bind fun found hfound => ?_
  have hident := (Bytes.slice_eq_ok_iff.mp (Fault.eq_ok_of_mapError hfound)).1
  unfold maxSize at hbytes
  split
  case isTrue => rfl
  case isFalse =>
    rw [lift_bind (add_of_lt (by omega)), readU32_eq hbytes, adapt_reached]
    refine reached_bind fun version hversion => ?_
    have hversion := le_of_readNumber (Fault.eq_ok_of_mapError hversion)
    split
    case isTrue => rfl
    case isFalse =>
      rw [lift_bind (add_of_lt (by omega)), readU32_eq hbytes, adapt_reached]
      refine reached_bind fun dataLength hlength => ?_
      have hlength := le_of_readNumber (Fault.eq_ok_of_mapError hlength)
      rw [lift_bind (add_of_lt (by omega)), readTexts_eq hbytes]
      exact reached_bind fun texts _ => rfl

/-- **A tag can be looked for at every place of every image.** -/
theorem findTag_eq (hbytes : bytes.size ≤ maxSize) (offset : Option Nat) :
    findTag bytes offset = reached (Tag.find bytes offset) := by
  cases offset with
  | none => rfl
  | some start => exact readTag_eq hbytes start

end ChipLog.Machine
