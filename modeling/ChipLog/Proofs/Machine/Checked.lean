/-
# A machine with limits

The definitions of this library compute with numbers of any size, and a read that leaves its bytes
is just another answer.  A machine with 64-bit addresses is less patient.  It panics when a sum
leaves its word, when a difference falls below zero, when an index or a range leaves its row of
bytes, when a shift goes as far as its word is wide, and when a cast loses bits.

The modules of this folder carry out the definitions on such a machine, with every operation that
can panic written out in the place where it happens, and with nothing in front of it but the checks
that are made there.  What needs no such operation is taken over as it is: comparisons, remainders,
sums that stop at the end of their word, shifts down, which go by a fixed number of bits less than
their word has, and places of type `Fin` or of a type with as many values as its table has entries,
which cannot be missed.

Each definition is then shown to be reached by the machine (`reached`): it comes to an end without a
panic, and with the same answer.  The reasons are mostly reads that have succeeded before, which is
why `reached_bind` hands them on.
-/
import ChipLog.Chip.PerKind
import ChipLog.Proofs.Bytes.Rows

namespace ChipLog.Machine

/-! ## 1. Operations -/

/-- What stops a machine before it has an answer. -/
inductive Halt
  | panic
  /-- There is no room for a row of bytes that has grown. -/
  | memory
  deriving DecidableEq, Repr

abbrev Checked : Type → Type := Except Halt

/-- The largest size of a row of bytes. -/
def maxSize : Nat := 2 ^ 63 - 1

/-- The sum of two words of `width` bits. -/
def addWords (width a b : Nat) : Checked Nat :=
  if a + b < 2 ^ width then .ok (a + b) else .error .panic

/-- The sum of two addresses. -/
def add (a b : Nat) : Checked Nat := addWords 64 a b

/-- The difference of two words of any width. -/
def sub (a b : Nat) : Checked Nat := if b ≤ a then .ok (a - b) else .error .panic

/-- Shift a word of `width` bits up; bits that leave it are lost. -/
def shiftUp (width value count : Nat) : Checked Nat :=
  if count < width then .ok (value <<< count % 2 ^ width) else .error .panic

/-- The byte at a place of a row. -/
def index (bytes : ByteArray) (place : Nat) : Checked UInt8 :=
  match bytes[place]? with
  | some byte => .ok byte
  | none => .error .panic

/-- The entry at a place of a table. -/
def entry {α : Type} {n : Nat} (table : Vector α n) (place : Nat) : Checked α :=
  match table[place]? with
  | some value => .ok value
  | none => .error .panic

/-- The part of a row between two places. -/
def range (bytes : ByteArray) (start stop : Nat) : Checked ByteArray :=
  if start ≤ stop ∧ stop ≤ bytes.size then .ok (bytes.extract start stop) else .error .panic

theorem addWords_of_lt {width a b : Nat} (h : a + b < 2 ^ width) :
    addWords width a b = .ok (a + b) := if_pos h

theorem add_of_lt {a b : Nat} (h : a + b < 2 ^ 64) : add a b = .ok (a + b) := if_pos h

theorem eq_add_of_add {a b c : Nat} (h : add a b = .ok c) : c = a + b := by
  unfold add addWords at h
  split at h <;> cases h
  rfl

theorem sub_of_le {a b : Nat} (h : b ≤ a) : sub a b = .ok (a - b) := if_pos h

theorem shiftUp_of_lt {width value count : Nat} (hcount : count < width)
    (hvalue : value <<< count < 2 ^ width) : shiftUp width value count = .ok (value <<< count) := by
  rw [shiftUp, if_pos hcount, Nat.mod_eq_of_lt hvalue]

theorem index_of_lt {bytes : ByteArray} {place : Nat} (h : place < bytes.size) :
    index bytes place = .ok bytes[place] := by
  rw [index, getElem?_pos bytes place h]

theorem entry_of_lt {α : Type} {n : Nat} (table : Vector α n) {place : Nat} (h : place < n) :
    entry table place = .ok table[place] := by
  rw [entry, Vector.getElem?_eq_getElem h]

theorem range_of_le {bytes : ByteArray} {start stop : Nat} (h : start ≤ stop)
    (hstop : stop ≤ bytes.size) : range bytes start stop = .ok (bytes.extract start stop) :=
  if_pos ⟨h, hstop⟩

/-- A vector that is filled place by place. -/
def fill {α : Type} {n : Nat} (f : Fin n → Checked α) : Checked (Vector α n) :=
  (Vector.ofFn id).mapM f

theorem fill_eq {α : Type} {n : Nat} {f : Fin n → Checked α} {g : Fin n → α}
    (h : ∀ i, f i = .ok (g i)) : fill f = .ok (Vector.ofFn g) := by
  have hpure : f = fun i => (pure (g i) : Checked α) := funext h
  unfold fill
  rw [hpure, Vector.mapM_pure, Vector.map_ofFn]
  rfl

/-- A table that is filled kind by kind. -/
def tabulate {α : Type} (f : ChipKind → Checked α) : Checked (PerKind α) := do
  let entries ← fill fun i => f (ChipKind.ofIndex i)
  return ⟨entries⟩

theorem tabulate_eq {α : Type} {f : ChipKind → Checked α} {g : ChipKind → α}
    (h : ∀ kind, f kind = .ok (g kind)) : tabulate f = .ok (PerKind.ofFn g) := by
  unfold tabulate
  rw [fill_eq fun i => h (ChipKind.ofIndex i)]
  rfl

/-! ## 2. Answers that may be faults -/

/-- A computation on the machine that may end in a fault. -/
abbrev Reading : Type → Type := ExceptT Fault Checked

variable {α β : Type}

/-- The machine comes to an answer. -/
def reached (answer : Except Fault α) : Reading α := ExceptT.mk (.ok answer)

/-- **Step by step to an answer.**  What is done with an intermediate answer may rely on how it came
about. -/
theorem reached_bind {answer : Except Fault α} {f : α → Reading β} {g : α → Except Fault β}
    (h : ∀ a, answer = .ok a → f a = reached (g a)) :
    reached answer >>= f = reached (answer >>= g) := by
  cases answer with
  | error fault => rfl
  | ok a => exact h a rfl

theorem reached_map {answer : Except Fault α} (f : α → β) :
    f <$> reached answer = reached (answer.map f) := by
  cases answer with
  | error fault => rfl
  | ok a => rfl

/-- What is done with an answer, be it a fault or not, is done with this one. -/
theorem reached_run_bind (answer : Except Fault α) (f : Except Fault α → Checked β) :
    (reached answer).run >>= f = f answer := rfl

/-- An operation that does not panic makes way for what comes after it. -/
theorem lift_bind {x : Checked α} {a : α} (h : x = .ok a) (f : α → Reading β) :
    (liftM x : Reading α) >>= f = f a := by
  subst h
  rfl

/-! ## 3. Reads at any place -/

/-- The `size` bytes from `off` on.  Their end is computed with a check in front of it. -/
def slice (bytes : ByteArray) (off size : Nat) : Reading ByteArray :=
  match addWords 64 off size with
  | .ok stop =>
    if stop ≤ bytes.size then liftM (range bytes off stop)
    else throw (.outOfRange off size bytes.size none)
  | .error _ => throw (.outOfRange off size bytes.size none)

/-- The number that `width` bytes of a row hold from a place on. -/
def digits (part : ByteArray) : (place width : Nat) → Checked Nat
  | _, 0 => .ok 0
  | place, width + 1 => do
    let digit ← index part place
    let rest ← digits part (place + 1) width
    return digit.toNat + 256 * rest

/-- The number held by the `width` bytes from `off` on. -/
def readNumber (bytes : ByteArray) (off width : Nat) : Reading Nat := do
  let part ← slice bytes off width
  digits part 0 width

def readU8 (bytes : ByteArray) (off : Nat) : Reading UInt8 :=
  match bytes[off]? with
  | some byte => pure byte
  | none => throw (.outOfRange off 1 bytes.size none)

def readU16 (bytes : ByteArray) (off : Nat) : Reading UInt16 := UInt16.ofNat <$> readNumber bytes off 2

/-- A number of three bytes, which are shifted to their places. -/
def readU24 (bytes : ByteArray) (off : Nat) : Reading UInt32 := do
  let part ← slice bytes off 3
  let low ← index part 0
  let middle ← index part 1
  let high ← index part 2
  let middle ← shiftUp 32 middle.toNat 8
  let high ← shiftUp 32 high.toNat 16
  return UInt32.ofNat (low.toNat ||| middle ||| high)

def readU32 (bytes : ByteArray) (off : Nat) : Reading UInt32 := UInt32.ofNat <$> readNumber bytes off 4

section Reads

variable {bytes : ByteArray}

/-- **A slice of any size can be asked for at any place.** -/
theorem slice_eq (hbytes : bytes.size ≤ maxSize) (off size : Nat) :
    slice bytes off size = reached (Bytes.slice bytes off size) := by
  unfold maxSize at hbytes
  unfold slice Bytes.slice
  by_cases hfits : off + size ≤ bytes.size
  · rw [addWords_of_lt (by omega), if_pos hfits]
    show (if off + size ≤ bytes.size then _ else _) = _
    rw [if_pos hfits, range_of_le (Nat.le_add_right _ _) hfits]
    rfl
  · rw [if_neg hfits]
    unfold addWords
    split
    case h_1 stop hstop =>
      split at hstop
      · cases hstop
        rw [if_neg hfits]
        rfl
      · cases hstop
    case h_2 => rfl

theorem byteOr0_of_lt {place : Nat} (h : place < bytes.size) :
    Bytes.byteOr0 bytes place = bytes[place].toNat := by
  rw [Bytes.byteOr0, getElem?_pos bytes place h]
  rfl

/-- A byte of a slice is a byte of the row that it was taken from. -/
theorem byteOr0_extract {off size place : Nat} (hplace : place < size)
    (hsize : off + size ≤ bytes.size) :
    Bytes.byteOr0 (bytes.extract off (off + size)) place = Bytes.byteOr0 bytes (off + place) := by
  have hpart : place < (bytes.extract off (off + size)).size := by
    rw [ByteArray.size_extract]
    omega
  rw [byteOr0_of_lt hpart, byteOr0_of_lt (by omega), ByteArray.getElem_extract]

theorem number_extract {off size place width : Nat} (hwidth : place + width ≤ size)
    (hsize : off + size ≤ bytes.size) :
    Bytes.number (bytes.extract off (off + size)) place width =
      Bytes.number bytes (off + place) width := by
  induction width generalizing place with
  | zero => rfl
  | succ width ih =>
    rw [Bytes.number, Bytes.number, byteOr0_extract (by omega) hsize, ih (by omega), Nat.add_assoc]

theorem digits_eq {part : ByteArray} {place width : Nat} (h : place + width ≤ part.size) :
    digits part place width = .ok (Bytes.number part place width) := by
  induction width generalizing place with
  | zero => rfl
  | succ width ih =>
    rw [digits, index_of_lt (by omega), ih (by omega), Bytes.number, byteOr0_of_lt (by omega)]
    rfl

theorem readNumber_eq (hbytes : bytes.size ≤ maxSize) (off width : Nat) :
    readNumber bytes off width = reached (Bytes.readNumber bytes off width) := by
  unfold readNumber
  rw [slice_eq hbytes]
  unfold Bytes.slice Bytes.readNumber
  split
  case isTrue hfits =>
    have hpart : 0 + width ≤ (bytes.extract off (off + width)).size := by
      rw [ByteArray.size_extract]
      omega
    show (liftM (digits (bytes.extract off (off + width)) 0 width) : Reading Nat) = _
    rw [digits_eq hpart, number_extract (by omega) hfits]
    rfl
  case isFalse => rfl

theorem readU8_eq (off : Nat) : readU8 bytes off = reached (Bytes.readU8 bytes off) := by
  unfold readU8 Bytes.readU8 Bytes.readNumber
  by_cases hoff : off < bytes.size
  · rw [getElem?_pos bytes off hoff, if_pos (by omega)]
    have hbyte : UInt8.ofNat (Bytes.number bytes off 1) = bytes[off] := by
      rw [Bytes.number, Bytes.number, byteOr0_of_lt hoff]
      simp
    show reached (.ok bytes[off]) = reached (.ok (UInt8.ofNat (Bytes.number bytes off 1)))
    rw [hbyte]
  · rw [getElem?_neg bytes off hoff, if_neg (by omega)]
    rfl

theorem readU16_eq (hbytes : bytes.size ≤ maxSize) (off : Nat) :
    readU16 bytes off = reached (Bytes.readU16 bytes off) := by
  rw [readU16, readNumber_eq hbytes, reached_map, Bytes.readU16]

theorem readU32_eq (hbytes : bytes.size ≤ maxSize) (off : Nat) :
    readU32 bytes off = reached (Bytes.readU32 bytes off) := by
  rw [readU32, readNumber_eq hbytes, reached_map, Bytes.readU32]

/-- Digits that are shifted to their places make up the number. -/
theorem or_shifted {low middle high : Nat} (hlow : low < 256) (hmiddle : middle < 256) :
    low ||| middle <<< 8 ||| high <<< 16 = low + 256 * (middle + 256 * high) := by
  rw [Nat.or_comm low, ← Nat.shiftLeft_add_eq_or_of_lt (by omega) middle, Nat.or_comm,
    ← Nat.shiftLeft_add_eq_or_of_lt (by rw [Nat.shiftLeft_eq]; omega) high, Nat.shiftLeft_eq,
    Nat.shiftLeft_eq]
  omega

theorem readU24_eq (hbytes : bytes.size ≤ maxSize) (off : Nat) :
    readU24 bytes off = reached (Bytes.readU24 bytes off) := by
  unfold readU24 Bytes.readU24
  rw [slice_eq hbytes]
  unfold Bytes.slice Bytes.readNumber
  split
  case isTrue hfits =>
    generalize hpart : bytes.extract off (off + 3) = part
    have hsize : part.size = 3 := by
      rw [← hpart, ByteArray.size_extract]
      omega
    have hnumber : Bytes.number bytes off 3 =
        part[0].toNat + 256 * (part[1].toNat + 256 * part[2].toNat) := by
      have hwhole : Bytes.number part 0 3 = Bytes.number bytes off 3 := by
        rw [← hpart]
        exact number_extract (by omega) hfits
      rw [← hwhole]
      simp only [Bytes.number, Nat.mul_zero, Nat.add_zero]
      rw [byteOr0_of_lt (by omega), byteOr0_of_lt (by omega), byteOr0_of_lt (by omega)]
    have hlow := part[0].toNat_lt
    have hmiddle := part[1].toNat_lt
    have hhigh := part[2].toNat_lt
    show (do
      let low ← index part 0
      let middle ← index part 1
      let high ← index part 2
      let middle ← shiftUp 32 middle.toNat 8
      let high ← shiftUp 32 high.toNat 16
      return UInt32.ofNat (low.toNat ||| middle ||| high) : Reading UInt32) = _
    rw [lift_bind (index_of_lt (by omega)), lift_bind (index_of_lt (by omega)),
      lift_bind (index_of_lt (by omega)),
      lift_bind (shiftUp_of_lt (by omega) (by rw [Nat.shiftLeft_eq]; omega)),
      lift_bind (shiftUp_of_lt (by omega) (by rw [Nat.shiftLeft_eq]; omega)),
      or_shifted hlow hmiddle, ← hnumber]
    rfl
  case isFalse => rfl

/-- What can be read is inside. -/
theorem le_of_readNumber {off width : Nat} {f : Nat → α} {a : α}
    (h : (Bytes.readNumber bytes off width).map f = .ok a) : off + width ≤ bytes.size := by
  cases hread : Bytes.readNumber bytes off width with
  | error fault => rw [hread] at h; cases h
  | ok n => exact (Bytes.readNumber_eq_ok_iff.mp hread).1

end Reads

end ChipLog.Machine
