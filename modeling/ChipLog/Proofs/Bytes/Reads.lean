/-
# Reads one after the other

Whoever reads an image from front to back asks for one `Read` after the other: for a number of one to
four bytes, or for a slice.  A read succeeds exactly if its bytes are in the image; then it brings the
number that they hold, or the bytes themselves, and moves on behind them (`Read.ask_eq`).  Whoever
asks keeps the old position in hand, and stays there if the read fails (`Scan.ask`).

A walk is a list of reads (`Read.walk`).  Reads that succeed cover the image without gaps: the rows of
bytes that their values spell are, one behind the other, what one slice of them all would bring
(`Read.slice_eq_ok_iff_walk`).  So it does not matter into which reads a stretch of the image is cut
(`Read.walk_recut`).
-/
import Mathlib.Algebra.BigOperators.Ring.Finset
import ChipLog.Proofs.Bytes.Rows

namespace ChipLog

open Bytes

/-- The first byte of a number counts once, and every further one 256 times as much as the one
before. -/
theorem Bytes.number_eq_sum (bytes : ByteArray) (off width : Nat) :
    number bytes off width = ∑ i ∈ Finset.range width, byteOr0 bytes (off + i) * 256 ^ i := by
  induction width generalizing off with
  | zero => rfl
  | succ width ih =>
    have hshift : ∀ i, byteOr0 bytes (off + (i + 1)) * 256 ^ (i + 1) =
        256 * (byteOr0 bytes (off + 1 + i) * 256 ^ i) := by
      intro i
      rw [Nat.pow_succ', Nat.mul_left_comm, Nat.add_comm i 1, ← Nat.add_assoc]
    rw [number, ih, Finset.sum_range_succ', Finset.mul_sum]
    simp only [hshift, Nat.add_zero, Nat.pow_zero, Nat.mul_one]
    exact Nat.add_comm _ _

/-- Ask for a scan.  Whoever asks keeps the position in hand and goes on from there if it fails. -/
def Scan.ask {α : Type} (m : Scan α) (bytes : ByteArray) (pos : Nat) : Except Fault α × Nat :=
  match m.on bytes pos with
  | .ok (a, next) => (.ok a, next)
  | .error fault => (.error fault, pos)

/-! ## 1. Reads -/

/-- A read that can be asked for. -/
inductive Read
  | u8
  | u16
  | u24
  | u32
  | slice (size : Nat)
  deriving DecidableEq, Repr

namespace Read

/-- What a read brings: a number, or bytes as they are. -/
inductive Value
  | number (n : Nat)
  | bytes (part : ByteArray)
  deriving DecidableEq

/-- How many bytes a read is for. -/
def width : Read → Nat
  | u8 => 1
  | u16 => 2
  | u24 => 3
  | u32 => 4
  | slice size => size

/-- The scan that carries out a read. -/
def scan : Read → Scan Value
  | u8 => (fun byte => .number byte.toNat) <$> Scan.u8
  | u16 => (fun word => .number word.toNat) <$> Scan.u16
  | u24 => (fun word => .number word.toNat) <$> Scan.u24
  | u32 => (fun word => .number word.toNat) <$> Scan.u32
  | slice size => .bytes <$> Scan.slice size

/-- The value that stands at a position, least significant byte first. -/
def valueAt (bytes : ByteArray) (pos : Nat) (read : Read) : Value :=
  match read with
  | slice size => .bytes (bytes.extract pos (pos + size))
  | _ => .number (∑ i ∈ Finset.range read.width, byteOr0 bytes (pos + i) * 256 ^ i)

section One

variable {bytes : ByteArray} {pos : Nat} {read : Read}

/-- A number that is read, and kept in a word that is wide enough. -/
theorem ask_word {α : Type} {ofNat : Nat → α} {toNat : α → Nat} {width : Nat}
    {take : ByteArray → Nat → Except Fault α}
    (htake : ∀ bytes pos, take bytes pos = (readNumber bytes pos width).map ofNat)
    (hword : ∀ n, n < 256 ^ width → toNat (ofNat n) = n) (bytes : ByteArray) (pos : Nat) :
    ((fun word => Value.number (toNat word)) <$> Scan.take width take).ask bytes pos =
      if pos + width ≤ bytes.size then
        (.ok (.number (∑ i ∈ Finset.range width, byteOr0 bytes (pos + i) * 256 ^ i)), pos + width)
      else (.error (.outOfRange pos width bytes.size none), pos) := by
  have hnumber := hword _ (number_lt bytes pos width)
  rw [Scan.ask, ← bind_pure_comp, Scan.on_bind, Scan.on_take, htake, readNumber, ← number_eq_sum]
  by_cases hfits : pos + width ≤ bytes.size
  · rw [if_pos hfits, if_pos hfits]
    simp only [Except.map, Except.bind, Scan.on_pure, hnumber]
  · rw [if_neg hfits, if_neg hfits]
    rfl

/-- **A read brings what stands at the position, and moves behind it; or it fails and stays.** -/
theorem ask_eq (bytes : ByteArray) (pos : Nat) (read : Read) :
    read.scan.ask bytes pos =
      if pos + read.width ≤ bytes.size then (.ok (read.valueAt bytes pos), pos + read.width)
      else (.error (.outOfRange pos read.width bytes.size none), pos) := by
  cases read with
  | u8 => exact ask_word (fun _ _ => rfl) (fun n hn => UInt8.toNat_ofNat_of_lt' hn) bytes pos
  | u16 => exact ask_word (fun _ _ => rfl) (fun n hn => UInt16.toNat_ofNat_of_lt' hn) bytes pos
  | u24 =>
    exact ask_word (fun _ _ => rfl)
      (fun n hn => UInt32.toNat_ofNat_of_lt' (Nat.lt_trans hn (by decide))) bytes pos
  | u32 => exact ask_word (fun _ _ => rfl) (fun n hn => UInt32.toNat_ofNat_of_lt' hn) bytes pos
  | slice size =>
    rw [Scan.ask, scan, ← bind_pure_comp, Scan.on_bind, Scan.slice, Scan.on_take, Bytes.slice, width]
    by_cases hfits : pos + size ≤ bytes.size
    · rw [if_pos hfits, if_pos hfits]
      rfl
    · rw [if_neg hfits, if_neg hfits]
      rfl

theorem ask_of_le (h : pos + read.width ≤ bytes.size) :
    read.scan.ask bytes pos = (.ok (read.valueAt bytes pos), pos + read.width) := by
  rw [ask_eq, if_pos h]

theorem ask_of_lt (h : bytes.size < pos + read.width) :
    read.scan.ask bytes pos = (.error (.outOfRange pos read.width bytes.size none), pos) := by
  rw [ask_eq, if_neg (Nat.not_le.mpr h)]

end One

/-! ## 2. Walks -/

/-- How many bytes some reads are for. -/
def totalWidth (reads : List Read) : Nat := (reads.map width).sum

/-- Ask for one read after the other, whatever comes of each. -/
def walk (bytes : ByteArray) : List Read → Nat → List (Except Fault Value) × Nat
  | [], pos => ([], pos)
  | read :: reads, pos =>
    let (answer, next) := read.scan.ask bytes pos
    let (answers, last) := walk bytes reads next
    (answer :: answers, last)

/-- The values that some reads bring if all their bytes are there. -/
def valuesAt (bytes : ByteArray) : List Read → Nat → List Value
  | [], _ => []
  | read :: reads, pos => read.valueAt bytes pos :: valuesAt bytes reads (pos + read.width)

/-- The bytes that a value of a read spells. -/
def row (read : Read) : Value → ByteArray
  | .number n => numeral read.width n
  | .bytes part => part

/-- The bytes that some values spell, one behind the other. -/
def rows (reads : List Read) (values : List Value) : ByteArray :=
  joined (List.zipWith row reads values)

@[simp] theorem totalWidth_cons (read : Read) (reads : List Read) :
    totalWidth (read :: reads) = read.width + totalWidth reads := by
  simp [totalWidth]

theorem walk_cons (bytes : ByteArray) (read : Read) (reads : List Read) (pos : Nat) :
    walk bytes (read :: reads) pos =
      ((read.scan.ask bytes pos).1 :: (walk bytes reads (read.scan.ask bytes pos).2).1,
        (walk bytes reads (read.scan.ask bytes pos).2).2) := rfl

/-- A walk in two parts ends where its second part ends. -/
theorem walk_append (bytes : ByteArray) (first second : List Read) (pos : Nat) :
    walk bytes (first ++ second) pos =
      ((walk bytes first pos).1 ++ (walk bytes second (walk bytes first pos).2).1,
        (walk bytes second (walk bytes first pos).2).2) := by
  induction first generalizing pos with
  | nil => rfl
  | cons read first ih => rw [List.cons_append, walk_cons, ih, walk_cons, List.cons_append]

/-- No walk goes back, and none leaves the image. -/
theorem walk_bounds (bytes : ByteArray) (reads : List Read) (pos : Nat) :
    pos ≤ (walk bytes reads pos).2 ∧ (walk bytes reads pos).2 ≤ max pos bytes.size := by
  induction reads generalizing pos with
  | nil => exact ⟨Nat.le_refl _, Nat.le_max_left _ _⟩
  | cons read reads ih =>
    obtain ⟨hfrom, hto⟩ := ih (read.scan.ask bytes pos).2
    rw [walk_cons]
    by_cases hfits : pos + read.width ≤ bytes.size
    · rw [ask_of_le hfits] at hfrom hto ⊢
      omega
    · rw [ask_of_lt (Nat.not_le.mp hfits)] at hfrom hto ⊢
      exact ⟨hfrom, hto⟩

/-! ## 3. Walks that succeed -/

section Success

variable {bytes : ByteArray} {pos : Nat} {reads : List Read} {values : List Value}

/-- If the bytes of all reads are there, all reads succeed. -/
theorem walk_of_le (h : pos + totalWidth reads ≤ bytes.size) :
    walk bytes reads pos = ((valuesAt bytes reads pos).map .ok, pos + totalWidth reads) := by
  induction reads generalizing pos with
  | nil => rfl
  | cons read reads ih =>
    rw [totalWidth_cons, ← Nat.add_assoc] at h
    rw [walk_cons, ask_of_le (by omega), ih h, totalWidth_cons, ← Nat.add_assoc]
    rfl

/-- If all reads succeed, their bytes are there.  Where nothing is read the position is all there is to
go by. -/
theorem le_of_walk (h : (walk bytes reads pos).1 = values.map .ok)
    (hnone : reads = [] → pos ≤ bytes.size) : pos + totalWidth reads ≤ bytes.size := by
  induction reads generalizing pos values with
  | nil => exact hnone rfl
  | cons read reads ih =>
    rw [walk_cons] at h
    by_cases hfits : pos + read.width ≤ bytes.size
    · rw [ask_of_le hfits] at h
      cases values with
      | nil => cases h
      | cons value values =>
        rw [totalWidth_cons, ← Nat.add_assoc]
        exact ih (List.cons.inj h).2 fun _ => hfits
    · rw [ask_of_lt (Nat.not_le.mp hfits)] at h
      cases values <;> cases h

/-- A value spells what stands in its place. -/
theorem standsAt_row {read : Read} (h : pos + read.width ≤ bytes.size) :
    StandsAt bytes pos (read.row (read.valueAt bytes pos)) ∧
      (read.row (read.valueAt bytes pos)).size = read.width := by
  have hnumber := standsAt_numeral_number h
  rw [number_eq_sum] at hnumber
  cases read with
  | slice size =>
    have hslice : pos + size ≤ bytes.size := h
    refine ⟨standsAt_extract hslice, ?_⟩
    simp only [row, valueAt, width, ByteArray.size_extract]
    omega
  | _ => exact ⟨hnumber, size_numeral _ _⟩

/-- Values one behind the other spell what stands one behind the other. -/
theorem standsAt_rows (h : pos + totalWidth reads ≤ bytes.size) :
    StandsAt bytes pos (rows reads (valuesAt bytes reads pos)) ∧
      (rows reads (valuesAt bytes reads pos)).size = totalWidth reads := by
  induction reads generalizing pos with
  | nil => exact ⟨⟨h, ByteArray.extract_same⟩, rfl⟩
  | cons read reads ih =>
    rw [totalWidth_cons, ← Nat.add_assoc] at h
    obtain ⟨hfirst, hwidth⟩ := @standsAt_row bytes pos read (by omega)
    obtain ⟨hrest, htotal⟩ := ih h
    have hrows : rows (read :: reads) (valuesAt bytes (read :: reads) pos) =
        read.row (read.valueAt bytes pos) ++
          rows reads (valuesAt bytes reads (pos + read.width)) := rfl
    rw [hrows]
    constructor
    · exact standsAt_append.mpr ⟨hfirst, by rwa [hwidth]⟩
    · rw [ByteArray.size_append, hwidth, htotal, totalWidth_cons]

/-- **Reads that succeed cover the image without gaps.** -/
theorem walk_covers (h : (walk bytes reads pos).1 = values.map .ok) :
    rows reads values = bytes.extract pos (pos + totalWidth reads) ∧
      (walk bytes reads pos).2 = pos + totalWidth reads := by
  by_cases hreads : reads = []
  · subst hreads
    exact ⟨ByteArray.extract_same.symm, rfl⟩
  · have hle := le_of_walk h fun hnone => absurd hnone hreads
    rw [walk_of_le hle] at h ⊢
    obtain rfl : valuesAt bytes reads pos = values :=
      List.map_injective_iff.mpr (fun _ _ => Except.ok.inj) h
    obtain ⟨hstands, htotal⟩ := standsAt_rows hle
    rw [← htotal, hstands.2]
    exact ⟨rfl, rfl⟩

/-- **Reads and one slice of them all.**  The slice succeeds exactly if all reads do; then they end
at the same position, and the slice brings what the values of the reads spell.  Behind the end of the
image a slice fails even if it is for nothing, and so it must not stand there for no reads at all. -/
theorem slice_eq_ok_iff_walk (hnone : reads = [] → pos ≤ bytes.size) {part : ByteArray} {next : Nat} :
    (Scan.slice (totalWidth reads)).on bytes pos = .ok (part, next) ↔
      ∃ values, walk bytes reads pos = (values.map .ok, next) ∧ rows reads values = part := by
  rw [Scan.slice, Scan.take_eq_ok_iff, slice_eq_ok_iff]
  constructor
  · rintro ⟨⟨hle, rfl⟩, rfl⟩
    have hwalk := walk_of_le hle
    exact ⟨_, hwalk, (walk_covers (congrArg Prod.fst hwalk)).1⟩
  · rintro ⟨values, hwalk, rfl⟩
    obtain ⟨hrows, hnext⟩ := walk_covers (congrArg Prod.fst hwalk)
    rw [hwalk] at hnext
    exact ⟨⟨le_of_walk (congrArg Prod.fst hwalk) hnone, hrows⟩, hnext⟩

/-- **A stretch may be cut into other reads.**  If all reads of a stretch succeed, so do other reads
for as many bytes.  Their values spell the same bytes, and what is read before and behind them stays
the same, and so does the position in the end. -/
theorem walk_recut {before stretch others : List Read} (after : List Read)
    (hnone : stretch = [] → (walk bytes before pos).2 ≤ bytes.size)
    (htotal : totalWidth others = totalWidth stretch)
    (h : (walk bytes stretch (walk bytes before pos).2).1 = values.map .ok) :
    ∃ values' answers last,
      walk bytes (before ++ (stretch ++ after)) pos =
        ((walk bytes before pos).1 ++ (values.map .ok ++ answers), last) ∧
      walk bytes (before ++ (others ++ after)) pos =
        ((walk bytes before pos).1 ++ (values'.map .ok ++ answers), last) ∧
      rows others values' = rows stretch values := by
  have hle := le_of_walk h hnone
  obtain ⟨hrows, hend⟩ := walk_covers h
  have hwalk : walk bytes stretch (walk bytes before pos).2 =
      (values.map .ok, (walk bytes before pos).2 + totalWidth stretch) := Prod.ext h hend
  rw [← htotal] at hle hrows hwalk
  have hothers := walk_of_le hle
  refine ⟨_, (walk bytes after ((walk bytes before pos).2 + totalWidth others)).1,
    (walk bytes after ((walk bytes before pos).2 + totalWidth others)).2, ?_, ?_,
    (walk_covers (congrArg Prod.fst hothers)).1.trans hrows.symm⟩
  · rw [walk_append, walk_append, hwalk]
  · rw [walk_append, walk_append, hothers]

end Success

end Read

end ChipLog
