/-
# Banks of sample data

Data blocks of the stream layout bring sample data, which is put behind what its bank already
holds.  There are 64 banks.  Bytes are only ever added at the end, so what could be read once can
be read for good (`Grows.byteAt?`, `Grows.range?`).
-/
import ChipLog.Journal

namespace ChipLog

/-- The sample data that a log has brought so far. -/
structure Banks where
  banks : Vector ByteArray 64
  deriving DecidableEq

namespace Banks

/-- Banks without data. -/
def empty : Banks := ⟨Vector.replicate 64 ByteArray.empty⟩

/-- The place of a bank; numbers from 64 on count from the start again. -/
def index (bank : UInt8) : Fin 64 := Fin.ofNat 64 bank.toNat

/-- The bytes of a bank. -/
def bank (banks : Banks) (number : UInt8) : ByteArray := banks.banks[index number]

/-- Whether there is no data at all. -/
def isEmpty (banks : Banks) : Bool := banks.banks.all fun bytes => bytes.size == 0

/-- Put data behind what a bank holds. -/
def append (number : UInt8) (data : ByteArray) (banks : Banks) : Banks :=
  ⟨banks.banks.set (index number) (banks.bank number ++ data)⟩

/-- Put data behind what a bank holds, and report it. -/
def load {ι : Type} (number : UInt8) (data : ByteArray) (banks : Banks) : Logged ι Banks := do
  let banks := banks.append number data
  Logged.note (.bankGrown number data.size (banks.bank number).size)
  pure banks

/-- The byte at a position of a bank. -/
def byteAt? (banks : Banks) (number : UInt8) (position : Nat) : Option UInt8 :=
  (banks.bank number)[position]?

/-- Up to `length` bytes of a bank, and whether there are fewer than that; nothing if they
would begin at the end of the bank or beyond it. -/
def range? (banks : Banks) (number : UInt8) (start length : Nat) : Option (ByteArray × Bool) :=
  let bytes := banks.bank number
  if start < bytes.size then
    some (bytes.extract start (start + min length (bytes.size - start)),
      bytes.size - start < length)
  else none

theorem bank_empty (number : UInt8) : empty.bank number = .empty := Vector.getElem_replicate _

/-! ## What appending does -/

theorem bank_append_self (number : UInt8) (data : ByteArray) (banks : Banks) :
    (banks.append number data).bank number = banks.bank number ++ data := by
  simp [bank, append]

theorem bank_append_of_ne {number other : UInt8} (data : ByteArray) (banks : Banks)
    (h : index other ≠ index number) :
    (banks.append number data).bank other = banks.bank other := by
  have : (index number).val ≠ (index other).val := fun he => h (Fin.ext he).symm
  simp [bank, append, Vector.getElem_set_ne, this]

/-- Bank numbers below 64 stand for banks of their own. -/
theorem bank_append {number other : UInt8} (hnumber : number < 64) (hother : other < 64)
    (data : ByteArray) (banks : Banks) :
    (banks.append number data).bank other =
      if other = number then banks.bank other ++ data else banks.bank other := by
  by_cases hsame : other = number
  · rw [if_pos hsame, hsame, bank_append_self]
  · rw [if_neg hsame]
    refine bank_append_of_ne data banks fun hindex => hsame (UInt8.toNat_inj.mp ?_)
    have hindex : other.toNat % 64 = number.toNat % 64 := congrArg Fin.val hindex
    have hother : other.toNat < 64 := UInt8.lt_iff_toNat_lt.mp hother
    have hnumber : number.toNat < 64 := UInt8.lt_iff_toNat_lt.mp hnumber
    omega

/-! ## Growth -/

/-- Every bank begins with what it held before. -/
def Grows (b c : Banks) : Prop := ∀ number, ∃ more, c.bank number = b.bank number ++ more

theorem Grows.refl (b : Banks) : b.Grows b := fun _ => ⟨.empty, ByteArray.append_empty.symm⟩

theorem Grows.trans {b c d : Banks} (first : b.Grows c) (second : c.Grows d) : b.Grows d := by
  intro number
  obtain ⟨more, hfirst⟩ := first number
  obtain ⟨rest, hsecond⟩ := second number
  exact ⟨more ++ rest, by rw [hsecond, hfirst, ByteArray.append_assoc]⟩

/-- Banks grow as data is put behind what they hold. -/
theorem grows_append (number : UInt8) (data : ByteArray) (banks : Banks) :
    banks.Grows (banks.append number data) := by
  intro other
  by_cases hindex : index other = index number
  · have hsame : ∀ banks : Banks, banks.bank other = banks.bank number := fun banks => by
      simp only [bank, hindex]
    exact ⟨data, by rw [hsame, hsame, bank_append_self]⟩
  · exact ⟨.empty, by rw [bank_append_of_ne data banks hindex, ByteArray.append_empty]⟩

/-- A byte that is there stays there. -/
theorem Grows.byteAt? {b c : Banks} (h : b.Grows c) {number : UInt8} {position : Nat}
    {byte : UInt8} (hbyte : b.byteAt? number position = some byte) :
    c.byteAt? number position = some byte := by
  obtain ⟨more, hmore⟩ := h number
  obtain ⟨hlt, hget⟩ := getElem?_eq_some_iff.mp hbyte
  have hlt' : position < (c.bank number).size := by
    rw [hmore, ByteArray.size_append]
    omega
  refine getElem?_eq_some_iff.mpr ⟨hlt', ?_⟩
  simp only [hmore, ByteArray.getElem_append_left hlt, hget]

/-- A range that is all there begins inside its bank and ends there. -/
theorem range?_eq_some_false_iff {banks : Banks} {number : UInt8} {start length : Nat}
    {data : ByteArray} :
    banks.range? number start length = some (data, false) ↔
      start < (banks.bank number).size ∧ start + length ≤ (banks.bank number).size ∧
        (banks.bank number).extract start (start + length) = data := by
  simp only [range?]
  by_cases hstart : start < (banks.bank number).size
  · rw [if_pos hstart, Option.some.injEq, Prod.mk.injEq, decide_eq_false_iff_not]
    constructor
    · rintro ⟨hdata, hlength⟩
      rw [Nat.min_eq_left (by omega)] at hdata
      exact ⟨hstart, by omega, hdata⟩
    · rintro ⟨-, hlength, hdata⟩
      rw [Nat.min_eq_left (by omega)]
      exact ⟨hdata, by omega⟩
  · rw [if_neg hstart]
    constructor
    · intro h
      cases h
    · rintro ⟨h, -⟩
      exact absurd h hstart

/-- A range that was all there is there still. -/
theorem Grows.range? {b c : Banks} (h : b.Grows c) {number : UInt8} {start length : Nat}
    {data : ByteArray} (hrange : b.range? number start length = some (data, false)) :
    c.range? number start length = some (data, false) := by
  obtain ⟨more, hmore⟩ := h number
  obtain ⟨hstart, hlength, hdata⟩ := range?_eq_some_false_iff.mp hrange
  -- what is behind the old end of the bank is behind the range as well
  have hbehind : more.extract (start - (b.bank number).size)
      (start + length - (b.bank number).size) = .empty :=
    ByteArray.extract_eq_empty_iff.mpr (by omega)
  rw [range?_eq_some_false_iff, hmore, ByteArray.size_append]
  refine ⟨by omega, by omega, ?_⟩
  rw [ByteArray.extract_append, hbehind, ByteArray.append_empty, hdata]

end Banks

end ChipLog
