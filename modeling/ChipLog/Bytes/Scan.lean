/-
# Reading an image from front to back

A scan reads an image at a position and moves the position past what it has read.  A read
that fails leaves no new position behind, so whoever kept the old one stands where the read
began.

Nothing but a jump moves a position backwards: every scan that is put together from the
reads below is `Forward`, and that is what makes a walk through a command stream end.
-/
import ChipLog.Bytes.LittleEndian

namespace ChipLog

/-- A reader of an image: from a position to a value and the next position, or to a fault. -/
abbrev Scan (α : Type) : Type := ReaderT ByteArray (StateT Nat (Except Fault)) α

namespace Scan

variable {α β : Type}

/-- Run a scan over an image from a position. -/
def on (m : Scan α) (bytes : ByteArray) (pos : Nat) : Except Fault (α × Nat) := m bytes pos

/-! ## 1. Reads -/

/-- Read `width` bytes in the way of `read` and move past them. -/
def take (width : Nat) (read : ByteArray → Nat → Except Fault α) : Scan α :=
  fun bytes pos => (read bytes pos).map fun a => (a, pos + width)

def u8 : Scan UInt8 := take 1 Bytes.readU8

def u16 : Scan UInt16 := take 2 Bytes.readU16

/-- A number of three bytes. -/
def u24 : Scan UInt32 := take 3 Bytes.readU24

def u32 : Scan UInt32 := take 4 Bytes.readU32

/-- The next `size` bytes as they are. -/
def slice (size : Nat) : Scan ByteArray := take size fun bytes pos => Bytes.slice bytes pos size

/-! ## 2. Moves and failures -/

/-- Move on by `n` bytes, which need not be in the image. -/
def advance (n : Nat) : Scan Unit := fun _ pos => .ok ((), pos + n)

/-- The last address a position can have. -/
def lastAddress : Nat := 0xFFFFFFFFFFFFFFFF

/-- Move on by `n` bytes, but not beyond the last address. -/
def skip (n : Nat) : Scan Unit := fun _ pos => .ok ((), min (pos + n) lastAddress)

/-- Jump to a position. -/
def seek (pos : Nat) : Scan Unit := fun _ _ => .ok ((), pos)

def fail (fault : Fault) : Scan α := fun _ _ => .error fault

/-- Name the place that a scan reads, for its faults. -/
def within (place : Place) (m : Scan α) : Scan α :=
  fun bytes pos => (m bytes pos).mapError (Fault.within place)

/-! ## 3. Scans that never move back -/

/-- A scan that ends no earlier than it began. -/
def Forward (m : Scan α) : Prop :=
  ∀ bytes pos a next, m.on bytes pos = .ok (a, next) → pos ≤ next

theorem on_bind (m : Scan α) (f : α → Scan β) (bytes : ByteArray) (pos : Nat) :
    (m >>= f).on bytes pos = (m.on bytes pos).bind fun r => (f r.1).on bytes r.2 := rfl

theorem on_pure (a : α) (bytes : ByteArray) (pos : Nat) :
    (pure a : Scan α).on bytes pos = .ok (a, pos) := rfl

theorem on_take (width : Nat) (read : ByteArray → Nat → Except Fault α) (bytes : ByteArray)
    (pos : Nat) :
    (take width read).on bytes pos = (read bytes pos).map fun a => (a, pos + width) := rfl

theorem on_within (place : Place) (m : Scan α) (bytes : ByteArray) (pos : Nat) :
    (m.within place).on bytes pos = (m.on bytes pos).mapError (Fault.within place) := rfl

theorem Forward.pure (a : α) : Forward (pure a : Scan α) := by
  intro bytes pos b next h
  rw [on_pure] at h
  cases h
  exact Nat.le_refl _

theorem Forward.bind {m : Scan α} {f : α → Scan β} (hm : Forward m) (hf : ∀ a, Forward (f a)) :
    Forward (m >>= f) := by
  intro bytes pos b next h
  rw [on_bind] at h
  cases hr : m.on bytes pos with
  | error e => rw [hr] at h; cases h
  | ok r =>
    rw [hr] at h
    exact Nat.le_trans (hm bytes pos r.1 r.2 hr) (hf r.1 bytes r.2 b next h)

theorem Forward.map {m : Scan α} (f : α → β) (hm : Forward m) : Forward (f <$> m) :=
  hm.bind fun a => Forward.pure (f a)

theorem Forward.fail (fault : Fault) : Forward (fail fault : Scan α) := by
  intro bytes pos a next h
  cases h

/-- A read that succeeds has moved on by its width. -/
theorem take_eq_ok_iff {width : Nat} {read : ByteArray → Nat → Except Fault α}
    {bytes : ByteArray} {pos : Nat} {a : α} {next : Nat} :
    (take width read).on bytes pos = .ok (a, next) ↔
      read bytes pos = .ok a ∧ next = pos + width := by
  rw [on_take]
  cases read bytes pos <;> simp [Except.map, eq_comm]

theorem Forward.take (width : Nat) (read : ByteArray → Nat → Except Fault α) :
    Forward (take width read) := by
  intro bytes pos a next h
  have := (take_eq_ok_iff.mp h).2
  omega

theorem Forward.advance (n : Nat) : Forward (advance n) := by
  intro bytes pos a next h
  cases h
  exact Nat.le_add_right _ _

theorem Forward.within {m : Scan α} (place : Place) (hm : Forward m) :
    Forward (m.within place) := by
  intro bytes pos a next h
  rw [on_within] at h
  refine hm bytes pos a next ?_
  cases hr : m.on bytes pos with
  | error e => rw [hr] at h; cases h
  | ok r => rw [hr] at h; exact h

end Scan

end ChipLog
