/-
# Stretches of a command stream

From any place of an image, one command can be read after the other until the one that ends the
stream.  What is read on the way is the `Stretch` that begins there.  There need not be one: a
place may lie beyond the end of the image, or in the middle of a command, or the commands that
follow may run into a byte that stands for none.

A stretch is known from the bytes of the image alone.  It takes some of them (`stretch?_bounds`), and
what makes reading it come to an end is that every command ends inside the image and behind its own
beginning (`parse_bounds`).
-/
import ChipLog.Proofs.Command.Grammar

namespace ChipLog.Command

/-- A command begins inside the image, takes at least one byte, and ends inside the image. -/
theorem parse_bounds {image : ByteArray} {pos length : Nat} {command : Command}
    (h : parse image pos = .ok (command, length)) :
    pos < pos + length ∧ pos + length ≤ image.size := by
  obtain ⟨hpos, hlength⟩ := parse_progress h
  obtain ⟨-, slack, hrow, hsize⟩ := parse_eq_ok_iff.mp h
  have hle := hrow.le
  omega

/-- A command waits for 65535 frames at most. -/
theorem duration_lt (command : Command) : command.duration < 2 ^ 16 := by
  have hzero : 0 < 2 ^ 16 := Nat.two_pow_pos 16
  cases command with
  | wait frames => exact frames.toNat_lt
  | waitSixtieth =>
    show 735 < 2 ^ 16
    decide
  | waitFiftieth =>
    show 882 < 2 ^ 16
    decide
  | waitShort n => exact Nat.lt_trans (Nat.succ_lt_succ n.toNat_lt) (by decide)
  | dacWrite frames => exact Nat.lt_trans frames.toNat_lt (by decide)
  | _ => exact hzero

/-! ## 1. Stretches -/

/-- Commands up to one that ends the stream, and the place behind it. -/
structure Stretch where
  commands : List Command
  stop : Nat
  deriving DecidableEq

/-- The frames that the commands of a stretch wait for. -/
def Stretch.duration (stretch : Stretch) : Nat :=
  stretch.commands.foldr (fun command frames => command.duration + frames) 0

/-- The stretch that begins at `start`, if the stream comes to an end there. -/
def stretch? (image : ByteArray) (start : Nat) : Option Stretch :=
  match _hparse : parse image start with
  | .error _ => none
  | .ok (.endOfData, length) => some ⟨[.endOfData], start + length⟩
  | .ok (command, length) =>
    (stretch? image (start + length)).map fun rest => ⟨command :: rest.commands, rest.stop⟩
termination_by image.size - start
decreasing_by
  have := parse_progress _hparse
  omega

section Equations

variable {image : ByteArray} {start length : Nat} {command : Command} {stretch : Stretch}

/-- A command begins the stretch that is its own if it is the last one, and that goes on behind it
if it is not. -/
theorem stretch?_of_parse (h : parse image start = .ok (command, length)) :
    stretch? image start =
      if command = .endOfData then some ⟨[command], start + length⟩
      else (stretch? image (start + length)).map fun rest =>
        ⟨command :: rest.commands, rest.stop⟩ := by
  rw [stretch?]
  split
  case h_1 hparse => rw [h] at hparse; cases hparse
  case h_2 hparse =>
    rw [h] at hparse
    cases hparse
    rw [if_pos rfl]
  case h_3 hne hparse =>
    rw [h] at hparse
    cases hparse
    rw [if_neg hne]

theorem stretch?_of_endOfData (h : parse image start = .ok (.endOfData, length)) :
    stretch? image start = some ⟨[.endOfData], start + length⟩ := by
  rw [stretch?_of_parse h, if_pos rfl]

theorem stretch?_of_command (h : parse image start = .ok (command, length))
    (hne : command ≠ .endOfData) :
    stretch? image start = (stretch? image (start + length)).map fun rest =>
      ⟨command :: rest.commands, rest.stop⟩ := by
  rw [stretch?_of_parse h, if_neg hne]

/-- **A stretch takes some bytes of the image, and no others.** -/
theorem stretch?_bounds (h : stretch? image start = some stretch) :
    start < stretch.stop ∧ stretch.stop ≤ image.size := by
  fun_induction stretch? image start generalizing stretch with
  | case1 => cases h
  | case2 start length hparse =>
    cases h
    exact parse_bounds hparse
  | case3 start command length hne hparse ih =>
    obtain ⟨rest, hrest, rfl⟩ := Option.map_eq_some_iff.mp h
    have hcommand := parse_bounds hparse
    have hbounds := ih hrest
    exact ⟨by simp only; omega, hbounds.2⟩

end Equations

end ChipLog.Command
