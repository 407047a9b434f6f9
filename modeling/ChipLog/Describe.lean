/-
# Descriptions of the state

One-line texts that show the state of the sound generator and of the sockets of a board, for
whoever looks for a fault.  A description is a name and, in braces, fields with their values.
-/
import ChipLog.Board.Basic
import ChipLog.Psg.Basic

namespace ChipLog

namespace Describe

/-! ## 1. Forms -/

/-- Values in brackets. -/
def list (values : List String) : String := "[" ++ String.intercalate ", " values ++ "]"

/-- A name and its fields in braces. -/
def record (name : String) (fields : List (String × String)) : String :=
  name ++ " \x7b " ++ String.intercalate ", " (fields.map fun field => field.1 ++ ": " ++ field.2)
    ++ " \x7d"

/-- A name and some of its fields in braces. -/
def partialRecord (name : String) (fields : List (String × String)) : String :=
  name ++ " \x7b "
    ++ String.intercalate ", " ((fields.map fun field => field.1 ++ ": " ++ field.2) ++ [".."])
    ++ " \x7d"

def nat (n : Nat) : String := Numeral.decimal 0 n

def int (n : Int) : String := if n < 0 then "-" ++ nat n.natAbs else nat n.natAbs

def bool (b : Bool) : String := if b then "true" else "false"

def nats (values : List Nat) : String := list (values.map nat)

end Describe

open Describe

/-! ## 2. Sockets -/

/-- The state of a socket. -/
def Socket.describe {σ : Type} (socket : Socket σ) : String :=
  record "ChipAdapter"
    [("enabled", bool socket.isActive),
      ("clock", nat socket.hz.toNat),
      ("output_enabled", bool socket.audible),
      ("output_step", nat socket.rate),
      ("input_step", nat outputRate),
      ("accumulator", nat socket.phase)]

/-- The state of both sockets of a kind. -/
def Pair.describe {σ : Type} (pair : Pair σ) : String :=
  record "DualChipAdapter" [("chips", list [pair.primary.describe, pair.secondary.describe])]

/-- The state of all sockets. -/
def Board.describe {σ : Type} (board : Board σ) : String :=
  partialRecord "ChipRack" [("slots", list (board.slots.toList.map Pair.describe))]

/-! ## 3. The sound generator -/

/-- The state of the sound generator. -/
def Psg.describe (psg : Psg) : String :=
  record "Sn76489"
    [("periods", nats psg.periods.toList),
      ("noise_control", nat psg.noiseControl),
      ("attenuation", nats psg.attenuation.toList),
      ("latched_channel", nat psg.latch.channel.val),
      ("latched_volume", bool psg.latch.volume),
      ("counters", nats (psg.oscillators.toList.map Psg.Oscillator.counter)),
      ("polarity", list (psg.oscillators.toList.map fun osc => bool osc.high)),
      ("lfsr", nat psg.noise.bits),
      ("feedback", nat psg.noise.taps),
      ("shift_width", nat psg.noise.width),
      ("stereo", nat psg.stereo.toNat),
      ("output", list [int psg.output.left.toInt, int psg.output.right.toInt])]

end ChipLog
