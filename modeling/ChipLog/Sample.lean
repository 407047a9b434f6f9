/-
# Samples and mixing

A chip delivers a pair of signed 32-bit numbers, of any size.  Such samples are added up one
chip after the other; both the sample that comes in and the new total are limited to the
signed 16-bit range, so a loud chip cannot drown the others for longer than it sounds, and
the total can be stored in sixteen bits without loss.
-/

namespace ChipLog

/-! ## 1. Frames -/

/-- A stereo sample before any limiting. -/
structure RawFrame where
  left : Int32
  right : Int32
  deriving DecidableEq, Repr, Inhabited

/-- A stereo sample as it is written out. -/
structure StereoFrame where
  left : Int16
  right : Int16
  deriving DecidableEq, Repr, Inhabited

/-- Neither side is heard. -/
def RawFrame.silence : RawFrame := ⟨0, 0⟩

/-- Frames of output for one second; waits are counted in such frames. -/
def outputRate : Nat := 44100

/-! ## 2. Mixing -/

/-- Limit a number to the signed 16-bit range. -/
def clamp16 (x : Int32) : Int32 :=
  if x < -32768 then -32768 else if 32767 < x then 32767 else x

/-- Add, and stop at the ends of the 32-bit range instead of wrapping around. -/
def addSaturating (a b : Int32) : Int32 :=
  let sum := a + b
  if 0 ≤ b then if sum < a then Int32.maxValue else sum
  else if a < sum then Int32.minValue else sum

/-- Add one side of a sample to a running total. -/
def mixSample (total sample : Int32) : Int32 := clamp16 (addSaturating total (clamp16 sample))

namespace RawFrame

/-- Add a sample to a running total, side by side. -/
def mix (total sample : RawFrame) : RawFrame :=
  ⟨mixSample total.left sample.left, mixSample total.right sample.right⟩

/-- The total as it is written out. -/
def narrow (total : RawFrame) : StereoFrame := ⟨total.left.toInt16, total.right.toInt16⟩

end RawFrame

end ChipLog
