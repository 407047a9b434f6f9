/-
# Wave files

Frames are written as uncompressed stereo samples of sixteen bits, behind a header of 44
bytes.
-/
import ChipLog.Bytes.LittleEndian
import ChipLog.Sample

namespace ChipLog.Wave

/-- The bytes of a frame: left, then right. -/
def frameBytes (frame : StereoFrame) : List UInt8 :=
  Bytes.digits 2 frame.left.toUInt16.toNat ++ Bytes.digits 2 frame.right.toUInt16.toNat

@[simp] theorem length_frameBytes (frame : StereoFrame) : (frameBytes frame).length = 4 := by
  simp [frameBytes]

/-- A mark of four letters. -/
def mark (letters : String) : List UInt8 := letters.toUTF8.data.toList

/-- The header in front of `frames` frames. -/
def header (frames : Nat) : List UInt8 :=
  mark "RIFF" ++ Bytes.digits 4 (36 + frames * 4) ++ mark "WAVE"
    ++ mark "fmt " ++ Bytes.digits 4 16
    ++ Bytes.digits 2 1 ++ Bytes.digits 2 2
    ++ Bytes.digits 4 outputRate ++ Bytes.digits 4 (outputRate * 4)
    ++ Bytes.digits 2 4 ++ Bytes.digits 2 16
    ++ mark "data" ++ Bytes.digits 4 (frames * 4)

/-- A whole file. -/
def encode (frames : Array StereoFrame) : ByteArray :=
  frames.foldl
    (fun bytes frame => (frameBytes frame).foldl ByteArray.push bytes)
    (header frames.size).toByteArray

end ChipLog.Wave
