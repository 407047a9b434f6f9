/-
# The checksum of packed files

A cyclic redundancy code of 32 bits, lowest bit first, over the generator `0xEDB88320`.
-/

namespace ChipLog.Gzip

/-- Divide out one bit. -/
def checksumBit (sum : UInt32) : UInt32 :=
  if sum % 2 == 1 then (sum >>> 1) ^^^ 0xEDB88320 else sum >>> 1

/-- Take in one byte. -/
def checksumByte (sum : UInt32) (byte : UInt8) : UInt32 :=
  Nat.repeat checksumBit 8 (sum ^^^ byte.toUInt32)

/-- The checksum of a row of bytes. -/
def checksum (bytes : ByteArray) : UInt32 :=
  bytes.data.foldl checksumByte 0xFFFFFFFF ^^^ 0xFFFFFFFF

end ChipLog.Gzip
