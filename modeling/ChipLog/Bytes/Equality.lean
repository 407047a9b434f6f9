/-
# Equality of byte arrays

Blocks of data, faults and notices hold byte arrays, and all of them can be compared.  The
comparison is fixed here once, so that it is the same one whatever else a module imports.
-/

namespace ChipLog.Bytes

instance instDecidableEq : DecidableEq ByteArray := ByteArray.instDecidableEq

end ChipLog.Bytes
