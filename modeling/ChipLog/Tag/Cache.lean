/-
# A tag that is read once

The first look for a tag that does not end in a fault is remembered, with or without a tag,
and every later look gives the same answer.  Faults are not remembered.
-/
import ChipLog.Tag.Basic

namespace ChipLog

/-- The answer of the first successful look, if there was one. -/
structure TagCache where
  answer : Option (Option Tag) := none
  deriving DecidableEq

namespace TagCache

/-- Whether an answer is remembered. -/
def isParsed (cache : TagCache) : Bool := cache.answer.isSome

/-- Answer from memory, or look for the tag and remember the answer. -/
def get {ι : Type} (bytes : ByteArray) (offset : Option Nat) (cache : TagCache) :
    Logged ι (Except Fault (Option Tag) × TagCache) :=
  match cache.answer with
  | some answer => pure (.ok answer, cache)
  | none => do
    match ← Tag.lookUp bytes offset with
    | .ok answer => pure (.ok answer, ⟨some answer⟩)
    | .error fault => pure (.error fault, cache)

end TagCache

end ChipLog
