/-
# Characters drawn as one

A text can take up fewer or more columns than its characters do one by one: letters join, a
tone of skin colours the picture in front of it, two halves make up a flag, a joiner makes one
picture of many, and a selector turns signs into pictures and back.

A text is measured from its end.  What has been read last stays open, as a `Tail`, for as long
as the characters in front of it may still join it; the columns of everything behind the tail
are settled.  A step (`Context.step`) says how many columns a character settles and what is
open afterwards, so that columns are only ever added up and never taken back.
-/
import ChipLog.Text.CharWidth
import ChipLog.Text.Picture
import ChipLog.Text.Script

namespace ChipLog.Column

/-! ## 1. What stands open -/

/-- The letters that need a joiner, or take one, to be one sign with what is in front. -/
inductive JoiningLetter where
  | hebrewLamed
  | bugineseYa
  | tifinaghConsonant
  | orkhonI
  deriving DecidableEq, Repr

/-- The end of a text that a character in front of it may still join. -/
inductive Tail where
  /-- Nothing to join. -/
  | plain
  /-- The end of a line. -/
  | lineEnd
  /-- An alef, with or without marks in front of it. -/
  | alef
  /-- A letter, with or without a joiner in front of it. -/
  | letter (kind : JoiningLetter) (joined : Bool)
  /-- The Buginese vowel sign in front of a joined letter. -/
  | bugineseVowel
  /-- A Tifinagh consonant behind the sign that joins it. -/
  | tifinaghPair
  /-- A tone of the Lisu script. -/
  | secondTone
  /-- A Khmer letter that can stand under another one. -/
  | underletter
  /-- A tone of skin. -/
  | skinTone
  /-- One half of a flag. -/
  | flagHalf
  /-- Two or more halves of flags. -/
  | flagHalves
  /-- A whole picture. -/
  | picture
  /-- A picture behind a joiner. -/
  | joinedPicture
  /-- The cap of a key, in front of a joined picture. -/
  | joinedKeycap
  /-- One half of a flag, in front of a joined picture. -/
  | joinedFlagHalf
  /-- Halves of flags of an even number, in front of a joined picture. -/
  | joinedFlags
  /-- Halves of flags of an odd number above one, in front of a joined picture. -/
  | joinedFlagsAndHalf
  /-- The end of the code of a region, in front of a joined picture: so many digits, and
  behind them so many letters. -/
  | joinedTag (digits letters : Nat)
  deriving DecidableEq, Repr

/-- The columns of what stands open, were nothing to join it. -/
def Tail.columns : Tail → Nat
  | .plain | .lineEnd => 0
  | .alef | .letter _ _ | .bugineseVowel | .secondTone | .underletter | .flagHalf => 1
  | .tifinaghPair | .skinTone | .flagHalves | .picture | .joinedPicture | .joinedKeycap
  | .joinedFlags | .joinedTag _ _ => 2
  | .joinedFlagHalf | .joinedFlagsAndHalf => 3

/-- Letters that stay open across a mark that is not to be shown. -/
def Tail.passesMarks : Tail → Bool
  | .letter _ _ | .bugineseVowel | .tifinaghPair | .secondTone | .underletter => true
  | _ => false

/-- Letters that stay open across a selector. -/
def Tail.passesSelectors (tail : Tail) : Bool := tail.passesMarks || tail == .alef

/-- Tails that a picture with its selector may be joined to. -/
def Tail.awaitsPicture : Tail → Bool
  | .joinedPicture | .joinedKeycap => true
  | _ => false

/-- The tail that a character begins, if anything can join it. -/
def Tail.ofChar? (c : Char) : Option Tail :=
  if c = '\n' then some .lineEnd
  else if c.toNat ≤ 0xA0 then none
  else if Script.alef.has c then some .alef
  else if c = Script.hebrewLamed then some (.letter .hebrewLamed false)
  else if c = Script.bugineseYa then some (.letter .bugineseYa false)
  else if Script.tifinaghConsonant.has c then some (.letter .tifinaghConsonant false)
  else if c = Script.orkhonI then some (.letter .orkhonI false)
  else if Script.isSecondTone c then some .secondTone
  else if Script.underletter.has c then some .underletter
  else if Picture.isSkinTone c then some .skinTone
  else if Picture.isFlagHalf c then some .flagHalf
  else if Picture.shown.has c then some .picture
  else none

/-! ## 2. Joining -/

/-- How a character joins letters: the columns it settles, and what is open then. -/
def Tail.joinLetter? (c : Char) : Tail → Option (Nat × Tail)
  | .alef =>
    if Script.lam.has c then some (1, .plain)
    else if charWidth c = 0 ∧ c ≠ '\n' ∧ Script.partsLamAlef.has c = false then some (0, .alef)
    else none
  | .letter .hebrewLamed true => if c = Script.hebrewAlef then some (1, .plain) else none
  | .letter .bugineseYa true =>
    if c = Script.bugineseVowelI then some (0, .bugineseVowel) else none
  | .letter .orkhonI true => if c = Script.orkhonNc then some (1, .plain) else none
  | .letter .tifinaghConsonant joined =>
    if c = Script.tifinaghJoiner then some (0, .tifinaghPair)
    else if joined ∧ Script.tifinaghConsonant.has c then some (1, .plain)
    else none
  | .bugineseVowel => if c = Script.bugineseA then some (1, .plain) else none
  | .tifinaghPair => if Script.tifinaghConsonant.has c then some (1, .plain) else none
  | .secondTone => if Script.isFirstTone c then some (1, .plain) else none
  | .underletter => if c = Script.coeng then some (0, .plain) else none
  | _ => none

/-- How a character joins the code of a region that has so many digits and letters: two or
three of them name the region, and the others a part of it. -/
def Tail.joinTag? (c : Char) (digits letters : Nat) : Option (Nat × Tail) :=
  if Picture.isTagLetter c ∧ digits = 0 ∧ letters < 6 then
    some (0, .joinedTag 0 (letters + 1))
  else if Picture.isTagDigit c ∧ digits < 3 ∧ letters ≤ 4 then
    some (0, .joinedTag (digits + 1) letters)
  else if c = Picture.blackFlag ∧ (digits = 3 ∨ digits = 0 ∧ 3 ≤ letters) then
    some (0, .picture)
  else none

/-- How a character joins pictures: the columns it settles, and what is open then.  Halves of
flags are paired from the front, so which of them is joined to a picture behind them depends
on whether their number is even. -/
def Tail.joinPicture? (c : Char) : Tail → Option (Nat × Tail)
  | .skinTone =>
    if Picture.tinted.has c then some (0, .picture)
    else if c = Picture.joiner then some (0, .joinedPicture)
    else none
  | .picture => if c = Picture.joiner then some (0, .joinedPicture) else none
  | .flagHalf => if Picture.isFlagHalf c then some (0, .flagHalves) else none
  | .flagHalves =>
    if Picture.isFlagHalf c then some (1, .flagHalves)
    else if c = Picture.joiner then some (0, .joinedPicture)
    else none
  | .joinedPicture =>
    if c = Picture.keycap then some (0, .joinedKeycap)
    else if Picture.isFlagHalf c then some (0, .joinedFlagHalf)
    else if Picture.isSkinTone c then some (0, .skinTone)
    else if c = Picture.tagEnd then some (0, .joinedTag 0 0)
    else if Picture.shown.has c then some (0, .picture)
    else none
  | .joinedFlagHalf => if Picture.isFlagHalf c then some (0, .joinedFlags) else none
  | .joinedFlags =>
    if Picture.isFlagHalf c then some (2, .joinedFlagsAndHalf)
    else if c = Picture.joiner then some (0, .joinedPicture)
    else none
  | .joinedFlagsAndHalf =>
    if Picture.isFlagHalf c then some (0, .joinedFlags)
    else if c = Picture.joiner then some (1, .joinedPicture)
    else none
  | .joinedTag digits letters => Tail.joinTag? c digits letters
  | _ => none

/-- How a character joins what is open: the columns it settles, and what is open then. -/
def Tail.join? (c : Char) (tail : Tail) : Option (Nat × Tail) :=
  match tail with
  | .lineEnd => if c = '\r' then some (0, .plain) else none
  | .letter kind _ =>
    if c = Picture.joiner then some (0, .letter kind true)
    else if Script.unshownMark.has c then some (0, tail)
    else tail.joinLetter? c
  | _ =>
    if tail.passesMarks && Script.unshownMark.has c then some (0, tail)
    else (tail.joinLetter? c).or (tail.joinPicture? c)

/-! ## 3. A step -/

/-- What stands open behind a place in a text. -/
structure Context where
  tail : Tail
  /-- The selector in front of the tail, if there is one. -/
  selector : Option Picture.Selector
  deriving DecidableEq, Repr

/-- The context at the end of a text. -/
def Context.empty : Context := ⟨.plain, none⟩

/-- Leave a selector aside that says nothing of the character in front of it: the columns that
are settled by that, and the tail that is left. -/
def Context.release (context : Context) : Nat × Tail :=
  if context.selector.isNone || context.tail.passesSelectors then (0, context.tail)
  else (context.tail.columns, .plain)

/-- Put a selector in front of a tail. -/
def Tail.select (selector : Picture.Selector) (tail : Tail) : Nat × Context :=
  if tail.passesSelectors || (selector == .picture && tail.awaitsPicture) then
    (0, ⟨tail, some selector⟩)
  else (tail.columns, ⟨.plain, some selector⟩)

/-- A character in front of a tail: the columns that it settles, and the context in front of
it.  A character that joins nothing settles the tail. -/
def Tail.step (c : Char) (tail : Tail) : Nat × Context :=
  match Picture.Selector.ofChar? c with
  | some selector => tail.select selector
  | none =>
    match tail.join? c with
    | some (settled, joined) => (settled, ⟨joined, none⟩)
    | none =>
      match Tail.ofChar? c with
      | some next => (tail.columns, ⟨next, none⟩)
      | none => (tail.columns + charWidth c, Context.empty)

/-- A character in front of a context: the columns that it settles, and the context in front
of it. -/
def Context.step (c : Char) (context : Context) : Nat × Context :=
  if context.selector = some .picture ∧ Picture.selectable.has c then
    (if context.tail.awaitsPicture then 0 else context.tail.columns, ⟨.picture, none⟩)
  else if context.selector = some .sign ∧ Picture.narrowsToSign c then
    (context.tail.columns + 1, Context.empty)
  else
    let released := context.release
    let stepped := released.2.step c
    (released.1 + stepped.1, stepped.2)

end ChipLog.Column
