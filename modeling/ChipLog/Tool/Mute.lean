/-
# Choosing a chip to mute

A chip is chosen by its name, and by its number after a colon if it is not the first of its
kind.  The number is judged before the name.
-/
import ChipLog.Chip.Site

namespace ChipLog.Mute

/-- Why a text chooses no chip. -/
inductive Refusal
  | badNumber (number : String)
  | unknownChip (name : String)
  deriving DecidableEq, Repr

/-- The wording of a refusal. -/
def Refusal.message : Refusal → String
  | badNumber number => "invalid chip instance '" ++ number ++ "' (use 1 or 2)"
  | unknownChip name =>
    "unknown chip '" ++ name ++ "' (known: "
      ++ String.intercalate ", " (ChipKind.all.map ChipKind.name) ++ ")"

/-- The rank of a chip number. -/
def rankOf (number : String) : Except Refusal Rank :=
  if number = "1" then .ok .primary
  else if number = "2" then .ok .secondary
  else .error (.badNumber number)

/-- The kind of a chip name. -/
def kindOf (name : String) : Except Refusal ChipKind :=
  match ChipKind.ofName? name with
  | some kind => .ok kind
  | none => .error (.unknownChip name)

/-- The chip that a text chooses. -/
def parse (text : String) : Except Refusal Site := do
  let name := text.toList.takeWhile (· ≠ ':')
  let rank ← match text.toList.dropWhile (· ≠ ':') with
    | _ :: number => rankOf (String.ofList number)
    | [] => pure .primary
  let kind ← kindOf (String.ofList name)
  pure ⟨kind, rank⟩

end ChipLog.Mute
