/-
# Lines of a text

A line ends with a newline, or with a carriage return and a newline; the last line may end
with the text.  A text that ends with a newline has no empty line after it.
-/

namespace ChipLog.Lines

/-- Take a carriage return off the end of a line, which is given backwards. -/
def dropReturn : List Char → List Char
  | '\r' :: line => line
  | line => line

/-- The lines of a text, whose first line has begun with the characters `line`, backwards. -/
def splitFrom (line : List Char) : List Char → List String
  | [] => if line.isEmpty then [] else [String.ofList line.reverse]
  | '\n' :: rest => String.ofList (dropReturn line).reverse :: splitFrom [] rest
  | c :: rest => splitFrom (c :: line) rest

/-- The lines of a text. -/
def split (text : String) : List String := splitFrom [] text.toList

end ChipLog.Lines
