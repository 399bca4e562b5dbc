/-!
# Lines

A line ends at a line feed, and a carriage return right before that line feed belongs to the line's
end, not to the line. A text that ends in a line feed has no empty line after it, and the empty text
has no lines at all. A carriage return anywhere else is an ordinary character.
-/

namespace JPlusPlus.Text

/-- The lines of a text, without their ends. -/
def splitLines : List Char → List (List Char)
  | [] => []
  | '\n' :: cs => [] :: splitLines cs
  | '\r' :: '\n' :: cs => [] :: splitLines cs
  | c :: cs =>
    match splitLines cs with
    | [] => [[c]]
    | line :: more => (c :: line) :: more

/-- The text with `margin` before each line and a line feed after it. -/
def indentLines (margin text : List Char) : List Char :=
  (splitLines text).flatMap fun line ↦ margin ++ line ++ ['\n']

/-- The text with `margin` before each line and a line feed after it. -/
def indent (margin text : String) : String :=
  String.ofList (indentLines margin.toList text.toList)

end JPlusPlus.Text
