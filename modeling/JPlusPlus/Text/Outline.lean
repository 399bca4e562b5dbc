import JPlusPlus.Text.Quoted

/-!
# Outlines

An outline is the labelled tree in which a listing shows a value: records with named fields, values
under a label, lists, bare labels and quoted texts. It has a form on one line and a form that gives
every part a line of its own.
-/

namespace JPlusPlus

/-- A labelled tree. -/
inductive Outline where
  /-- A bare label. -/
  | label (name : String)
  /-- A quoted text. -/
  | text (value : String)
  /-- One part under a label. -/
  | tagged (name : String) (part : Outline)
  /-- A label with named parts. -/
  | record (name : String) (fields : List (String × Outline))
  /-- A list of parts. -/
  | list (items : List Outline)
  deriving Repr

namespace Outline

mutual

/-- The outline on one line. -/
def compact : Outline → String
  | label name => name
  | text value => Text.listed value
  | tagged name part => name ++ "(" ++ compact part ++ ")"
  | record name fields => name ++ " \x7b " ++ compactFields fields ++ " \x7d"
  | list items => "[" ++ compactItems items ++ "]"

/-- The fields of a record on one line. -/
def compactFields : List (String × Outline) → String
  | [] => ""
  | [(name, part)] => name ++ ": " ++ compact part
  | (name, part) :: next :: more =>
    name ++ ": " ++ compact part ++ ", " ++ compactFields (next :: more)

/-- The items of a list on one line. -/
def compactItems : List Outline → String
  | [] => ""
  | [item] => compact item
  | item :: next :: more => compact item ++ ", " ++ compactItems (next :: more)

end

/-- The margin at the given depth, four spaces to the level. -/
def margin (depth : Nat) : String := String.ofList (List.replicate (4 * depth) ' ')

mutual

/-- The outline with a line to every part; lines after the first stand at the given depth. -/
def prettyAt (depth : Nat) : Outline → String
  | label name => name
  | text value => Text.listed value
  | tagged name part =>
    name ++ "(\n" ++ margin (depth + 1) ++ prettyAt (depth + 1) part ++ ",\n" ++ margin depth ++ ")"
  | record name fields =>
    name ++ " \x7b\n" ++ prettyFields (depth + 1) fields ++ margin depth ++ "\x7d"
  | list [] => "[]"
  | list (item :: items) => "[\n" ++ prettyItems (depth + 1) (item :: items) ++ margin depth ++ "]"

/-- The fields of a record, each on a line of its own. -/
def prettyFields (depth : Nat) : List (String × Outline) → String
  | [] => ""
  | (name, part) :: more =>
    margin depth ++ name ++ ": " ++ prettyAt depth part ++ ",\n" ++ prettyFields depth more

/-- The items of a list, each on a line of its own. -/
def prettyItems (depth : Nat) : List Outline → String
  | [] => ""
  | item :: more => margin depth ++ prettyAt depth item ++ ",\n" ++ prettyItems depth more

end

/-- The outline with a line to every part. -/
def pretty (outline : Outline) : String := prettyAt 0 outline

end Outline

end JPlusPlus
