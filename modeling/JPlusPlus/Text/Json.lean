import JPlusPlus.Text.Quoted

/-!
# JSON

The part of JSON that results are written in: truth values, strings, arrays and objects, the
fields of an object in the order in which they are given. There are two written forms, one without
any blanks and one that gives every item a line of its own.
-/

namespace JPlusPlus

/-- A JSON value without numbers and `null`. -/
inductive Json where
  /-- A truth value. -/
  | bool (value : Bool)
  /-- A string. -/
  | str (value : String)
  /-- An array. -/
  | arr (items : List Json)
  /-- An object, as its fields in order. -/
  | obj (fields : List (String × Json))
  deriving Repr

namespace Json

/-- A hexadecimal digit, in lower case. -/
def hexDigit (n : Nat) : Char := Nat.digitChar (n % 16)

/-- How a character of a string is written: only the quote, the backslash and the characters below
U+0020 are escaped. -/
def escapeChar (c : Char) : List Char :=
  if c = '\x22' then ['\\', '\x22']
  else if c = '\\' then ['\\', '\\']
  else if c = '\x08' then ['\\', 'b']
  else if c = '\x0C' then ['\\', 'f']
  else if c = '\n' then ['\\', 'n']
  else if c = '\r' then ['\\', 'r']
  else if c = '\t' then ['\\', 't']
  else if c.toNat < 0x20 then ['\\', 'u', '0', '0', hexDigit (c.toNat / 16), hexDigit c.toNat]
  else [c]

/-- A string as it is written. -/
def writeString (text : String) : String := Text.quoted escapeChar text

/-- A truth value as it is written. -/
def writeBool : Bool → String
  | true => "true"
  | false => "false"

mutual

/-- The written form without blanks. -/
def compact : Json → String
  | bool value => writeBool value
  | str value => writeString value
  | arr items => "[" ++ compactItems items ++ "]"
  | obj fields => "\x7b" ++ compactFields fields ++ "\x7d"

/-- The items of an array without blanks, divided by commas. -/
def compactItems : List Json → String
  | [] => ""
  | [item] => compact item
  | item :: next :: more => compact item ++ "," ++ compactItems (next :: more)

/-- The fields of an object without blanks, divided by commas. -/
def compactFields : List (String × Json) → String
  | [] => ""
  | [(name, value)] => writeString name ++ ":" ++ compact value
  | (name, value) :: next :: more =>
    writeString name ++ ":" ++ compact value ++ "," ++ compactFields (next :: more)

end

/-- A new line at the given depth, two spaces to the level. -/
def newLine (depth : Nat) : String := "\n" ++ String.ofList (List.replicate (2 * depth) ' ')

mutual

/-- The written form with a line to every item, at the given depth. -/
def prettyAt (depth : Nat) : Json → String
  | bool value => writeBool value
  | str value => writeString value
  | arr [] => "[]"
  | arr (item :: items) =>
    "[" ++ prettyItems (depth + 1) (item :: items) ++ newLine depth ++ "]"
  | obj [] => "\x7b\x7d"
  | obj (field :: fields) =>
    "\x7b" ++ prettyFields (depth + 1) (field :: fields) ++ newLine depth ++ "\x7d"

/-- The items of an array, each on a line of its own. -/
def prettyItems (depth : Nat) : List Json → String
  | [] => ""
  | [item] => newLine depth ++ prettyAt depth item
  | item :: next :: more =>
    newLine depth ++ prettyAt depth item ++ "," ++ prettyItems depth (next :: more)

/-- The fields of an object, each on a line of its own. -/
def prettyFields (depth : Nat) : List (String × Json) → String
  | [] => ""
  | [(name, value)] => newLine depth ++ writeString name ++ ": " ++ prettyAt depth value
  | (name, value) :: next :: more =>
    newLine depth ++ writeString name ++ ": " ++ prettyAt depth value ++ "," ++
      prettyFields depth (next :: more)

end

/-- The written form with a line to every item. -/
def pretty (value : Json) : String := prettyAt 0 value

end Json

end JPlusPlus
