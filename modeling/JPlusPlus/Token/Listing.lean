import JPlusPlus.Token.Basic

/-!
# Token listings

A token is shown as the name of its kind and its quoted text. A listing has a line for each token,
with the group of its kind in a first column of ten places.
-/

namespace JPlusPlus

/-- The token as the name of its kind and its quoted text. -/
def Token.describe (token : Token) : String := token.kind.name ++ " " ++ Text.listed token.text

/-- The text filled up with spaces to `width` characters. -/
def padRight (width : Nat) (text : String) : String :=
  text ++ String.ofList (List.replicate (width - text.length) ' ')

/-- The line of a token in a listing. -/
def Token.listingLine (token : Token) : String :=
  padRight 10 token.kind.category ++ " " ++ token.describe ++ "\n"

/-- The listing of `tokens`, a line for each. -/
def Token.listing (tokens : List Token) : String := String.join (tokens.map Token.listingLine)

end JPlusPlus
