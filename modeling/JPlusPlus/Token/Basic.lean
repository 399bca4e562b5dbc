import JPlusPlus.Text.Quoted

/-!
# Tokens

The words and marks of a J++ source. A token has a kind and a text; the scanner gives every fixed
kind its own spelling as text, but a token may carry any text, and what reads tokens looks at the
kind first.
-/

namespace JPlusPlus

/-- The words that are not names. -/
inductive Keyword where
  /-- Opens a declaration. -/
  | ye
  /-- Opens a print statement. -/
  | bol
  /-- Opens a conditional. -/
  | agar
  /-- Opens a further condition of a conditional. -/
  | nahiAgar
  /-- Opens the last branch of a conditional. -/
  | nahi
  /-- Opens a loop under a condition. -/
  | jabtak
  /-- Opens a counting loop. -/
  | keLiye
  /-- Stands between the bounds of a counting loop. -/
  | tak
  /-- Leaves a loop. -/
  | break
  /-- Goes on with the next round of a loop. -/
  | continue
  deriving DecidableEq, Repr

/-- The marks that stand between operands or after a name. -/
inductive Operator where
  /-- `+` -/
  | plus
  /-- `-` -/
  | minus
  /-- `*` -/
  | star
  /-- `/` -/
  | slash
  /-- `.` -/
  | dot
  /-- `=` -/
  | assign
  /-- `!` -/
  | bang
  /-- `==` -/
  | eqEq
  /-- `!=` -/
  | notEq
  /-- `<` -/
  | less
  /-- `<=` -/
  | lessEq
  /-- `>` -/
  | greater
  /-- `>=` -/
  | greaterEq
  deriving DecidableEq, Repr

/-- The marks that group. -/
inductive Delimiter where
  /-- An opening parenthesis. -/
  | lparen
  /-- A closing parenthesis. -/
  | rparen
  /-- An opening brace. -/
  | lbrace
  /-- A closing brace. -/
  | rbrace
  deriving DecidableEq, Repr

/-- The kinds of token. -/
inductive Kind where
  /-- A name. -/
  | ident
  /-- A run of digits. -/
  | integer
  /-- A quoted text; the token's text is what the quotes enclose, with escapes resolved. -/
  | string
  /-- A mark that groups. -/
  | delimiter (delimiter : Delimiter)
  /-- An operator. -/
  | operator (operator : Operator)
  /-- A keyword. -/
  | keyword (keyword : Keyword)
  deriving DecidableEq, Repr

/-- A token: its kind and its text. -/
structure Token where
  /-- What the token is. -/
  kind : Kind
  /-- What the token says. -/
  text : String
  deriving DecidableEq, Repr

/-! ## Spellings -/

/-- How a keyword is written; those of two words with one space. -/
def Keyword.spelling : Keyword → String
  | ye => "ye"
  | bol => "bol"
  | agar => "agar"
  | nahiAgar => "nahi agar"
  | nahi => "nahi"
  | jabtak => "jabtak"
  | keLiye => "ke liye"
  | tak => "tak"
  | .break => "break"
  | .continue => "continue"

/-- How an operator is written. -/
def Operator.spelling : Operator → String
  | plus => "+"
  | minus => "-"
  | star => "*"
  | slash => "/"
  | dot => "."
  | assign => "="
  | bang => "!"
  | eqEq => "=="
  | notEq => "!="
  | less => "<"
  | lessEq => "<="
  | greater => ">"
  | greaterEq => ">="

/-- How a delimiter is written. -/
def Delimiter.spelling : Delimiter → String
  | lparen => "("
  | rparen => ")"
  | lbrace => "\x7b"
  | rbrace => "\x7d"

/-- The one spelling of a kind, for the kinds that have one. -/
def Kind.spelling? : Kind → Option String
  | ident | integer | string => none
  | delimiter d => some d.spelling
  | operator o => some o.spelling
  | keyword k => some k.spelling

/-- The token of a keyword. -/
def Keyword.token (k : Keyword) : Token := ⟨.keyword k, k.spelling⟩

/-- The token of an operator. -/
def Operator.token (o : Operator) : Token := ⟨.operator o, o.spelling⟩

/-- The token of a delimiter. -/
def Delimiter.token (d : Delimiter) : Token := ⟨.delimiter d, d.spelling⟩

/-! ## Names of kinds -/

/-- The name of a keyword in listings. -/
def Keyword.name : Keyword → String
  | ye => "Ye"
  | bol => "Bol"
  | agar => "Agar"
  | nahiAgar => "NahiAgar"
  | nahi => "Nahi"
  | jabtak => "Jabtak"
  | keLiye => "KeLiye"
  | tak => "Tak"
  | .break => "Break"
  | .continue => "Continue"

/-- The name of an operator in listings. -/
def Operator.name : Operator → String
  | plus => "Plus"
  | minus => "Minus"
  | star => "Star"
  | slash => "Slash"
  | dot => "Dot"
  | assign => "Assign"
  | bang => "Bang"
  | eqEq => "EqEq"
  | notEq => "NotEq"
  | less => "Less"
  | lessEq => "LessEq"
  | greater => "Greater"
  | greaterEq => "GreaterEq"

/-- The name of a delimiter in listings. -/
def Delimiter.name : Delimiter → String
  | lparen => "LParen"
  | rparen => "RParen"
  | lbrace => "LBrace"
  | rbrace => "RBrace"

namespace Kind

/-- The name of a kind in listings. -/
def name : Kind → String
  | ident => "Ident"
  | integer => "IntLiteral"
  | string => "StringLiteral"
  | delimiter d => d.name
  | operator o => o.name
  | keyword k => k.name

/-- Whether a kind is a keyword. -/
def isKeyword : Kind → Bool
  | keyword _ => true
  | _ => false

/-- Whether a kind is an operator. -/
def isOperator : Kind → Bool
  | operator _ => true
  | _ => false

/-- The group of a kind in listings. -/
def category : Kind → String
  | ident => "identifier"
  | integer | string => "literal"
  | delimiter _ => "delimiter"
  | operator _ => "operator"
  | keyword _ => "keyword"

/-- Every kind. -/
def all : List Kind :=
  [ident, integer, string] ++
    [Delimiter.lparen, .rparen, .lbrace, .rbrace].map delimiter ++
    [Operator.plus, .minus, .star, .slash, .dot, .assign, .bang, .eqEq, .notEq, .less, .lessEq,
      .greater, .greaterEq].map operator ++
    [Keyword.ye, .bol, .agar, .nahiAgar, .nahi, .jabtak, .keLiye, .tak, .break,
      .continue].map keyword

/-- The kind of a given name. -/
def ofName? (name : String) : Option Kind := all.find? fun kind ↦ kind.name = name

theorem mem_all (kind : Kind) : kind ∈ all := by
  cases kind with
  | ident | integer | string => decide
  | delimiter d => cases d <;> decide
  | operator o => cases o <;> decide
  | keyword k => cases k <;> decide

end Kind

end JPlusPlus
