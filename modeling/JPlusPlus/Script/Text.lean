import JPlusPlus.Script.Basic
import JPlusPlus.Text.Lines
import JPlusPlus.Text.Quoted

/-!
# The text of scripts

How a script is written. Every statement starts a line, the lines of a block stand two spaces
further in than the line that opens it, and every operation has its parentheses. Blocks are set in
line by line, whatever makes a line break: the second line of a name that holds one is set in too.
-/

namespace JPlusPlus.Script

/-- How a character of a string is written. -/
def escapeChar (c : Char) : List Char :=
  if c = '\\' then ['\\', '\\']
  else if c = '\x22' then ['\\', '\x22']
  else if c = '\n' then ['\\', 'n']
  else if c = '\t' then ['\\', 't']
  else if c = '\r' then ['\\', 'r']
  else [c]

/-- A string as it is written. -/
def quote (value : String) : String := Text.quoted escapeChar value

/-- An expression as it is written. -/
def Expr.text : Expr → String
  | number digits => digits
  | string value => quote value
  | ident name => name
  | binary op left right => "(" ++ left.text ++ " " ++ op.symbol ++ " " ++ right.text ++ ")"

/-- A condition as it is written. -/
def Condition.text (condition : Condition) : String :=
  condition.left.text ++ " " ++ condition.op.symbol ++ " " ++ condition.right.text

/-- A block around the text of its statements. -/
def block (statements : String) : String := "\x7b\n" ++ Text.indent "  " statements ++ "\x7d"

/-- What a counting loop does with its counter, as it is written. -/
def counting (counter : String) (start stop : Expr) : String :=
  "let " ++ counter ++ " = " ++ start.text ++
    ("; " ++ counter ++ " < " ++ stop.text ++ ("; " ++ counter ++ "++"))

mutual

/-- A statement as it is written. -/
def Stmt.text : Stmt → String
  | .letBinding name value => "let " ++ name ++ " = " ++ value.text ++ ";"
  | .assign name value => name ++ " = " ++ value.text ++ ";"
  | .log value => "console.log(" ++ value.text ++ ");"
  | .ifElse condition body orElse =>
    "if (" ++ condition.text ++ ") " ++ block (Stmt.texts body) ++ orElse.text
  | .whileLoop condition body => "while (" ++ condition.text ++ ") " ++ block (Stmt.texts body)
  | .forLoop counter start stop body =>
    "for (" ++ counting counter start stop ++ ") " ++ block (Stmt.texts body)
  | .break => "break;"
  | .continue => "continue;"

/-- Statements as they are written, divided by line feeds. -/
def Stmt.texts : List Stmt → String
  | [] => ""
  | [stmt] => stmt.text
  | stmt :: next :: more => stmt.text ++ "\n" ++ Stmt.texts (next :: more)

/-- What follows the block of a conditional, as it is written. -/
def Else.text : Else → String
  | .nothing => ""
  | .otherwise body => " else " ++ block (Stmt.texts body)
  | .elseIf condition body orElse =>
    " else if (" ++ condition.text ++ ") " ++ block (Stmt.texts body) ++ orElse.text

end

/-- The text of a script. -/
def text (script : Script) : String := Stmt.texts script.body

end JPlusPlus.Script
