import JPlusPlus.Token.Basic

/-!
# Programs

A J++ program is a list of statements over two sorts of values, numbers and strings. Numbers are
kept as the digits that write them, of any length. Names and digits may be any text here; what the
parser reads has the usual forms.
-/

namespace JPlusPlus

/-- The arithmetic operators. -/
inductive ArithOp where
  /-- Addition. -/
  | add
  /-- Subtraction. -/
  | sub
  /-- Multiplication. -/
  | mul
  /-- Division. -/
  | div
  deriving DecidableEq, Repr

/-- The comparisons. -/
inductive CompareOp where
  /-- Equal. -/
  | eq
  /-- Not equal. -/
  | notEq
  /-- Less. -/
  | less
  /-- Greater. -/
  | greater
  /-- Less or equal. -/
  | lessEq
  /-- Greater or equal. -/
  | greaterEq
  deriving DecidableEq, Repr

/-- Expressions. -/
inductive Expr where
  /-- A number, by its digits. -/
  | number (digits : String)
  /-- A string. -/
  | string (value : String)
  /-- The value of a variable. -/
  | ident (name : String)
  /-- An arithmetic operation on two numbers. -/
  | binary (op : ArithOp) (left right : Expr)
  /-- The concatenation of two strings. -/
  | concat (left right : Expr)
  deriving DecidableEq, Repr

/-- A condition compares two expressions. -/
structure Condition where
  /-- The left side. -/
  left : Expr
  /-- The comparison. -/
  op : CompareOp
  /-- The right side. -/
  right : Expr
  deriving DecidableEq, Repr

mutual

/-- Statements. -/
inductive Stmt where
  /-- Declares a variable, with or without an initial value. -/
  | declare (name : String) (value : Option Expr)
  /-- Gives a variable a new value. -/
  | assign (name : String) (value : Expr)
  /-- Prints a value. -/
  | print (value : Expr)
  /-- Runs `body` under a condition, and otherwise what `orElse` says. -/
  | branch (condition : Condition) (body : List Stmt) (orElse : ElseChain)
  /-- Runs `body` again and again while a condition holds. -/
  | whileLoop (condition : Condition) (body : List Stmt)
  /-- Runs `body` with `counter` counting from `start` up to, but not including, `stop`. -/
  | forLoop (counter : String) (start stop : Expr) (body : List Stmt)
  /-- Leaves the innermost loop. -/
  | break
  /-- Goes on with the next round of the innermost loop. -/
  | continue

/-- What a conditional does when its condition fails. -/
inductive ElseChain where
  /-- Nothing. -/
  | nothing
  /-- It runs `body`. -/
  | otherwise (body : List Stmt)
  /-- It tries a further condition. -/
  | elseIf (condition : Condition) (body : List Stmt) (orElse : ElseChain)

end

/-- A program is a list of statements. -/
structure Program where
  /-- The statements. -/
  body : List Stmt

/-! ## Symbols of operators -/

/-- The mark of an arithmetic operator, which is the same in source and output. -/
def ArithOp.symbol : ArithOp → String
  | add => "+"
  | sub => "-"
  | mul => "*"
  | div => "/"

/-- The mark of a comparison, which is the same in source and output. -/
def CompareOp.symbol : CompareOp → String
  | eq => "=="
  | notEq => "!="
  | less => "<"
  | greater => ">"
  | lessEq => "<="
  | greaterEq => ">="

/-! ## The branches of a conditional -/

namespace ElseChain

/-- The further conditions of a conditional with their bodies. -/
def branches : ElseChain → List (Condition × List Stmt)
  | nothing | otherwise _ => []
  | elseIf condition body orElse => (condition, body) :: orElse.branches

/-- The body that runs when every condition fails. -/
def last? : ElseChain → Option (List Stmt)
  | nothing => none
  | otherwise body => some body
  | elseIf _ _ orElse => orElse.last?

/-- The chain of the given further conditions and the given last body. -/
def ofBranches (branches : List (Condition × List Stmt)) (last : Option (List Stmt)) : ElseChain :=
  branches.foldr (fun (condition, body) orElse ↦ elseIf condition body orElse)
    (match last with
      | none => nothing
      | some body => otherwise body)

theorem ofBranches_branches_last? (chain : ElseChain) :
    ofBranches chain.branches chain.last? = chain :=
  match chain with
  | nothing => rfl
  | otherwise _ => rfl
  | elseIf condition body orElse =>
    congrArg (elseIf condition body) (ofBranches_branches_last? orElse)

end ElseChain

end JPlusPlus
