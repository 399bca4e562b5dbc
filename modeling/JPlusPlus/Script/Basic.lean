import JPlusPlus.Program.Basic

/-!
# Scripts

The part of JavaScript that programs are compiled to. Unlike a program, a script has one operator
`+` that adds numbers and concatenates strings, and every binding has a first value.
-/

namespace JPlusPlus

namespace Script

/-- Expressions of a script. -/
inductive Expr where
  /-- A number, by its digits. -/
  | number (digits : String)
  /-- A string. -/
  | string (value : String)
  /-- The value of a variable. -/
  | ident (name : String)
  /-- An operation in parentheses; `add` stands for `+` on numbers and on strings. -/
  | binary (op : ArithOp) (left right : Expr)
  deriving DecidableEq, Repr

/-- The condition of a conditional or a loop. -/
structure Condition where
  /-- The left side. -/
  left : Expr
  /-- The comparison. -/
  op : CompareOp
  /-- The right side. -/
  right : Expr
  deriving DecidableEq, Repr

mutual

/-- Statements of a script. -/
inductive Stmt where
  /-- `let name = value;` -/
  | letBinding (name : String) (value : Expr)
  /-- `name = value;` -/
  | assign (name : String) (value : Expr)
  /-- `console.log(value);` -/
  | log (value : Expr)
  /-- `if (condition)` with a block and what follows it. -/
  | ifElse (condition : Condition) (body : List Stmt) (orElse : Else)
  /-- `while (condition)` with a block. -/
  | whileLoop (condition : Condition) (body : List Stmt)
  /-- `for (let counter = start; counter < stop; counter++)` with a block. -/
  | forLoop (counter : String) (start stop : Expr) (body : List Stmt)
  /-- `break;` -/
  | break
  /-- `continue;` -/
  | continue

/-- What follows the block of a conditional. -/
inductive Else where
  /-- Nothing. -/
  | nothing
  /-- `else` with a block. -/
  | otherwise (body : List Stmt)
  /-- `else if (condition)` with a block and what follows it. -/
  | elseIf (condition : Condition) (body : List Stmt) (orElse : Else)

end

end Script

/-- A script is a list of statements. -/
structure Script where
  /-- The statements. -/
  body : List Script.Stmt

end JPlusPlus
