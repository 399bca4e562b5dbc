import JPlusPlus.Program.Basic
import JPlusPlus.Typing.Table

/-!
# Type checking

Every variable has one type, that of its first value, and operators take operands of their own type
only. The check goes through the statements in order and records declarations in a symbol table. The
bodies of conditionals and of loops under a condition share the table around them, so a declaration
in them holds on after the body; the body of a counting loop has a table of its own, which is given
up after it, with the loop's variable in it as a number.

A fault ends the check. The table reached by then is kept, because a later check may go on with it.
-/

namespace JPlusPlus

/-- Why a program has no types. -/
inductive TypeFault where
  /-- A variable is used that has no type. -/
  | usedBeforeDeclaration (name : String)
  /-- An arithmetic operation has an operand that is no number. -/
  | notNumbers (op : ArithOp) (left right : Ty)
  /-- A concatenation has an operand that is no string. -/
  | notStrings (left right : Ty)
  /-- A variable is declared that has a type. -/
  | alreadyDeclared (name : String)
  /-- A value is assigned to a variable that has no type. -/
  | notDeclared (name : String)
  /-- A value is assigned to a variable of the other type. -/
  | mismatch (name : String) (declared assigned : Ty)
  deriving DecidableEq, Repr

/-- The wording of a fault. -/
def TypeFault.message : TypeFault → String
  | usedBeforeDeclaration name => "Variable \"" ++ name ++ "\" used before declaration"
  | notNumbers op left right =>
    "Operator \"" ++ op.symbol ++ "\" requires numeric operands. Got: " ++ left.name ++ " " ++
      op.symbol ++ " " ++ right.name
  | notStrings left right =>
    "Operator \".\" requires string operands. Got: " ++ left.name ++ " . " ++ right.name
  | alreadyDeclared name => "Variable \"" ++ name ++ "\" already declared"
  | notDeclared name => "Variable \"" ++ name ++ "\" not declared"
  | mismatch name declared assigned =>
    "Type mismatch: Cannot assign " ++ assigned.name ++ " to variable \"" ++ name ++
      "\" of type " ++ declared.name

/-- The type of an expression under a table. -/
def Expr.infer (table : SymbolTable) : Expr → Except TypeFault Ty
  | number _ => return .number
  | string _ => return .string
  | ident name =>
    match table.lookup name with
    | some ty => return ty
    | none => throw (.usedBeforeDeclaration name)
  | binary op left right => do
    let l ← left.infer table
    let r ← right.infer table
    if l.isNumber && r.isNumber then return .number else throw (.notNumbers op l r)
  | concat left right => do
    let l ← left.infer table
    let r ← right.infer table
    if l.isString && r.isString then return .string else throw (.notStrings l r)

/-- A check that reads and changes a symbol table, which survives a fault. -/
abbrev Checker : Type → Type := EStateM TypeFault SymbolTable

namespace Checker

/-- Finds the type of an expression under the table. -/
def infer (e : Expr) : Checker Ty := fun table ↦
  match e.infer table with
  | .ok ty => .ok ty table
  | .error fault => .error fault table

/-- Records the type of a variable. -/
def record (name : String) (ty : Ty) : Checker Unit := modify fun table ↦ table.insert name ty

/-- Runs a check and gives up what it changed in the table, also when it fails. -/
def isolated (check : Checker Unit) : Checker Unit := fun outer ↦
  match check outer with
  | .ok value _ => .ok value outer
  | .error fault _ => .error fault outer

/-- Checks a declaration and records its variable, which is a number when it has no first value. -/
def declare (name : String) (value : Option Expr) : Checker Unit := do
  let ty ←
    match value with
    | some e => infer e
    | none => pure .number
  if (← get).contains name then throw (.alreadyDeclared name)
  record name ty

/-- Checks an assignment. -/
def assign (name : String) (value : Expr) : Checker Unit := do
  match (← get).lookup name with
  | none => throw (.notDeclared name)
  | some declared =>
    let assigned ← infer value
    if assigned ≠ declared then throw (.mismatch name declared assigned)

/-- Checks a condition, whose sides may be of any types. -/
def condition (condition : Condition) : Checker Unit := do
  let _ ← infer condition.left
  let _ ← infer condition.right

end Checker

mutual

/-- Checks a statement. -/
def Stmt.check : Stmt → Checker Unit
  | .declare name value => Checker.declare name value
  | .assign name value => Checker.assign name value
  | .print value => do
    let _ ← Checker.infer value
  | .branch condition body orElse => do
    Checker.condition condition
    Stmt.checkAll body
    orElse.check
  | .whileLoop condition body => do
    Checker.condition condition
    Stmt.checkAll body
  | .forLoop counter start stop body =>
    Checker.isolated do
      let _ ← Checker.infer start
      let _ ← Checker.infer stop
      Checker.record counter .number
      Stmt.checkAll body
  | .break | .continue => pure ()

/-- Checks statements in order. -/
def Stmt.checkAll : List Stmt → Checker Unit
  | [] => pure ()
  | stmt :: more => do
    stmt.check
    Stmt.checkAll more

/-- Checks what a conditional does when its condition fails. -/
def ElseChain.check : ElseChain → Checker Unit
  | .nothing => pure ()
  | .otherwise body => Stmt.checkAll body
  | .elseIf condition body orElse => do
    Checker.condition condition
    Stmt.checkAll body
    orElse.check

end

/-- Checks a program from the empty table. -/
def Program.check (program : Program) : Except TypeFault Unit :=
  match Stmt.checkAll program.body SymbolTable.empty with
  | .ok _ _ => .ok ()
  | .error fault _ => .error fault

end JPlusPlus
