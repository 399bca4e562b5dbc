import JPlusPlus.Program.Basic
import JPlusPlus.Script.Basic

/-!
# From programs to scripts

Every statement of a program becomes one statement of its script. Three differences between programs
are lost: concatenation becomes `+`, which is right for operands that were checked to be strings; a
variable without a first value starts at 0; and a last branch that is empty is left out.
-/

namespace JPlusPlus

/-- The script of an expression. -/
def Expr.lower : Expr → Script.Expr
  | number digits => .number digits
  | string value => .string value
  | ident name => .ident name
  | binary op left right => .binary op left.lower right.lower
  | concat left right => .binary .add left.lower right.lower

/-- The script of a condition. -/
def Condition.lower (condition : Condition) : Script.Condition :=
  ⟨condition.left.lower, condition.op, condition.right.lower⟩

/-- The first value of a variable, which is 0 when none is given. -/
def lowerFirst : Option Expr → Script.Expr
  | some value => value.lower
  | none => .number "0"

mutual

/-- The script of a statement. -/
def Stmt.lower : Stmt → Script.Stmt
  | .declare name value => .letBinding name (lowerFirst value)
  | .assign name value => .assign name value.lower
  | .print value => .log value.lower
  | .branch condition body orElse => .ifElse condition.lower (Stmt.lowerAll body) orElse.lower
  | .whileLoop condition body => .whileLoop condition.lower (Stmt.lowerAll body)
  | .forLoop counter start stop body =>
    .forLoop counter start.lower stop.lower (Stmt.lowerAll body)
  | .break => .break
  | .continue => .continue

/-- The script of statements. -/
def Stmt.lowerAll : List Stmt → List Script.Stmt
  | [] => []
  | stmt :: more => stmt.lower :: Stmt.lowerAll more

/-- The script of what a conditional does when its condition fails. -/
def ElseChain.lower : ElseChain → Script.Else
  | .nothing => .nothing
  | .otherwise [] => .nothing
  | .otherwise (stmt :: more) => .otherwise (Stmt.lowerAll (stmt :: more))
  | .elseIf condition body orElse =>
    .elseIf condition.lower (Stmt.lowerAll body) orElse.lower

end

/-- The script of a program. -/
def Program.lower (program : Program) : Script := ⟨Stmt.lowerAll program.body⟩

end JPlusPlus
