import JPlusPlus.Program.Basic
import JPlusPlus.Text.Outline

/-!
# Outlines of programs

How a listing shows a program: each statement and expression under its name, its parts as fields.
-/

namespace JPlusPlus

open Outline (label text tagged record list)

/-- The name of an arithmetic operator in listings. -/
def ArithOp.name : ArithOp → String
  | add => "Add"
  | sub => "Sub"
  | mul => "Mul"
  | div => "Div"

/-- The name of a comparison in listings. -/
def CompareOp.name : CompareOp → String
  | eq => "Eq"
  | notEq => "NotEq"
  | less => "Less"
  | greater => "Greater"
  | lessEq => "LessEq"
  | greaterEq => "GreaterEq"

/-- A part that may be missing. -/
def Outline.optional : Option Outline → Outline
  | none => label "None"
  | some part => tagged "Some" part

/-- The outline of an expression. -/
def Expr.outline : Expr → Outline
  | number digits => tagged "Number" (text digits)
  | string value => tagged "String" (text value)
  | ident name => tagged "Ident" (text name)
  | binary op left right =>
    record "Binary" [("left", left.outline), ("op", label op.name), ("right", right.outline)]
  | concat left right => record "Concat" [("left", left.outline), ("right", right.outline)]

/-- The outline of a condition. -/
def Condition.outline (condition : Condition) : Outline :=
  record "Condition"
    [("left", condition.left.outline), ("op", label condition.op.name),
      ("right", condition.right.outline)]

mutual

/-- The outline of a statement. -/
def Stmt.outline : Stmt → Outline
  | .declare name value =>
    record "Declaration"
      [("name", text name), ("value", Outline.optional (value.map Expr.outline))]
  | .assign name value => record "Assignment" [("name", text name), ("value", value.outline)]
  | .print value => record "Print" [("value", value.outline)]
  | .branch condition body orElse =>
    record "If"
      [("condition", condition.outline), ("body", list (Stmt.outlines body)),
        ("else_ifs", list orElse.branchOutlines),
        ("else_body", Outline.optional orElse.lastOutline?)]
  | .whileLoop condition body =>
    record "While" [("condition", condition.outline), ("body", list (Stmt.outlines body))]
  | .forLoop counter start stop body =>
    record "For"
      [("variable", text counter), ("start", start.outline), ("end", stop.outline),
        ("body", list (Stmt.outlines body))]
  | .break => label "Break"
  | .continue => label "Continue"

/-- The outlines of statements. -/
def Stmt.outlines : List Stmt → List Outline
  | [] => []
  | stmt :: more => stmt.outline :: Stmt.outlines more

/-- The outlines of the further conditions of a conditional. -/
def ElseChain.branchOutlines : ElseChain → List Outline
  | .nothing | .otherwise _ => []
  | .elseIf condition body orElse =>
    record "ElseIf" [("condition", condition.outline), ("body", list (Stmt.outlines body))] ::
      orElse.branchOutlines

/-- The outline of the last body of a conditional. -/
def ElseChain.lastOutline? : ElseChain → Option Outline
  | .nothing => none
  | .otherwise body => some (list (Stmt.outlines body))
  | .elseIf _ _ orElse => orElse.lastOutline?

end

/-- The outline of a program. -/
def Program.outline (program : Program) : Outline :=
  record "Program" [("body", list (Stmt.outlines program.body))]

end JPlusPlus
