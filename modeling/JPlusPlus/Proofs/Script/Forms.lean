import JPlusPlus.Program.Lower

/-!
# The forms of names and numbers

Names and digits may be any text, and most of what can be said about the text of a script holds only
of scripts whose names and digits have some form: that of a name, that of a run of digits, or just
that of a text without line breaks. What is needed differs from statement to statement, so the two
forms are left open here.

Lowering keeps all names and digits and adds a single number, the 0 of a variable that is given no
first value.
-/

namespace JPlusPlus

/-- The forms that names and numbers are to have. -/
structure Forms where
  /-- Whether a text may be a name. -/
  name : String → Bool
  /-- Whether a text may be the digits of a number. -/
  digits : String → Bool

variable (forms : Forms)

namespace Script

/-! ## Scripts -/

/-- The names and numbers of an expression have the forms. -/
def Expr.hasForms : Expr → Bool
  | number digits => forms.digits digits
  | string _ => true
  | ident name => forms.name name
  | binary _ left right => left.hasForms && right.hasForms

/-- The names and numbers of a condition have the forms. -/
def Condition.hasForms (condition : Condition) : Bool :=
  condition.left.hasForms forms && condition.right.hasForms forms

mutual

/-- The names and numbers of a statement have the forms. -/
def Stmt.hasForms : Stmt → Bool
  | .letBinding name value => forms.name name && value.hasForms forms
  | .assign name value => forms.name name && value.hasForms forms
  | .log value => value.hasForms forms
  | .ifElse condition body orElse =>
    condition.hasForms forms && Stmt.haveForms body && orElse.hasForms
  | .whileLoop condition body => condition.hasForms forms && Stmt.haveForms body
  | .forLoop counter start stop body =>
    forms.name counter && start.hasForms forms && stop.hasForms forms && Stmt.haveForms body
  | .break | .continue => true

/-- The names and numbers of statements have the forms. -/
def Stmt.haveForms : List Stmt → Bool
  | [] => true
  | stmt :: more => stmt.hasForms && Stmt.haveForms more

/-- The names and numbers of what follows a conditional's block have the forms. -/
def Else.hasForms : Else → Bool
  | .nothing => true
  | .otherwise body => Stmt.haveForms body
  | .elseIf condition body orElse =>
    condition.hasForms forms && Stmt.haveForms body && orElse.hasForms

end

/-- The names and numbers of a script have the forms. -/
def hasForms (script : Script) : Bool := Stmt.haveForms forms script.body

end Script

/-! ## Programs -/

/-- The names and numbers of an expression have the forms. -/
def Expr.hasForms : Expr → Bool
  | number digits => forms.digits digits
  | string _ => true
  | ident name => forms.name name
  | binary _ left right | concat left right => left.hasForms && right.hasForms

/-- The names and numbers of a condition have the forms. -/
def Condition.hasForms (condition : Condition) : Bool :=
  condition.left.hasForms forms && condition.right.hasForms forms

mutual

/-- The names and numbers of a statement have the forms. -/
def Stmt.hasForms : Stmt → Bool
  | .declare name value => forms.name name && value.all (Expr.hasForms forms)
  | .assign name value => forms.name name && value.hasForms forms
  | .print value => value.hasForms forms
  | .branch condition body orElse =>
    condition.hasForms forms && Stmt.haveForms body && orElse.hasForms
  | .whileLoop condition body => condition.hasForms forms && Stmt.haveForms body
  | .forLoop counter start stop body =>
    forms.name counter && start.hasForms forms && stop.hasForms forms && Stmt.haveForms body
  | .break | .continue => true

/-- The names and numbers of statements have the forms. -/
def Stmt.haveForms : List Stmt → Bool
  | [] => true
  | stmt :: more => stmt.hasForms && Stmt.haveForms more

/-- The names and numbers of what a conditional does when its condition fails have the forms. -/
def ElseChain.hasForms : ElseChain → Bool
  | .nothing => true
  | .otherwise body => Stmt.haveForms body
  | .elseIf condition body orElse =>
    condition.hasForms forms && Stmt.haveForms body && orElse.hasForms

end

/-- The names and numbers of a program have the forms. -/
def Program.hasForms (program : Program) : Bool := Stmt.haveForms forms program.body

/-! ## Lowering -/

variable {forms}

theorem Expr.hasForms_lower (e : Expr) : e.lower.hasForms forms = e.hasForms forms := by
  induction e with
  | number | string | ident => rfl
  | binary op left right ihl ihr | concat left right ihl ihr =>
    simp only [lower, Script.Expr.hasForms, hasForms, ihl, ihr]

theorem Condition.hasForms_lower (c : Condition) : c.lower.hasForms forms = c.hasForms forms := by
  simp only [lower, Script.Condition.hasForms, hasForms, Expr.hasForms_lower]

theorem hasForms_lowerFirst (hzero : forms.digits "0" = true) (value : Option Expr) :
    (lowerFirst value).hasForms forms = value.all (Expr.hasForms forms) := by
  cases value with
  | none => exact hzero
  | some e => exact e.hasForms_lower

mutual

theorem Stmt.hasForms_lower (hzero : forms.digits "0" = true) :
    ∀ s : Stmt, s.lower.hasForms forms = s.hasForms forms
  | .declare x value => by
    simp only [Stmt.lower, Script.Stmt.hasForms, Stmt.hasForms, hasForms_lowerFirst hzero]
  | .assign x e => by
    simp only [Stmt.lower, Script.Stmt.hasForms, Stmt.hasForms, Expr.hasForms_lower]
  | .print e => by
    simp only [Stmt.lower, Script.Stmt.hasForms, Stmt.hasForms, Expr.hasForms_lower]
  | .branch c body orElse => by
    simp only [Stmt.lower, Script.Stmt.hasForms, Stmt.hasForms, Condition.hasForms_lower,
      Stmt.haveForms_lowerAll hzero body, ElseChain.hasForms_lower hzero orElse]
  | .whileLoop c body => by
    simp only [Stmt.lower, Script.Stmt.hasForms, Stmt.hasForms, Condition.hasForms_lower,
      Stmt.haveForms_lowerAll hzero body]
  | .forLoop x start stop body => by
    simp only [Stmt.lower, Script.Stmt.hasForms, Stmt.hasForms, Expr.hasForms_lower,
      Stmt.haveForms_lowerAll hzero body]
  | .break => by simp only [Stmt.lower, Script.Stmt.hasForms, Stmt.hasForms]
  | .continue => by simp only [Stmt.lower, Script.Stmt.hasForms, Stmt.hasForms]

theorem Stmt.haveForms_lowerAll (hzero : forms.digits "0" = true) : ∀ body : List Stmt,
    Script.Stmt.haveForms forms (Stmt.lowerAll body) = Stmt.haveForms forms body
  | [] => by simp only [Stmt.lowerAll, Script.Stmt.haveForms, Stmt.haveForms]
  | s :: more => by
    simp only [Stmt.lowerAll, Script.Stmt.haveForms, Stmt.haveForms, Stmt.hasForms_lower hzero s,
      Stmt.haveForms_lowerAll hzero more]

theorem ElseChain.hasForms_lower (hzero : forms.digits "0" = true) : ∀ chain : ElseChain,
    chain.lower.hasForms forms = chain.hasForms forms
  | .nothing => by simp only [ElseChain.lower, Script.Else.hasForms, ElseChain.hasForms]
  | .otherwise [] => by
    simp only [ElseChain.lower, Script.Else.hasForms, ElseChain.hasForms, Stmt.haveForms]
  | .otherwise (s :: more) => by
    simp only [ElseChain.lower, Script.Else.hasForms, ElseChain.hasForms,
      Stmt.haveForms_lowerAll hzero (s :: more)]
  | .elseIf c body orElse => by
    simp only [ElseChain.lower, Script.Else.hasForms, ElseChain.hasForms,
      Condition.hasForms_lower, Stmt.haveForms_lowerAll hzero body,
      ElseChain.hasForms_lower hzero orElse]

end

/-- A program and its script have the same forms of names and numbers. -/
theorem Program.hasForms_lower (hzero : forms.digits "0" = true) (p : Program) :
    p.lower.hasForms forms = p.hasForms forms :=
  Stmt.haveForms_lowerAll hzero p.body

end JPlusPlus
