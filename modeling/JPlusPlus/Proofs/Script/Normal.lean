import JPlusPlus.Compile.Basic
import JPlusPlus.Proofs.Script.Unique

/-!
# Programs with the same script

Lowering forgets three things: whether a `+` was written as a concatenation, whether a first value
of 0 was written at all, and whether an empty last branch was there. A program is in normal form
when it says none of them in the way that is forgotten. Lowering a program or its normal form is the
same, and the normal form can be raised from the script again, so nothing else is forgotten.

Since a script can be told from its text, two programs are compiled to the same text exactly when
their normal forms are the same.

## Main statements

* `Program.lower_normal`: a program and its normal form have one script.
* `Program.raise_lower`: a script determines the normal form.
-/

namespace JPlusPlus

/-! ## Normal forms -/

/-- The expression with additions for its concatenations. -/
def Expr.normal : Expr → Expr
  | number digits => .number digits
  | string value => .string value
  | ident name => .ident name
  | binary op left right => .binary op left.normal right.normal
  | concat left right => .binary .add left.normal right.normal

/-- The condition with additions for its concatenations. -/
def Condition.normal (condition : Condition) : Condition :=
  ⟨condition.left.normal, condition.op, condition.right.normal⟩

/-- The first value of a variable, written out. -/
def normalFirst : Option Expr → Expr
  | some value => value.normal
  | none => .number "0"

mutual

/-- The normal form of a statement. -/
def Stmt.normal : Stmt → Stmt
  | .declare name value => .declare name (some (normalFirst value))
  | .assign name value => .assign name value.normal
  | .print value => .print value.normal
  | .branch condition body orElse =>
    .branch condition.normal (Stmt.normalAll body) orElse.normal
  | .whileLoop condition body => .whileLoop condition.normal (Stmt.normalAll body)
  | .forLoop counter start stop body =>
    .forLoop counter start.normal stop.normal (Stmt.normalAll body)
  | .break => .break
  | .continue => .continue

/-- The normal forms of statements. -/
def Stmt.normalAll : List Stmt → List Stmt
  | [] => []
  | stmt :: more => stmt.normal :: Stmt.normalAll more

/-- The normal form of what a conditional does when its condition fails: an empty last branch is
left out. -/
def ElseChain.normal : ElseChain → ElseChain
  | .nothing | .otherwise [] => .nothing
  | .otherwise (stmt :: more) => .otherwise (Stmt.normalAll (stmt :: more))
  | .elseIf condition body orElse =>
    .elseIf condition.normal (Stmt.normalAll body) orElse.normal

end

/-- The normal form of a program. -/
def Program.normal (program : Program) : Program := ⟨Stmt.normalAll program.body⟩

/-! ## The script of a normal form -/

theorem Expr.lower_normal (e : Expr) : e.normal.lower = e.lower := by
  induction e with
  | number | string | ident => rfl
  | binary op left right ihl ihr | concat left right ihl ihr =>
    rw [normal, lower, lower, ihl, ihr]

theorem Condition.lower_normal (c : Condition) : c.normal.lower = c.lower := by
  rw [normal, lower, lower, Expr.lower_normal, Expr.lower_normal]

theorem lower_normalFirst (value : Option Expr) : (normalFirst value).lower = lowerFirst value := by
  cases value with
  | none => rfl
  | some e => exact e.lower_normal

mutual

theorem Stmt.lower_normal : ∀ s : Stmt, s.normal.lower = s.lower
  | .declare x value => by
    simp only [Stmt.normal, Stmt.lower, lowerFirst, lower_normalFirst]
  | .assign x e => by simp only [Stmt.normal, Stmt.lower, Expr.lower_normal]
  | .print e => by simp only [Stmt.normal, Stmt.lower, Expr.lower_normal]
  | .branch c body orElse => by
    simp only [Stmt.normal, Stmt.lower, Condition.lower_normal, Stmt.lowerAll_normalAll body,
      ElseChain.lower_normal orElse]
  | .whileLoop c body => by
    simp only [Stmt.normal, Stmt.lower, Condition.lower_normal, Stmt.lowerAll_normalAll body]
  | .forLoop x start stop body => by
    simp only [Stmt.normal, Stmt.lower, Expr.lower_normal, Stmt.lowerAll_normalAll body]
  | .break | .continue => by simp only [Stmt.normal, Stmt.lower]

theorem Stmt.lowerAll_normalAll : ∀ body : List Stmt,
    Stmt.lowerAll (Stmt.normalAll body) = Stmt.lowerAll body
  | [] => by simp only [Stmt.normalAll, Stmt.lowerAll]
  | s :: more => by
    simp only [Stmt.normalAll, Stmt.lowerAll, Stmt.lower_normal s, Stmt.lowerAll_normalAll more]

theorem ElseChain.lower_normal : ∀ chain : ElseChain, chain.normal.lower = chain.lower
  | .nothing | .otherwise [] => by simp only [ElseChain.normal, ElseChain.lower]
  | .otherwise (s :: more) => by
    -- The normal form of a branch that is not empty is not empty either, so it is written out too.
    have hbody := Stmt.lowerAll_normalAll (s :: more)
    rw [Stmt.normalAll] at hbody
    simp only [ElseChain.normal, Stmt.normalAll, ElseChain.lower, hbody]
  | .elseIf c body orElse => by
    simp only [ElseChain.normal, ElseChain.lower, Condition.lower_normal,
      Stmt.lowerAll_normalAll body, ElseChain.lower_normal orElse]

end

/-- A program and its normal form have one script. -/
theorem Program.lower_normal (p : Program) : p.normal.lower = p.lower :=
  congrArg Script.mk (Stmt.lowerAll_normalAll p.body)

/-! ## The normal form of a script -/

namespace Script

/-- The expression with the given script that is in normal form. -/
def Expr.raise : Expr → JPlusPlus.Expr
  | number digits => .number digits
  | string value => .string value
  | ident name => .ident name
  | binary op left right => .binary op left.raise right.raise

/-- The condition with the given script that is in normal form. -/
def Condition.raise (condition : Condition) : JPlusPlus.Condition :=
  ⟨condition.left.raise, condition.op, condition.right.raise⟩

mutual

/-- The statement with the given script that is in normal form. -/
def Stmt.raise : Stmt → JPlusPlus.Stmt
  | .letBinding name value => .declare name (some value.raise)
  | .assign name value => .assign name value.raise
  | .log value => .print value.raise
  | .ifElse condition body orElse => .branch condition.raise (Stmt.raiseAll body) orElse.raise
  | .whileLoop condition body => .whileLoop condition.raise (Stmt.raiseAll body)
  | .forLoop counter start stop body =>
    .forLoop counter start.raise stop.raise (Stmt.raiseAll body)
  | .break => .break
  | .continue => .continue

/-- The statements with the given script that are in normal form. -/
def Stmt.raiseAll : List Stmt → List JPlusPlus.Stmt
  | [] => []
  | stmt :: more => stmt.raise :: Stmt.raiseAll more

/-- What a conditional with the given script does when its condition fails. -/
def Else.raise : Else → ElseChain
  | .nothing => .nothing
  | .otherwise body => .otherwise (Stmt.raiseAll body)
  | .elseIf condition body orElse =>
    .elseIf condition.raise (Stmt.raiseAll body) orElse.raise

end

/-- The program with the given script that is in normal form. -/
def raise (script : Script) : Program := ⟨Stmt.raiseAll script.body⟩

end Script

theorem Expr.raise_lower (e : Expr) : e.lower.raise = e.normal := by
  induction e with
  | number | string | ident => rfl
  | binary op left right ihl ihr | concat left right ihl ihr =>
    rw [lower, Script.Expr.raise, normal, ihl, ihr]

theorem Condition.raise_lower (c : Condition) : c.lower.raise = c.normal := by
  rw [lower, Script.Condition.raise, normal, Expr.raise_lower, Expr.raise_lower]

theorem raise_lowerFirst (value : Option Expr) : (lowerFirst value).raise = normalFirst value := by
  cases value with
  | none => rfl
  | some e => exact e.raise_lower

mutual

theorem Stmt.raise_lower : ∀ s : Stmt, s.lower.raise = s.normal
  | .declare x value => by
    simp only [Stmt.lower, Script.Stmt.raise, Stmt.normal, raise_lowerFirst]
  | .assign x e => by simp only [Stmt.lower, Script.Stmt.raise, Stmt.normal, Expr.raise_lower]
  | .print e => by simp only [Stmt.lower, Script.Stmt.raise, Stmt.normal, Expr.raise_lower]
  | .branch c body orElse => by
    simp only [Stmt.lower, Script.Stmt.raise, Stmt.normal, Condition.raise_lower,
      Stmt.raiseAll_lowerAll body, ElseChain.raise_lower orElse]
  | .whileLoop c body => by
    simp only [Stmt.lower, Script.Stmt.raise, Stmt.normal, Condition.raise_lower,
      Stmt.raiseAll_lowerAll body]
  | .forLoop x start stop body => by
    simp only [Stmt.lower, Script.Stmt.raise, Stmt.normal, Expr.raise_lower,
      Stmt.raiseAll_lowerAll body]
  | .break | .continue => by simp only [Stmt.lower, Script.Stmt.raise, Stmt.normal]

theorem Stmt.raiseAll_lowerAll : ∀ body : List Stmt,
    Script.Stmt.raiseAll (Stmt.lowerAll body) = Stmt.normalAll body
  | [] => by simp only [Stmt.lowerAll, Script.Stmt.raiseAll, Stmt.normalAll]
  | s :: more => by
    simp only [Stmt.lowerAll, Script.Stmt.raiseAll, Stmt.normalAll, Stmt.raise_lower s,
      Stmt.raiseAll_lowerAll more]

theorem ElseChain.raise_lower : ∀ chain : ElseChain, chain.lower.raise = chain.normal
  | .nothing | .otherwise [] => by
    simp only [ElseChain.lower, Script.Else.raise, ElseChain.normal]
  | .otherwise (s :: more) => by
    simp only [ElseChain.lower, Script.Else.raise, ElseChain.normal,
      Stmt.raiseAll_lowerAll (s :: more)]
  | .elseIf c body orElse => by
    simp only [ElseChain.lower, Script.Else.raise, ElseChain.normal, Condition.raise_lower,
      Stmt.raiseAll_lowerAll body, ElseChain.raise_lower orElse]

end

/-- The script of a program determines its normal form. -/
theorem Program.raise_lower (p : Program) : p.lower.raise = p.normal :=
  congrArg Program.mk (Stmt.raiseAll_lowerAll p.body)

theorem Program.lower_eq_iff (p q : Program) : p.lower = q.lower ↔ p.normal = q.normal := by
  constructor
  · intro h
    rw [← raise_lower, ← raise_lower, h]
  · intro h
    rw [← lower_normal, ← lower_normal q, h]

/-! ## The text of a normal form -/

/-- Two programs whose names are words and whose numbers are runs of digits are compiled to the same
text exactly when they have the same normal form. -/
theorem Program.code_eq_iff {p q : Program} (hp : p.hasForms plainForms = true)
    (hq : q.hasForms plainForms = true) : p.code = q.code ↔ p.normal = q.normal := by
  have hzero : plainForms.digits "0" = true := by decide
  rw [← hasForms_lower hzero] at hp hq
  rw [← lower_eq_iff]
  constructor
  · intro h
    exact Script.eq_of_text_eq hp hq h
  · intro h
    rw [code, code, h]

/-- A program with a variable called `let`, in two ways of saying what is forgotten. -/
theorem Program.code_eq_forgotten :
    let condition : Condition := ⟨.ident "let", .eq, .string "\n\x22"⟩
    let p : Program := ⟨[.declare "let" none,
      .branch condition [.print (.concat (.string "a") (.string "b"))] (.otherwise [])]⟩
    let q : Program := ⟨[.declare "let" (some (.number "0")),
      .branch condition [.print (.binary .add (.string "a") (.string "b"))] .nothing]⟩
    p.hasForms plainForms = true ∧ q.hasForms plainForms = true ∧ p.code = q.code := by
  intro condition p q
  have hp : p.hasForms plainForms = true := by decide
  have hq : q.hasForms plainForms = true := by decide
  exact ⟨hp, hq, (code_eq_iff hp hq).mpr rfl⟩

end JPlusPlus
