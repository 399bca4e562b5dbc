import JPlusPlus.Program.Parse.Expr

/-!
# Reading programs

Statements follow each other without marks between them. Where no statement starts, a single token
is passed over; a fault inside a statement ends the reading. A body runs to its closing brace or to
the end of the tokens.

Loops may be left and continued only from inside: `inLoop` says whether the tokens at hand stand in
the body of a loop, however many conditionals lie between.
-/

namespace JPlusPlus

/-! ## Statements without bodies, and the heads of the others -/

/-- Reads a declaration after `ye`. -/
def readDeclaration (tokens : List Token) : Outcome Stmt tokens.length := do
  let ⟨name, us₁, h₁⟩ ← expect .ident .noDeclaredName tokens
  match us₁, h₁ with
  | [], h₁ => return ⟨.declare name.text none, [], h₁⟩
  | t :: us₂, h₁ =>
    if t.kind = .operator .assign then do
      let ⟨value, us₃, h₃⟩ ← readExpr us₂
      return ⟨.declare name.text (some value), us₃, length_lt_of_cons_lt h₁ h₃⟩
    else return ⟨.declare name.text none, t :: us₂, h₁⟩

/-- Reads an assignment after its name. -/
def readAssignment (name : String) (tokens : List Token) : Outcome Stmt tokens.length := do
  let ⟨_, us₁, h₁⟩ ← expect (.operator .assign) (.noAssign name) tokens
  let ⟨value, us₂, h₂⟩ ← readExpr us₁
  return ⟨.assign name value, us₂, length_lt_trans h₁ h₂⟩

/-- Reads a print statement after `bol`. -/
def readPrint (tokens : List Token) : Outcome Stmt tokens.length :=
  if tokens.isEmpty then .error ⟨.noPrintedValue, tokens⟩
  else do
    let ⟨value, us, h⟩ ← readExpr tokens
    return ⟨.print value, us, h⟩

/-- Reads a condition and the brace that opens the body under it. -/
def readHead (place : BodyPlace) (tokens : List Token) : Outcome Condition tokens.length := do
  let ⟨condition, us₁, h₁⟩ ← readCondition tokens
  let ⟨_, us₂, h₂⟩ ← expect (.delimiter .lbrace) (.noBody place) us₁
  return ⟨condition, us₂, length_lt_trans h₁ h₂⟩

/-- The variable and the bounds of a counting loop. -/
structure Count where
  /-- The variable. -/
  counter : String
  /-- Its first value. -/
  start : Expr
  /-- The value it stays below. -/
  stop : Expr

/-- Reads the variable and the bounds of a counting loop, and the brace that opens its body, after
`ke liye`. -/
def readCount (tokens : List Token) : Outcome Count tokens.length := do
  let ⟨counter, us₁, h₁⟩ ← expect .ident .noCounter tokens
  let ⟨_, us₂, h₂⟩ ← expect (.operator .assign) .noCounterAssign us₁
  let ⟨start, us₃, h₃⟩ ← readExpr us₂
  let ⟨_, us₄, h₄⟩ ← expect (.keyword .tak) .noSecondBound us₃
  let ⟨stop, us₅, h₅⟩ ← readExpr us₄
  let ⟨_, us₆, h₆⟩ ← expect (.delimiter .lbrace) (.noBody .bounds) us₅
  return ⟨⟨counter.text, start, stop⟩, us₆, by omega⟩

/-! ## Statements with bodies -/

mutual

/-- Reads the statement that `t` starts, or passes over `t` when it starts none. -/
def readStmt (inLoop : Bool) (t : Token) (us : List Token) :
    Outcome (Option Stmt) (us.length + 1) :=
  match t.kind with
  | .keyword .ye => return (← readDeclaration us).map some (length_le_succ us)
  | .keyword .bol => return (← readPrint us).map some (length_le_succ us)
  | .keyword .agar => do
    let ⟨condition, us₁, h₁⟩ ← readHead .condition us
    let ⟨body, us₂, h₂⟩ ← readBlock inLoop us₁
    let ⟨orElse, us₃, h₃⟩ ← readElse inLoop us₂
    return ⟨some (.branch condition body orElse), us₃, length_lt_succ_trans_trans h₁ h₂ h₃⟩
  | .keyword .jabtak => do
    let ⟨condition, us₁, h₁⟩ ← readHead .condition us
    let ⟨body, us₂, h₂⟩ ← readBlock true us₁
    return ⟨some (.whileLoop condition body), us₂, length_lt_succ_trans h₁ h₂⟩
  | .keyword .keLiye => do
    let ⟨count, us₁, h₁⟩ ← readCount us
    let ⟨body, us₂, h₂⟩ ← readBlock true us₁
    return ⟨some (.forLoop count.counter count.start count.stop body), us₂,
      length_lt_succ_trans h₁ h₂⟩
  | .keyword .break =>
    if inLoop then return ⟨some .break, us, length_lt_cons t us⟩
    else .error ⟨.outsideLoop, t :: us⟩
  | .keyword .continue =>
    if inLoop then return ⟨some .continue, us, length_lt_cons t us⟩
    else .error ⟨.outsideLoop, t :: us⟩
  | .ident => return (← readAssignment t.text us).map some (length_le_succ us)
  | _ => return ⟨none, us, length_lt_cons t us⟩
termination_by (us.length + 1, 0)

/-- Reads the statements of a body, after its opening brace and up to its end. -/
def readBlock (inLoop : Bool) (tokens : List Token) : Outcome (List Stmt) (tokens.length + 1) :=
  match tokens with
  | [] => return ⟨[], [], length_nil_lt⟩
  | t :: us =>
    if t.kind = .delimiter .rbrace then return ⟨[], us, length_lt_cons_succ t us⟩
    else do
      let ⟨stmt, us₁, h₁⟩ ← readStmt inLoop t us
      let ⟨body, us₂, h₂⟩ ← readBlock inLoop us₁
      return ⟨stmt.toList ++ body, us₂, length_lt_cons_succ_of_lt h₁ h₂⟩
termination_by (tokens.length, 1)

/-- Reads what follows the body of a conditional: further conditions and a last body. -/
def readElse (inLoop : Bool) (tokens : List Token) : Outcome ElseChain (tokens.length + 1) :=
  match tokens with
  | [] => return ⟨.nothing, [], length_nil_lt⟩
  | t :: us =>
    match t.kind with
    | .keyword .nahiAgar => do
      let ⟨condition, us₁, h₁⟩ ← readHead .elseIf us
      let ⟨body, us₂, h₂⟩ ← readBlock inLoop us₁
      let ⟨orElse, us₃, h₃⟩ ← readElse inLoop us₂
      return ⟨.elseIf condition body orElse, us₃,
        Nat.lt_succ_of_lt (length_lt_succ_trans_trans h₁ h₂ h₃)⟩
    | .keyword .nahi => do
      let ⟨_, us₁, h₁⟩ ← expect (.delimiter .lbrace) (.noBody .otherwise) us
      let ⟨body, us₂, h₂⟩ ← readBlock inLoop us₁
      return ⟨.otherwise body, us₂, Nat.lt_succ_of_lt (length_lt_succ_trans h₁ h₂)⟩
    | _ => return ⟨.nothing, t :: us, length_cons_lt t us⟩
termination_by (tokens.length, 1)

end

/-! ## Programs -/

/-- Reads statements to the end of the tokens. -/
def readStmts (tokens : List Token) : Except ParseFailure (List Stmt) :=
  match tokens with
  | [] => return []
  | t :: us => do
    let ⟨stmt, us₁, _⟩ ← readStmt false t us
    let body ← readStmts us₁
    return stmt.toList ++ body
termination_by tokens.length

/-- The program of the tokens, or why there is none. -/
def parse (tokens : List Token) : Except ParseFault Program :=
  match readStmts tokens with
  | .ok body => .ok ⟨body⟩
  | .error failure => .error failure.fault

end JPlusPlus
