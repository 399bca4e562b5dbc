import JPlusPlus.Program.Parse.Reading

/-!
# Reading expressions

Three levels of operators bind more and more tightly: sums and differences, concatenations,
products and quotients. Each level is a chain of operands of the next level, grouped to the left;
the operands of the tightest level are atoms: numbers, strings, names and expressions in
parentheses.
-/

namespace JPlusPlus

/-- The levels of operators, from the loosest to the tightest. -/
inductive Level where
  /-- Sums and differences. -/
  | sum
  /-- Concatenations. -/
  | concat
  /-- Products and quotients. -/
  | product
  deriving DecidableEq, Repr

/-- How tight a level is not: one for the tightest, and more for the looser ones. -/
def Level.rank : Level → Nat
  | product => 1
  | concat => 2
  | sum => 3

/-- What a token of the given kind makes of the operands beside it, at the level it belongs to. -/
def Level.join? : Level → Kind → Option (Expr → Expr → Expr)
  | sum, .operator .plus => some (.binary .add)
  | sum, .operator .minus => some (.binary .sub)
  | concat, .operator .dot => some .concat
  | product, .operator .star => some (.binary .mul)
  | product, .operator .slash => some (.binary .div)
  | _, _ => none

/-- The comparison that a token of the given kind stands for. -/
def CompareOp.ofKind? : Kind → Option CompareOp
  | .operator .eqEq => some eq
  | .operator .notEq => some notEq
  | .operator .less => some less
  | .operator .greater => some greater
  | .operator .lessEq => some lessEq
  | .operator .greaterEq => some greaterEq
  | _ => none

/-- The digits of a number without leading zeros; zero keeps one. -/
def normalDigits (digits : String) : String :=
  match digits.toList.dropWhile (· = '0') with
  | [] => "0"
  | c :: cs => String.ofList (c :: cs)

mutual

/-- Reads an atom. -/
def readAtom (tokens : List Token) : Outcome Expr tokens.length :=
  match tokens with
  | [] => .error ⟨.endOfExpression, []⟩
  | t :: us =>
    match t.kind with
    | .delimiter .lparen => do
      let ⟨e, us₁, h₁⟩ ← readLevel .sum us
      let ⟨_, us₂, h₂⟩ ← expect (.delimiter .rparen) .noClosingParen us₁
      return ⟨e, us₂, length_lt_cons_trans h₁ h₂⟩
    | .integer => return ⟨.number (normalDigits t.text), us, length_lt_cons t us⟩
    | .string => return ⟨.string t.text, us, length_lt_cons t us⟩
    | .ident => return ⟨.ident t.text, us, length_lt_cons t us⟩
    | _ => .error ⟨.unexpectedToken t.text, t :: us⟩
termination_by (tokens.length, 0)

/-- Reads an operand of a chain of the given level. -/
def readOperand (level : Level) (tokens : List Token) : Outcome Expr tokens.length :=
  match level with
  | .sum => readLevel .concat tokens
  | .concat => readLevel .product tokens
  | .product => readAtom tokens
termination_by (tokens.length, 2 * level.rank)
decreasing_by all_goals simp [Prod.lex_def, Level.rank]

/-- Reads a chain of the given level. -/
def readLevel (level : Level) (tokens : List Token) : Outcome Expr tokens.length := do
  let ⟨left, us, h⟩ ← readOperand level tokens
  let r ← readTail level left us
  return r.map id h
termination_by (tokens.length, 2 * level.rank + 1)

/-- Goes on with a chain of the given level after `left`, as far as its operators go. -/
def readTail (level : Level) (left : Expr) (tokens : List Token) :
    Outcome Expr (tokens.length + 1) :=
  match tokens with
  | [] => return ⟨left, [], length_nil_lt⟩
  | t :: us =>
    match level.join? t.kind with
    | none => return ⟨left, t :: us, length_cons_lt t us⟩
    | some join => do
      let ⟨right, us₁, h₁⟩ ← readOperand level us
      let r ← readTail level (join left right) us₁
      return r.map id (length_succ_le_cons h₁)
termination_by (tokens.length, 0)

end

/-- Reads an expression, which is as long as the operators after its operands carry it. -/
def readExpr (tokens : List Token) : Outcome Expr tokens.length := readLevel .sum tokens

/-- Reads a condition. -/
def readCondition (tokens : List Token) : Outcome Condition tokens.length := do
  let ⟨left, us₁, h₁⟩ ← readExpr tokens
  match us₁, h₁ with
  | [], _ => .error ⟨.noComparison, []⟩
  | t :: us₂, h₁ =>
    match CompareOp.ofKind? t.kind with
    | none => .error ⟨.noComparison, t :: us₂⟩
    | some op => do
      let ⟨right, us₃, h₃⟩ ← readExpr us₂
      return ⟨⟨left, op, right⟩, us₃, length_lt_of_cons_lt h₁ h₃⟩

end JPlusPlus
