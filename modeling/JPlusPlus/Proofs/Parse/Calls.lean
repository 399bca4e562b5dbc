import JPlusPlus.Proofs.Parse.Cursor
import Mathlib.Data.Prod.Lex

/-!
# Which function of the parser calls which

The functions of the parser call each other, and some of them come back to themselves. To say that
this comes to an end, one has to say what a call is. So a function is written here as a *plan*: it
looks at the token at the cursor, moves past it, stops at a fault, or calls a function and goes on
with what that one gives. A plan names the functions it calls and leaves the calls undone, which is
what a function alone does not show.

Where the calls are done by the functions themselves, a plan reads what its function reads. The calls
that a function makes from given tokens are then those that its plan comes to, and `Calls` relates a
call to the one that makes it. A loop is a function that calls itself with the tokens its first round
has left, so its rounds are calls as well.

A function may call another one with all of its tokens, as a body does with its first statement. So
the number of tokens alone does not go down with every call. But functions that are called like this
stand lower and lower, from bodies to atoms, and before one comes back tokens have been taken.

## Main statements

* `Routine.run_plan`: a plan reads what its function reads.
* `wellFounded_calls`: calls come to an end.
* `tokens_length_lt_of_transGen`: calls that come back to a function have fewer tokens.
-/

namespace JPlusPlus

/-! ## Functions and plans -/

/-- The functions of the parser, with the arguments they have beside the tokens. -/
inductive Routine where
  | atom
  | operand (level : Level)
  | chain (level : Level)
  | tail (level : Level) (left : Expr)
  | expr
  | condition
  | declaration
  | assignment (name : String)
  | print
  | head (place : BodyPlace)
  | count
  | stmt (inLoop : Bool)
  | block (inLoop : Bool)
  | orElse (inLoop : Bool)
  | stmts

/-- What a function reads. -/
@[reducible] def Routine.Value : Routine → Type
  | .atom | .operand _ | .chain _ | .tail _ _ | .expr => Expr
  | .condition | .head _ => Condition
  | .declaration | .assignment _ | .print => Stmt
  | .count => Count
  | .stmt _ => Option Stmt
  | .block _ | .stmts => List Stmt
  | .orElse _ => ElseChain

/-- The function itself, as a program that moves a cursor. -/
def Routine.read : (routine : Routine) → Cursor routine.Value
  | .atom => .of readAtom
  | .operand level => .of (readOperand level)
  | .chain level => .of (readLevel level)
  | .tail level left => .of (readTail level left)
  | .expr => .of readExpr
  | .condition => .of readCondition
  | .declaration => .of readDeclaration
  | .assignment name => .of (readAssignment name)
  | .print => .of readPrint
  | .head place => .of (readHead place)
  | .count => .of readCount
  | .stmt inLoop => .ofStmt inLoop
  | .block inLoop => .of (readBlock inLoop)
  | .orElse inLoop => .of (readElse inLoop)
  | .stmts => .ofStmts

/-- What is done with a cursor, where calls of functions are left undone. -/
inductive Plan (α : Type) : Type where
  /-- Comes to a value. -/
  | done (value : α)
  /-- Stops at a fault. -/
  | fail (fault : ParseFault)
  /-- Looks at the token at the cursor, if there is one. -/
  | look (next : Option Token → Plan α)
  /-- Moves past the token at the cursor. -/
  | pass (next : Plan α)
  /-- Calls a function. -/
  | call (routine : Routine) (next : routine.Value → Plan α)

namespace Plan

variable {α β : Type}

/-- Goes on with the value of a plan. -/
def bind : Plan α → (α → Plan β) → Plan β
  | done value, f => f value
  | fail fault, _ => fail fault
  | look next, f => look fun t ↦ (next t).bind f
  | pass next, f => pass (next.bind f)
  | call routine next, f => call routine fun value ↦ (next value).bind f

instance : Monad Plan where
  pure := done
  bind := bind

/-- Looks at the token at the cursor. -/
def peek : Plan (Option Token) := look done

/-- Moves past the token at the cursor. -/
def advance : Plan Unit := pass (done ())

/-- Calls a function for its value. -/
def ask (routine : Routine) : Plan routine.Value := call routine done

/-- Moves past a token of the given kind, or stops at the given fault. -/
def take (kind : Kind) (fault : ParseFault) : Plan Token := do
  match ← peek with
  | none => fail fault
  | some t =>
    if t.kind = kind then
      advance
      return t
    else fail fault

/-- The program of a plan, where the calls are done by the functions. -/
def run : Plan α → Cursor α
  | done value => Pure.pure value
  | fail fault => Cursor.fail fault
  | look next => Cursor.peek >>= fun t ↦ (next t).run
  | pass next => Cursor.advance >>= fun _ ↦ next.run
  | call routine next => routine.read >>= fun value ↦ (next value).run

end Plan

/-! ## The plans of the functions -/

open Plan in
/-- The plan of a function. -/
def Routine.plan : (routine : Routine) → Plan routine.Value
  | .atom => do
    match ← peek with
    | none => fail .endOfExpression
    | some t =>
      match t.kind with
      | .delimiter .lparen =>
        advance
        let e ← ask .expr
        let _ ← take (.delimiter .rparen) .noClosingParen
        return e
      | .integer =>
        advance
        return .number (normalDigits t.text)
      | .string =>
        advance
        return .string t.text
      | .ident =>
        advance
        return .ident t.text
      | _ => fail (.unexpectedToken t.text)
  | .operand .sum => ask (.chain .concat)
  | .operand .concat => ask (.chain .product)
  | .operand .product => ask .atom
  | .chain level => do
    let left ← ask (.operand level)
    ask (.tail level left)
  | .tail level left => do
    match (← peek).bind fun t ↦ level.join? t.kind with
    | none => return left
    | some join =>
      advance
      let right ← ask (.operand level)
      ask (.tail level (join left right))
  | .expr => ask (.chain .sum)
  | .condition => do
    let left ← ask .expr
    match (← peek).bind fun t ↦ CompareOp.ofKind? t.kind with
    | none => fail .noComparison
    | some op =>
      advance
      let right ← ask .expr
      return ⟨left, op, right⟩
  | .declaration => do
    let name ← take .ident .noDeclaredName
    match ← peek with
    | none => return .declare name.text none
    | some t =>
      if t.kind = .operator .assign then
        advance
        let value ← ask .expr
        return .declare name.text (some value)
      else return .declare name.text none
  | .assignment name => do
    let _ ← take (.operator .assign) (.noAssign name)
    let value ← ask .expr
    return .assign name value
  | .print => do
    match ← peek with
    | none => fail .noPrintedValue
    | some _ =>
      let value ← ask .expr
      return .print value
  | .head place => do
    let condition ← ask .condition
    let _ ← take (.delimiter .lbrace) (.noBody place)
    return condition
  | .count => do
    let counter ← take .ident .noCounter
    let _ ← take (.operator .assign) .noCounterAssign
    let start ← ask .expr
    let _ ← take (.keyword .tak) .noSecondBound
    let stop ← ask .expr
    let _ ← take (.delimiter .lbrace) (.noBody .bounds)
    return ⟨counter.text, start, stop⟩
  | .stmt inLoop => do
    match ← peek with
    | none => return none
    | some t =>
      match t.kind with
      | .keyword .ye =>
        advance
        return some (← ask .declaration)
      | .keyword .bol =>
        advance
        return some (← ask .print)
      | .keyword .agar =>
        advance
        let condition ← ask (.head .condition)
        let body ← ask (.block inLoop)
        let orElse ← ask (.orElse inLoop)
        return some (.branch condition body orElse)
      | .keyword .jabtak =>
        advance
        let condition ← ask (.head .condition)
        let body ← ask (.block true)
        return some (.whileLoop condition body)
      | .keyword .keLiye =>
        advance
        let count ← ask .count
        let body ← ask (.block true)
        return some (.forLoop count.counter count.start count.stop body)
      | .keyword .break =>
        if inLoop then
          advance
          return some .break
        else fail .outsideLoop
      | .keyword .continue =>
        if inLoop then
          advance
          return some .continue
        else fail .outsideLoop
      | .ident =>
        advance
        return some (← ask (.assignment t.text))
      | _ =>
        advance
        return none
  | .block inLoop => do
    match ← peek with
    | none => return []
    | some t =>
      if t.kind = .delimiter .rbrace then
        advance
        return []
      else
        let stmt ← ask (.stmt inLoop)
        let body ← ask (.block inLoop)
        return stmt.toList ++ body
  | .orElse inLoop => do
    match ← peek with
    | none => return .nothing
    | some t =>
      match t.kind with
      | .keyword .nahiAgar =>
        advance
        let condition ← ask (.head .elseIf)
        let body ← ask (.block inLoop)
        let orElse ← ask (.orElse inLoop)
        return .elseIf condition body orElse
      | .keyword .nahi =>
        advance
        let _ ← take (.delimiter .lbrace) (.noBody .otherwise)
        let body ← ask (.block inLoop)
        return .otherwise body
      | _ => return .nothing
  | .stmts => do
    match ← peek with
    | none => return []
    | some _ =>
      let stmt ← ask (.stmt false)
      let body ← ask .stmts
      return stmt.toList ++ body

/-! ## A plan reads what its function reads -/

namespace Plan

variable {α β : Type}

theorem run_bind (plan : Plan α) (next : α → Plan β) :
    (plan >>= next).run = plan.run >>= fun value ↦ (next value).run := by
  -- A plan goes on after each of its actions, so what follows it is moved inwards one by one.
  induction plan with
  | done value => rfl
  | fail fault => rfl
  | look after ih => exact (congrArg _ (funext ih)).trans (bind_assoc _ _ _).symm
  | pass after ih => exact (congrArg _ (funext fun _ ↦ ih)).trans (bind_assoc _ _ _).symm
  | call routine after ih => exact (congrArg _ (funext ih)).trans (bind_assoc _ _ _).symm

/-- Programs of plans are put together as the plans are. -/
theorem run_bind_of {plan : Plan α} {read : Cursor α} {next : α → Plan β} {go : α → Cursor β}
    (h : plan.run = read) (hnext : ∀ value, (next value).run = go value) :
    (plan >>= next).run = read >>= go := by
  rw [run_bind, h, funext hnext]

theorem run_peek : peek.run = Cursor.peek := rfl

theorem run_advance : advance.run = Cursor.advance := rfl

theorem run_ask (routine : Routine) : (ask routine).run = routine.read := bind_pure _

theorem run_take (kind : Kind) (fault : ParseFault) :
    (take kind fault).run = Cursor.of (expect kind fault) := by
  rw [Cursor.of_expect]
  refine run_bind_of run_peek fun t ↦ ?_
  rcases t with _ | t
  · rfl
  · dsimp only
    split <;> rfl

end Plan

namespace Routine

open Plan Cursor

theorem run_plan_atom : (plan .atom).run = of readAtom := by
  rw [of_readAtom]
  refine run_bind_of run_peek fun t ↦ ?_
  rcases t with _ | ⟨_ | _ | _ | d | _ | _, text⟩
  · rfl
  · rfl
  · rfl
  · rfl
  · cases d with
    | lparen =>
      exact run_bind_of run_advance fun _ ↦ run_bind_of (run_ask .expr) fun _ ↦
        run_bind_of (run_take _ _) fun _ ↦ rfl
    | rparen | lbrace | rbrace => rfl
  · rfl
  · rfl

theorem run_plan_operand (level : Level) :
    (plan (.operand level)).run = of (readOperand level) := by
  cases level with
  | sum => exact (run_ask (.chain .concat)).trans of_readOperand_sum.symm
  | concat => exact (run_ask (.chain .product)).trans of_readOperand_concat.symm
  | product => exact (run_ask .atom).trans of_readOperand_product.symm

theorem run_plan_tail (level : Level) (left : Expr) :
    (plan (.tail level left)).run = of (readTail level left) := by
  rw [of_readTail]
  refine run_bind_of run_peek fun t ↦ ?_
  cases t.bind fun t ↦ level.join? t.kind with
  | none => rfl
  | some join =>
    exact run_bind_of run_advance fun _ ↦ run_bind_of (run_ask (.operand level)) fun _ ↦
      run_ask (.tail level _)

theorem run_plan_condition : (plan .condition).run = of readCondition := by
  rw [of_readCondition]
  refine run_bind_of (run_ask .expr) fun left ↦ run_bind_of run_peek fun t ↦ ?_
  cases t.bind fun t ↦ CompareOp.ofKind? t.kind with
  | none => rfl
  | some op => exact run_bind_of run_advance fun _ ↦ run_bind_of (run_ask .expr) fun _ ↦ rfl

theorem run_plan_declaration : (plan .declaration).run = of readDeclaration := by
  rw [of_readDeclaration]
  refine run_bind_of (run_take _ _) fun name ↦ run_bind_of run_peek fun t ↦ ?_
  rcases t with _ | t
  · rfl
  · dsimp only
    split
    · exact run_bind_of run_advance fun _ ↦ run_bind_of (run_ask .expr) fun _ ↦ rfl
    · rfl

theorem run_plan_stmt (inLoop : Bool) : (plan (.stmt inLoop)).run = ofStmt inLoop := by
  rw [ofStmt_eq]
  refine run_bind_of run_peek fun t ↦ ?_
  rcases t with _ | ⟨_ | _ | _ | _ | _ | k, text⟩
  · rfl
  · exact run_bind_of run_advance fun _ ↦ run_bind_of (run_ask (.assignment text)) fun _ ↦ rfl
  · rfl
  · rfl
  · rfl
  · rfl
  · cases k with
    | ye => exact run_bind_of run_advance fun _ ↦ run_bind_of (run_ask .declaration) fun _ ↦ rfl
    | bol => exact run_bind_of run_advance fun _ ↦ run_bind_of (run_ask .print) fun _ ↦ rfl
    | agar =>
      exact run_bind_of run_advance fun _ ↦ run_bind_of (run_ask (.head .condition)) fun _ ↦
        run_bind_of (run_ask (.block inLoop)) fun _ ↦
        run_bind_of (run_ask (.orElse inLoop)) fun _ ↦ rfl
    | jabtak =>
      exact run_bind_of run_advance fun _ ↦ run_bind_of (run_ask (.head .condition)) fun _ ↦
        run_bind_of (run_ask (.block true)) fun _ ↦ rfl
    | keLiye =>
      exact run_bind_of run_advance fun _ ↦ run_bind_of (run_ask .count) fun _ ↦
        run_bind_of (run_ask (.block true)) fun _ ↦ rfl
    | «break» | «continue» => cases inLoop <;> rfl
    | nahiAgar | nahi | tak => rfl

theorem run_plan_block (inLoop : Bool) : (plan (.block inLoop)).run = of (readBlock inLoop) := by
  rw [of_readBlock]
  refine run_bind_of run_peek fun t ↦ ?_
  rcases t with _ | t
  · rfl
  · dsimp only
    split
    · rfl
    · exact run_bind_of (run_ask (.stmt inLoop)) fun _ ↦
        run_bind_of (run_ask (.block inLoop)) fun _ ↦ rfl

theorem run_plan_orElse (inLoop : Bool) : (plan (.orElse inLoop)).run = of (readElse inLoop) := by
  rw [of_readElse]
  refine run_bind_of run_peek fun t ↦ ?_
  rcases t with _ | ⟨_ | _ | _ | _ | _ | k, text⟩
  · rfl
  · rfl
  · rfl
  · rfl
  · rfl
  · rfl
  · cases k with
    | nahiAgar =>
      exact run_bind_of run_advance fun _ ↦ run_bind_of (run_ask (.head .elseIf)) fun _ ↦
        run_bind_of (run_ask (.block inLoop)) fun _ ↦
        run_bind_of (run_ask (.orElse inLoop)) fun _ ↦ rfl
    | nahi =>
      exact run_bind_of run_advance fun _ ↦ run_bind_of (run_take _ _) fun _ ↦
        run_bind_of (run_ask (.block inLoop)) fun _ ↦ rfl
    | ye | bol | agar | jabtak | keLiye | tak | «break» | «continue» => rfl

/-- A plan reads what its function reads. -/
theorem run_plan (routine : Routine) : routine.plan.run = routine.read := by
  cases routine with
  | atom => exact run_plan_atom
  | operand level => exact run_plan_operand level
  | chain level =>
    refine Eq.trans ?_ (of_readLevel level).symm
    exact run_bind_of (run_ask (.operand level)) fun left ↦ run_ask (.tail level left)
  | tail level left => exact run_plan_tail level left
  | expr => exact run_ask (.chain .sum)
  | condition => exact run_plan_condition
  | declaration => exact run_plan_declaration
  | assignment name =>
    refine Eq.trans ?_ (of_readAssignment name).symm
    exact run_bind_of (run_take _ _) fun _ ↦ run_bind_of (run_ask .expr) fun _ ↦ rfl
  | print =>
    refine Eq.trans ?_ of_readPrint.symm
    refine run_bind_of run_peek fun t ↦ ?_
    rcases t with _ | t
    · rfl
    · exact run_bind_of (run_ask .expr) fun _ ↦ rfl
  | head place =>
    refine Eq.trans ?_ (of_readHead place).symm
    exact run_bind_of (run_ask .condition) fun _ ↦ run_bind_of (run_take _ _) fun _ ↦ rfl
  | count =>
    refine Eq.trans ?_ of_readCount.symm
    exact run_bind_of (run_take _ _) fun _ ↦ run_bind_of (run_take _ _) fun _ ↦
      run_bind_of (run_ask .expr) fun _ ↦ run_bind_of (run_take _ _) fun _ ↦
      run_bind_of (run_ask .expr) fun _ ↦ run_bind_of (run_take _ _) fun _ ↦ rfl
  | stmt inLoop => exact run_plan_stmt inLoop
  | block inLoop => exact run_plan_block inLoop
  | orElse inLoop => exact run_plan_orElse inLoop
  | stmts =>
    refine Eq.trans ?_ ofStmts_eq.symm
    refine run_bind_of run_peek fun t ↦ ?_
    rcases t with _ | t
    · rfl
    · exact run_bind_of (run_ask (.stmt false)) fun _ ↦ run_bind_of (run_ask .stmts) fun _ ↦ rfl

end Routine

/-! ## Calls -/

/-- A function and the tokens it is called with. -/
structure Call where
  /-- The function. -/
  routine : Routine
  /-- The tokens at the cursor. -/
  tokens : List Token

/-- From these tokens the plan comes to the call. It goes past another call only when that one gives
a value, and then on from the tokens left. -/
inductive Plan.Makes {α : Type} : Plan α → List Token → Call → Prop where
  | look {next : Option Token → Plan α} {tokens : List Token} {inner : Call} :
      (next tokens.head?).Makes tokens inner → (look next).Makes tokens inner
  | pass {next : Plan α} {tokens : List Token} {inner : Call} :
      next.Makes tokens.tail inner → (pass next).Makes tokens inner
  | here {routine : Routine} {next : routine.Value → Plan α} {tokens : List Token} :
      (call routine next).Makes tokens ⟨routine, tokens⟩
  | after {routine : Routine} {next : routine.Value → Plan α} {value : routine.Value}
      {tokens rest : List Token} {inner : Call} :
      routine.read tokens = (.ok value, rest) → (next value).Makes rest inner →
      (call routine next).Makes tokens inner

/-- The second call makes the first. -/
def Calls (inner outer : Call) : Prop := outer.routine.plan.Makes outer.tokens inner

namespace Plan

variable {α : Type} {P : Call → Prop} {tokens : List Token}

/-- Every call that the plan comes to from these tokens is as `P` says. -/
def AllCalls (P : Call → Prop) : Plan α → List Token → Prop
  | done _, _ => True
  | fail _, _ => True
  | look next, tokens => (next tokens.head?).AllCalls P tokens
  | pass next, tokens => next.AllCalls P tokens.tail
  | call routine next, tokens =>
    P ⟨routine, tokens⟩ ∧
      ∀ value rest, routine.read tokens = (.ok value, rest) → (next value).AllCalls P rest

theorem AllCalls.of_makes {plan : Plan α} {inner : Call} (h : plan.AllCalls P tokens)
    (hmakes : plan.Makes tokens inner) : P inner := by
  induction hmakes with
  | look _ ih => exact ih h
  | pass _ ih => exact ih h
  | here => exact h.1
  | after hread _ ih => exact ih (h.2 _ _ hread)

namespace AllCalls

theorem pure (value : α) : (Pure.pure value : Plan α).AllCalls P tokens := trivial

theorem fail (fault : ParseFault) : (Plan.fail fault : Plan α).AllCalls P tokens := trivial

theorem peek {next : Option Token → Plan α} (h : (next tokens.head?).AllCalls P tokens) :
    (Plan.peek >>= next).AllCalls P tokens := h

theorem advance {next : Plan α} {t : Token} {us : List Token} (h : next.AllCalls P us) :
    (Plan.advance >>= fun _ ↦ next).AllCalls P (t :: us) := h

theorem ask {routine : Routine} (h : P ⟨routine, tokens⟩) :
    (Plan.ask routine).AllCalls P tokens := ⟨h, fun _ _ _ ↦ trivial⟩

theorem ask_bind {routine : Routine} {next : routine.Value → Plan α} (h : P ⟨routine, tokens⟩)
    (hnext : ∀ value rest, routine.read tokens = (.ok value, rest) →
      (next value).AllCalls P rest) :
    (Plan.ask routine >>= next).AllCalls P tokens := ⟨h, hnext⟩

theorem take_bind {kind : Kind} {fault : ParseFault} {next : Token → Plan α}
    (h : ∀ t us, tokens = t :: us → (next t).AllCalls P us) :
    (Plan.take kind fault >>= next).AllCalls P tokens := by
  rcases tokens with _ | ⟨t, us⟩
  · trivial
  · show ((if t.kind = kind then _ else _ : Plan Token) >>= next).AllCalls P (t :: us)
    split
    · exact h t us rfl
    · trivial

end AllCalls

end Plan

/-! ## Every call is smaller than the one that makes it -/

/-- Functions that are called with all the tokens of their caller stand below it. -/
def Routine.rank : Routine → Nat
  | .tail _ _ | .orElse _ => 0
  | .atom => 1
  | .operand level => 2 * level.rank
  | .chain level => 2 * level.rank + 1
  | .expr => 8
  | .condition | .declaration | .assignment _ | .print | .count => 9
  | .head _ => 10
  | .stmt _ => 11
  | .block _ | .stmts => 12

namespace Call

/-- The size of a call. The number of tokens counts first, and the function among equals. -/
def size (call : Call) : ℕ ×ₗ ℕ := toLex (call.tokens.length, call.routine.rank)

variable {routine routine' : Routine} {t : Token} {us tokens : List Token}

theorem size_lt_cons (h : us.length ≤ tokens.length) :
    size ⟨routine, us⟩ < size ⟨routine', t :: tokens⟩ :=
  Prod.Lex.toLex_lt_toLex.mpr (.inl (Nat.lt_succ_of_le h))

theorem size_lt_of_rank_lt (h : us.length ≤ tokens.length) (hrank : routine.rank < routine'.rank) :
    size ⟨routine, us⟩ < size ⟨routine', tokens⟩ := by
  rcases Nat.lt_or_eq_of_le h with hlt | heq
  · exact Prod.Lex.toLex_lt_toLex.mpr (.inl hlt)
  · exact Prod.Lex.toLex_lt_toLex.mpr (.inr ⟨heq, hrank⟩)

end Call

namespace Routine

open Cursor Call

/-- No function goes back. -/
theorem rest_length_le {routine : Routine} {tokens rest : List Token} {value : routine.Value}
    (h : routine.read tokens = (.ok value, rest)) : rest.length ≤ tokens.length := by
  cases routine with
  | atom | operand | chain | expr | condition | declaration | assignment | print | head | count =>
    exact Nat.le_of_lt (rest_length_lt h)
  | tail | block | orElse => exact Nat.le_of_lt_succ (rest_length_lt h)
  | stmt inLoop =>
    rcases tokens with _ | ⟨t, us⟩
    · cases h
      exact Nat.le_refl _
    · exact Nat.le_of_lt (rest_length_lt h)
  | stmts =>
    obtain rfl := rest_eq_nil h
    exact Nat.zero_le _

/-- A statement takes at least the token it starts at. -/
theorem rest_length_le_of_stmt {inLoop : Bool} {t : Token} {us rest : List Token}
    {stmt : Option Stmt} (h : (Routine.stmt inLoop).read (t :: us) = (.ok stmt, rest)) :
    rest.length ≤ us.length := Nat.le_of_lt_succ (rest_length_lt h)

/-- The calls that the function makes from these tokens are smaller than its own. -/
def Descends (routine : Routine) (tokens : List Token) : Prop :=
  routine.plan.AllCalls (·.size < Call.size ⟨routine, tokens⟩) tokens

variable (tokens : List Token)

theorem descends_atom : Descends .atom tokens := by
  refine .peek ?_
  rcases tokens with _ | ⟨t, us⟩
  · exact .fail _
  · dsimp only [List.head?_cons]
    split
    · exact .advance (.ask_bind (size_lt_cons (Nat.le_refl _)) fun e _ _ ↦
        .take_bind fun _ _ _ ↦ .pure e)
    · exact .advance (.pure _)
    · exact .advance (.pure _)
    · exact .advance (.pure _)
    · exact .fail _

theorem descends_operand (level : Level) : Descends (.operand level) tokens := by
  rcases level with _ | _ | _
  · exact .ask (size_lt_of_rank_lt (Nat.le_refl _) (Nat.lt_succ_self _))
  · exact .ask (size_lt_of_rank_lt (Nat.le_refl _) (Nat.lt_succ_self _))
  · exact .ask (size_lt_of_rank_lt (Nat.le_refl _) (Nat.lt_succ_self _))

theorem descends_chain (level : Level) : Descends (.chain level) tokens := by
  refine .ask_bind ?_ fun left us h ↦ .ask ?_
  · exact size_lt_of_rank_lt (Nat.le_refl _) (Nat.lt_succ_self _)
  · -- Going on with a chain ranks lowest, so it does not matter what the operand has taken.
    exact size_lt_of_rank_lt (rest_length_le h) (Nat.succ_pos _)

theorem descends_tail (level : Level) (left : Expr) : Descends (.tail level left) tokens := by
  refine .peek ?_
  rcases tokens with _ | ⟨t, us⟩
  · exact .pure left
  · dsimp only [List.head?_cons, Option.bind_some]
    split
    · exact .pure left
    · exact .advance (.ask_bind (size_lt_cons (Nat.le_refl _)) fun right us₁ h ↦
        .ask (size_lt_cons (rest_length_le h)))

theorem descends_condition : Descends .condition tokens := by
  refine .ask_bind ?_ fun left us h ↦ .peek ?_
  · exact size_lt_of_rank_lt (Nat.le_refl _) (Nat.lt_succ_self _)
  · rcases us with _ | ⟨t, us⟩
    · exact .fail _
    · dsimp only [List.head?_cons, Option.bind_some]
      split
      · exact .fail _
      · refine .advance (.ask_bind ?_ fun _ _ _ ↦ .pure _)
        exact size_lt_of_rank_lt (Nat.le_of_succ_le (rest_length_le h)) (Nat.lt_succ_self _)

theorem descends_declaration : Descends .declaration tokens := by
  refine .take_bind fun name us hname ↦ .peek ?_
  subst hname
  rcases us with _ | ⟨t, us⟩
  · exact .pure _
  · dsimp only [List.head?_cons]
    split
    · exact .advance (.ask_bind (size_lt_cons (Nat.le_succ _)) fun _ _ _ ↦ .pure _)
    · exact .pure _

theorem descends_assignment (name : String) : Descends (.assignment name) tokens := by
  refine .take_bind fun t us ht ↦ .ask_bind ?_ fun _ _ _ ↦ .pure _
  subst ht
  exact size_lt_cons (Nat.le_refl _)

theorem descends_print : Descends .print tokens := by
  refine .peek ?_
  rcases tokens with _ | ⟨t, us⟩
  · exact .fail _
  · refine .ask_bind ?_ fun _ _ _ ↦ .pure _
    exact size_lt_of_rank_lt (Nat.le_refl _) (Nat.lt_succ_self _)

theorem descends_head (place : BodyPlace) : Descends (.head place) tokens := by
  refine .ask_bind ?_ fun condition us _ ↦ .take_bind fun _ _ _ ↦ .pure condition
  exact size_lt_of_rank_lt (Nat.le_refl _) (Nat.lt_succ_self _)

theorem descends_count : Descends .count tokens := by
  refine .take_bind fun v us₁ h₁ ↦ .take_bind fun a us₂ h₂ ↦ ?_
  subst h₁ h₂
  refine .ask_bind (size_lt_cons (Nat.le_succ _)) fun start us₃ h₃ ↦ .take_bind fun k us₄ h₄ ↦ ?_
  subst h₄
  have hle : us₄.length < us₂.length := rest_length_le h₃
  refine .ask_bind (size_lt_cons ?_) fun _ _ _ ↦ .take_bind fun _ _ _ ↦ .pure _
  exact Nat.le_succ_of_le (Nat.le_of_lt hle)

theorem descends_stmt (inLoop : Bool) : Descends (.stmt inLoop) tokens := by
  refine .peek ?_
  rcases tokens with _ | ⟨t, us⟩
  · exact .pure none
  · dsimp only [List.head?_cons]
    split
    · exact .advance (.ask_bind (size_lt_cons (Nat.le_refl _)) fun _ _ _ ↦ .pure _)
    · exact .advance (.ask_bind (size_lt_cons (Nat.le_refl _)) fun _ _ _ ↦ .pure _)
    · refine .advance (.ask_bind (size_lt_cons (Nat.le_refl _)) fun condition us₁ h₁ ↦ ?_)
      have hle₁ := rest_length_le h₁
      refine .ask_bind (size_lt_cons hle₁) fun body us₂ h₂ ↦ ?_
      have hle₂ := rest_length_le h₂
      exact .ask_bind (size_lt_cons (Nat.le_trans hle₂ hle₁)) fun _ _ _ ↦ .pure _
    · refine .advance (.ask_bind (size_lt_cons (Nat.le_refl _)) fun condition us₁ h₁ ↦ ?_)
      exact .ask_bind (size_lt_cons (rest_length_le h₁)) fun _ _ _ ↦ .pure _
    · refine .advance (.ask_bind (size_lt_cons (Nat.le_refl _)) fun count us₁ h₁ ↦ ?_)
      exact .ask_bind (size_lt_cons (rest_length_le h₁)) fun _ _ _ ↦ .pure _
    · split
      · exact .advance (.pure _)
      · exact .fail _
    · split
      · exact .advance (.pure _)
      · exact .fail _
    · exact .advance (.ask_bind (size_lt_cons (Nat.le_refl _)) fun _ _ _ ↦ .pure _)
    · exact .advance (.pure none)

/-- A body goes on with fewer tokens, since the statement before has taken some. -/
theorem descends_block (inLoop : Bool) : Descends (.block inLoop) tokens := by
  refine .peek ?_
  rcases tokens with _ | ⟨t, us⟩
  · exact .pure []
  · dsimp only [List.head?_cons]
    split
    · exact .advance (.pure [])
    · refine .ask_bind ?_ fun stmt us₁ h₁ ↦ .ask_bind ?_ fun _ _ _ ↦ .pure _
      · exact size_lt_of_rank_lt (Nat.le_refl _) (Nat.lt_succ_self _)
      · exact size_lt_cons (rest_length_le_of_stmt h₁)

theorem descends_orElse (inLoop : Bool) : Descends (.orElse inLoop) tokens := by
  refine .peek ?_
  rcases tokens with _ | ⟨t, us⟩
  · exact .pure _
  · dsimp only [List.head?_cons]
    split
    · refine .advance (.ask_bind (size_lt_cons (Nat.le_refl _)) fun condition us₁ h₁ ↦ ?_)
      have hle₁ := rest_length_le h₁
      refine .ask_bind (size_lt_cons hle₁) fun body us₂ h₂ ↦ ?_
      have hle₂ := rest_length_le h₂
      exact .ask_bind (size_lt_cons (Nat.le_trans hle₂ hle₁)) fun _ _ _ ↦ .pure _
    · refine .advance (.take_bind fun b us₁ h₁ ↦ .ask_bind ?_ fun _ _ _ ↦ .pure _)
      subst h₁
      exact size_lt_cons (Nat.le_succ _)
    · exact .pure _

theorem descends_stmts : Descends .stmts tokens := by
  refine .peek ?_
  rcases tokens with _ | ⟨t, us⟩
  · exact .pure []
  · refine .ask_bind ?_ fun stmt us₁ h₁ ↦ .ask_bind ?_ fun _ _ _ ↦ .pure _
    · exact size_lt_of_rank_lt (Nat.le_refl _) (Nat.lt_succ_self _)
    · exact size_lt_cons (rest_length_le_of_stmt h₁)

theorem descends (routine : Routine) : Descends routine tokens := by
  cases routine with
  | atom => exact descends_atom tokens
  | operand level => exact descends_operand tokens level
  | chain level => exact descends_chain tokens level
  | tail level left => exact descends_tail tokens level left
  | expr => exact .ask (size_lt_of_rank_lt (Nat.le_refl _) (Nat.lt_succ_self _))
  | condition => exact descends_condition tokens
  | declaration => exact descends_declaration tokens
  | assignment name => exact descends_assignment tokens name
  | print => exact descends_print tokens
  | head place => exact descends_head tokens place
  | count => exact descends_count tokens
  | stmt inLoop => exact descends_stmt tokens inLoop
  | block inLoop => exact descends_block tokens inLoop
  | orElse inLoop => exact descends_orElse tokens inLoop
  | stmts => exact descends_stmts tokens

end Routine

/-! ## Calls come to an end -/

theorem Calls.size_lt {inner outer : Call} (h : Calls inner outer) : inner.size < outer.size :=
  (Routine.descends outer.tokens outer.routine).of_makes h

/-- **The parser ends.** No call starts a chain of calls that goes on forever. -/
theorem wellFounded_calls : WellFounded Calls :=
  Subrelation.wf Calls.size_lt (InvImage.wf Call.size wellFounded_lt)

theorem Call.size_lt_of_transGen {inner outer : Call} (h : Relation.TransGen Calls inner outer) :
    inner.size < outer.size := by
  induction h with
  | single h => exact h.size_lt
  | tail _ h ih => exact ih.trans h.size_lt

/-- Where calls come back to a function, or to one of its rank, tokens have been taken between. -/
theorem tokens_length_lt_of_transGen {inner outer : Call} (h : Relation.TransGen Calls inner outer)
    (hrank : inner.routine.rank = outer.routine.rank) :
    inner.tokens.length < outer.tokens.length := by
  rcases Prod.Lex.toLex_lt_toLex.mp (Call.size_lt_of_transGen h) with hlt | ⟨-, hlt⟩
  · exact hlt
  · exact absurd hrank (Nat.ne_of_lt hlt)

end JPlusPlus
