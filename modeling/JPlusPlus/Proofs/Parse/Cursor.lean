import JPlusPlus.Proofs.Parse.Reads

/-!
# The parser as a cursor

A function of the parser can be seen as a program that moves a cursor over the tokens: it looks at
the token at the cursor, moves past it, goes on with another function, or stops at a fault with the
cursor where it is. This file says of each function which program it is. The bounds on the number of
tokens left, which make the functions end, are no part of these programs.

`Reads` tells when a value is read. The programs tell in addition which fault is met otherwise and
where the cursor then stands, so they are what to reason with about faults.
-/

namespace JPlusPlus

/-- A program that moves a cursor. From the tokens at the cursor it comes to a value or to a fault,
and to the tokens at the cursor after that. -/
def Cursor (α : Type) : Type := List Token → Except ParseFault α × List Token

namespace Cursor

variable {α β : Type} {m n : Nat}

instance : Monad Cursor where
  pure value tokens := (.ok value, tokens)
  bind read next tokens :=
    match read tokens with
    | (.ok value, rest) => next value rest
    | (.error fault, rest) => (.error fault, rest)

/-- Stops at a fault. -/
def fail (fault : ParseFault) : Cursor α := fun tokens ↦ (.error fault, tokens)

/-- Looks at the token at the cursor, if there is one. -/
def peek : Cursor (Option Token) := fun tokens ↦ (.ok tokens.head?, tokens)

/-- Moves past the token at the cursor. -/
def advance : Cursor Unit := fun tokens ↦ (.ok (), tokens.tail)

theorem bind_apply (read : Cursor α) (next : α → Cursor β) (tokens : List Token) :
    (read >>= next) tokens =
      match read tokens with
      | (.ok value, rest) => next value rest
      | (.error fault, rest) => (.error fault, rest) := rfl

instance : LawfulMonad Cursor := LawfulMonad.mk' Cursor
  (fun read ↦ funext fun tokens ↦ by
    show (read >>= fun value ↦ pure value) tokens = read tokens
    rw [bind_apply]
    rcases read tokens with ⟨fault | value, rest⟩ <;> rfl)
  (fun _ _ ↦ rfl)
  (fun read next after ↦ funext fun tokens ↦ by
    rw [bind_apply, bind_apply, bind_apply]
    rcases read tokens with ⟨fault | value, rest⟩ <;> rfl)

theorem bind_peek_cons (next : Option Token → Cursor α) (t : Token) (us : List Token) :
    (peek >>= next) (t :: us) = next (some t) (t :: us) := rfl

/-! ## Functions of the parser as programs -/

/-- Where an outcome leaves the cursor. -/
def ending : Outcome α n → Except ParseFault α × List Token
  | .ok reading => (.ok reading.value, reading.rest)
  | .error failure => (.error failure.fault, failure.rest)

/-- The program of a function of the parser. -/
def of {bound : List Token → Nat} (read : (tokens : List Token) → Outcome α (bound tokens)) :
    Cursor α := fun tokens ↦ ending (read tokens)

theorem rest_length_lt {outcome : Outcome α n} {value : α} {rest : List Token}
    (h : ending outcome = (.ok value, rest)) : rest.length < n := by
  cases outcome with
  | error failure => cases h
  | ok reading =>
    cases h
    exact reading.rest_lt

theorem ending_bind {outcome : Outcome α m} {f : Reading α m → Outcome β n} {read : Cursor α}
    {next : α → Cursor β} {tokens : List Token} (hread : ending outcome = read tokens)
    (hnext : ∀ value rest h, ending (f ⟨value, rest, h⟩) = next value rest) :
    ending (outcome >>= f) = (read >>= next) tokens := by
  rw [bind_apply, ← hread]
  cases outcome with
  | error failure => rfl
  | ok reading => exact hnext reading.value reading.rest reading.rest_lt

theorem ending_map (outcome : Outcome α m) (h : m ≤ n) :
    ending (do return (← outcome).map id h : Outcome α n) = ending outcome := by
  cases outcome with
  | error failure => rfl
  | ok reading => rfl

theorem of_expect (kind : Kind) (fault : ParseFault) :
    of (expect kind fault) = (do
      match ← peek with
      | none => fail fault
      | some t =>
        if t.kind = kind then
          advance
          return t
        else fail fault) := by
  funext tokens
  cases tokens with
  | nil => rfl
  | cons t us =>
    rw [bind_peek_cons, of, expect]
    dsimp only
    split <;> rfl

/-! ## Expressions -/

theorem of_readAtom :
    of readAtom = (do
      match ← peek with
      | none => fail .endOfExpression
      | some t =>
        match t.kind with
        | .delimiter .lparen =>
          advance
          let e ← of (readLevel .sum)
          let _ ← of (expect (.delimiter .rparen) .noClosingParen)
          return e
        | .integer =>
          advance
          return .number (normalDigits t.text)
        | .string =>
          advance
          return .string t.text
        | .ident =>
          advance
          return .ident t.text
        | _ => fail (.unexpectedToken t.text)) := by
  funext tokens
  cases tokens with
  | nil => rw [of, readAtom]; rfl
  | cons t us =>
    rw [bind_peek_cons, of, readAtom]
    dsimp only
    rcases t.kind with _ | _ | _ | d | o | k
    · rfl
    · rfl
    · rfl
    · cases d with
      | lparen => exact ending_bind rfl fun e us₁ _ ↦ ending_bind rfl fun _ us₂ _ ↦ rfl
      | rparen | lbrace | rbrace => rfl
    · rfl
    · rfl

theorem of_readOperand_sum : of (readOperand .sum) = of (readLevel .concat) := by
  funext tokens
  rw [of, readOperand, of]

theorem of_readOperand_concat : of (readOperand .concat) = of (readLevel .product) := by
  funext tokens
  rw [of, readOperand, of]

theorem of_readOperand_product : of (readOperand .product) = of readAtom := by
  funext tokens
  rw [of, readOperand, of]

theorem of_readLevel (level : Level) :
    of (readLevel level) = (do
      let left ← of (readOperand level)
      of (readTail level left)) := by
  funext tokens
  rw [of, readLevel]
  exact ending_bind rfl fun left us _ ↦ ending_map _ _

theorem of_readTail (level : Level) (left : Expr) :
    of (readTail level left) = (do
      match (← peek).bind fun t ↦ level.join? t.kind with
      | none => return left
      | some join =>
        advance
        let right ← of (readOperand level)
        of (readTail level (join left right))) := by
  funext tokens
  cases tokens with
  | nil => rw [of, readTail]; rfl
  | cons t us =>
    rw [bind_peek_cons, of, readTail]
    dsimp only [Option.bind_some]
    cases level.join? t.kind with
    | none => rfl
    | some join =>
      exact ending_bind rfl fun right us₁ _ ↦ ending_map _ _

theorem of_readCondition :
    of readCondition = (do
      let left ← of readExpr
      match (← peek).bind fun t ↦ CompareOp.ofKind? t.kind with
      | none => fail .noComparison
      | some op =>
        advance
        let right ← of readExpr
        return ⟨left, op, right⟩) := by
  funext tokens
  refine ending_bind rfl fun left us _ ↦ ?_
  cases us with
  | nil => rfl
  | cons t us =>
    rw [bind_peek_cons]
    dsimp only [Option.bind_some]
    cases CompareOp.ofKind? t.kind with
    | none => rfl
    | some op => exact ending_bind rfl fun right rest _ ↦ rfl

/-! ## Statements without bodies, and the heads of the others -/

theorem of_readDeclaration :
    of readDeclaration = (do
      let name ← of (expect .ident .noDeclaredName)
      match ← peek with
      | none => return .declare name.text none
      | some t =>
        if t.kind = .operator .assign then
          advance
          let value ← of readExpr
          return .declare name.text (some value)
        else return .declare name.text none) := by
  funext tokens
  refine ending_bind rfl fun name us _ ↦ ?_
  cases us with
  | nil => rfl
  | cons t us =>
    rw [bind_peek_cons]
    dsimp only
    split
    · exact ending_bind rfl fun value rest _ ↦ rfl
    · rfl

theorem of_readAssignment (name : String) :
    of (readAssignment name) = (do
      let _ ← of (expect (.operator .assign) (.noAssign name))
      let value ← of readExpr
      return .assign name value) := by
  funext tokens
  exact ending_bind rfl fun _ _ _ ↦ ending_bind rfl fun _ _ _ ↦ rfl

theorem of_readPrint :
    of readPrint = (do
      match ← peek with
      | none => fail .noPrintedValue
      | some _ =>
        let value ← of readExpr
        return .print value) := by
  funext tokens
  cases tokens with
  | nil => rfl
  | cons t us =>
    rw [bind_peek_cons]
    exact ending_bind rfl fun _ _ _ ↦ rfl

theorem of_readHead (place : BodyPlace) :
    of (readHead place) = (do
      let condition ← of readCondition
      let _ ← of (expect (.delimiter .lbrace) (.noBody place))
      return condition) := by
  funext tokens
  exact ending_bind rfl fun _ _ _ ↦ ending_bind rfl fun _ _ _ ↦ rfl

theorem of_readCount :
    of readCount = (do
      let counter ← of (expect .ident .noCounter)
      let _ ← of (expect (.operator .assign) .noCounterAssign)
      let start ← of readExpr
      let _ ← of (expect (.keyword .tak) .noSecondBound)
      let stop ← of readExpr
      let _ ← of (expect (.delimiter .lbrace) (.noBody .bounds))
      return ⟨counter.text, start, stop⟩) := by
  funext tokens
  exact ending_bind rfl fun _ _ _ ↦ ending_bind rfl fun _ _ _ ↦ ending_bind rfl fun _ _ _ ↦
    ending_bind rfl fun _ _ _ ↦ ending_bind rfl fun _ _ _ ↦ ending_bind rfl fun _ _ _ ↦ rfl

/-! ## Statements with bodies -/

/-- The program that reads a statement or passes over a token. -/
def ofStmt (inLoop : Bool) : Cursor (Option Stmt)
  | [] => (.ok none, [])
  | t :: us => ending (readStmt inLoop t us)

theorem ofStmt_eq (inLoop : Bool) :
    ofStmt inLoop = (do
      match ← peek with
      | none => return none
      | some t =>
        match t.kind with
        | .keyword .ye =>
          advance
          return some (← of readDeclaration)
        | .keyword .bol =>
          advance
          return some (← of readPrint)
        | .keyword .agar =>
          advance
          let condition ← of (readHead .condition)
          let body ← of (readBlock inLoop)
          let orElse ← of (readElse inLoop)
          return some (.branch condition body orElse)
        | .keyword .jabtak =>
          advance
          let condition ← of (readHead .condition)
          let body ← of (readBlock true)
          return some (.whileLoop condition body)
        | .keyword .keLiye =>
          advance
          let count ← of readCount
          let body ← of (readBlock true)
          return some (.forLoop count.counter count.start count.stop body)
        | .keyword .break =>
          if inLoop then
            advance
            return some .break
          else fail .outsideLoop
        | .keyword .continue =>
          if inLoop then
            advance
            return some .continue
          else fail .outsideLoop
        | .ident =>
          advance
          return some (← of (readAssignment t.text))
        | _ =>
          advance
          return none) := by
  funext tokens
  cases tokens with
  | nil => rfl
  | cons t us =>
    rw [bind_peek_cons, ofStmt, readStmt]
    dsimp only
    rcases t.kind with _ | _ | _ | d | o | k
    · exact ending_bind rfl fun _ _ _ ↦ rfl
    · rfl
    · rfl
    · rfl
    · rfl
    cases k with
    | ye | bol => exact ending_bind rfl fun _ _ _ ↦ rfl
    | agar =>
      exact ending_bind rfl fun _ _ _ ↦ ending_bind rfl fun _ _ _ ↦ ending_bind rfl fun _ _ _ ↦ rfl
    | jabtak | keLiye =>
      exact ending_bind rfl fun _ _ _ ↦ ending_bind rfl fun _ _ _ ↦ rfl
    | «break» | «continue» => cases inLoop <;> rfl
    | nahiAgar | nahi | tak => rfl

theorem of_readBlock (inLoop : Bool) :
    of (readBlock inLoop) = (do
      match ← peek with
      | none => return []
      | some t =>
        if t.kind = .delimiter .rbrace then
          advance
          return []
        else
          let stmt ← ofStmt inLoop
          let body ← of (readBlock inLoop)
          return stmt.toList ++ body) := by
  funext tokens
  cases tokens with
  | nil => rw [of, readBlock]; rfl
  | cons t us =>
    rw [bind_peek_cons, of, readBlock]
    dsimp only
    split
    · rfl
    · exact ending_bind rfl fun _ _ _ ↦ ending_bind rfl fun _ _ _ ↦ rfl

theorem of_readElse (inLoop : Bool) :
    of (readElse inLoop) = (do
      match ← peek with
      | none => return .nothing
      | some t =>
        match t.kind with
        | .keyword .nahiAgar =>
          advance
          let condition ← of (readHead .elseIf)
          let body ← of (readBlock inLoop)
          let orElse ← of (readElse inLoop)
          return .elseIf condition body orElse
        | .keyword .nahi =>
          advance
          let _ ← of (expect (.delimiter .lbrace) (.noBody .otherwise))
          let body ← of (readBlock inLoop)
          return .otherwise body
        | _ => return .nothing) := by
  funext tokens
  cases tokens with
  | nil => rw [of, readElse]; rfl
  | cons t us =>
    rw [bind_peek_cons, of, readElse]
    dsimp only
    rcases t.kind with _ | _ | _ | d | o | k
    · rfl
    · rfl
    · rfl
    · rfl
    · rfl
    cases k with
    | nahiAgar =>
      exact ending_bind rfl fun _ _ _ ↦ ending_bind rfl fun _ _ _ ↦ ending_bind rfl fun _ _ _ ↦ rfl
    | nahi => exact ending_bind rfl fun _ _ _ ↦ ending_bind rfl fun _ _ _ ↦ rfl
    | ye | bol | agar | jabtak | keLiye | tak | «break» | «continue» => rfl

/-! ## Programs -/

/-- Where the end of all reading leaves the cursor. -/
def finish : Except ParseFailure α → Except ParseFault α × List Token
  | .ok value => (.ok value, [])
  | .error failure => (.error failure.fault, failure.rest)

theorem rest_eq_nil {result : Except ParseFailure α} {value : α} {rest : List Token}
    (h : finish result = (.ok value, rest)) : rest = [] := by
  rcases result with failure | value
  · cases h
  · cases h
    rfl

theorem finish_bind {outcome : Outcome α m} {f : Reading α m → Except ParseFailure β}
    {read : Cursor α} {next : α → Cursor β} {tokens : List Token}
    (hread : ending outcome = read tokens)
    (hnext : ∀ value rest h, finish (f ⟨value, rest, h⟩) = next value rest) :
    finish (outcome >>= f) = (read >>= next) tokens := by
  rw [bind_apply, ← hread]
  cases outcome with
  | error failure => rfl
  | ok reading => exact hnext reading.value reading.rest reading.rest_lt

/-- The program that reads statements to the end of the tokens. -/
def ofStmts : Cursor (List Stmt) := fun tokens ↦ finish (readStmts tokens)

theorem ofStmts_eq :
    ofStmts = (do
      match ← peek with
      | none => return []
      | some _ =>
        let stmt ← ofStmt false
        let body ← ofStmts
        return stmt.toList ++ body) := by
  funext tokens
  cases tokens with
  | nil => rw [ofStmts, readStmts]; rfl
  | cons t us =>
    rw [bind_peek_cons, ofStmts, readStmts]
    refine finish_bind rfl fun stmt us₁ _ ↦ ?_
    rw [bind_apply, ofStmts]
    dsimp only
    cases readStmts us₁ with
    | error failure => rfl
    | ok body => rfl

end Cursor

end JPlusPlus
