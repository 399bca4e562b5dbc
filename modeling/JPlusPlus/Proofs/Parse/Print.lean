import JPlusPlus.Proofs.Parse.Exact
import JPlusPlus.Proofs.Token.Render

/-!
# Programs written as source

A program is written token by token. An operand stands in parentheses only where it would otherwise
be read into something else: on the left of an operator when it is of a looser sort than the
operation, and on the right also when it is of the same sort, since operations group to the left.

What is written this way spells the program in the sense of the grammar, and every token of it can
be read back, so scanning and parsing give the program again. No statement needs an end mark: the
next one starts with a token that goes on with nothing.
-/

namespace JPlusPlus

/-! ## Programs that can be written -/

/-- A number in the form in which numbers are kept: `0`, or digits that do not start with `0`. -/
def isNumeral (digits : String) : Bool :=
  digits = "0" || isDigits digits && digits.toList.head? ≠ some '0'

/-- The names and numbers of an expression have the forms that source can spell. -/
def Expr.isWellFormed : Expr → Bool
  | number digits => isNumeral digits
  | string _ => true
  | ident name => isIdentifier name
  | binary _ left right => left.isWellFormed && right.isWellFormed
  | concat left right => left.isWellFormed && right.isWellFormed

/-- The names and numbers of a condition have the forms that source can spell. -/
def Condition.isWellFormed (condition : Condition) : Bool :=
  condition.left.isWellFormed && condition.right.isWellFormed

mutual

/-- The names and numbers of a statement have the forms that source can spell, and `break` and
`continue` stand in loops only, where `inLoop` says whether a loop encloses the statement. -/
def Stmt.isWellFormed (inLoop : Bool) : Stmt → Bool
  | .declare name value => isIdentifier name && value.all Expr.isWellFormed
  | .assign name value => isIdentifier name && value.isWellFormed
  | .print value => value.isWellFormed
  | .branch condition body orElse =>
    condition.isWellFormed && Stmt.areWellFormed inLoop body && orElse.isWellFormed inLoop
  | .whileLoop condition body => condition.isWellFormed && Stmt.areWellFormed true body
  | .forLoop counter start stop body =>
    isIdentifier counter && start.isWellFormed && stop.isWellFormed && Stmt.areWellFormed true body
  | .break => inLoop
  | .continue => inLoop

/-- Every statement of a body is well formed. -/
def Stmt.areWellFormed (inLoop : Bool) : List Stmt → Bool
  | [] => true
  | stmt :: more => stmt.isWellFormed inLoop && Stmt.areWellFormed inLoop more

/-- What a conditional does when its condition fails is well formed. -/
def ElseChain.isWellFormed (inLoop : Bool) : ElseChain → Bool
  | .nothing => true
  | .otherwise body => Stmt.areWellFormed inLoop body
  | .elseIf condition body orElse =>
    condition.isWellFormed && Stmt.areWellFormed inLoop body && orElse.isWellFormed inLoop

end

/-- Every statement of a program is well formed. -/
def Program.isWellFormed (program : Program) : Bool := Stmt.areWellFormed false program.body

/-! ## Writing -/

/-- How tightly an expression of a sort holds together. -/
def ExprSort.rank : ExprSort → Nat
  | sum => 0
  | concat => 1
  | product => 2
  | atom => 3

/-- The sort of an arithmetic operation. -/
def ArithOp.sort : ArithOp → ExprSort
  | add | sub => .sum
  | mul | div => .product

/-- The loosest sort that may stand on the right of an arithmetic operation. -/
def ArithOp.rightSort : ArithOp → ExprSort
  | add | sub => .concat
  | mul | div => .atom

/-- The tightest sort of an expression. -/
def Expr.sort : Expr → ExprSort
  | number _ | string _ | ident _ => .atom
  | binary op _ _ => op.sort
  | concat _ _ => .concat

/-- Tokens of sort `own` where `wanted` is the loosest sort allowed: in parentheses if need be. -/
def fit (wanted own : ExprSort) (tokens : List Token) : List Token :=
  if own.rank < wanted.rank then
    Delimiter.lparen.token :: tokens ++ [Delimiter.rparen.token]
  else tokens

/-- The token of a name. -/
def nameToken (name : String) : Token := ⟨.ident, name⟩

/-- An expression as it is written. -/
def Expr.tokens : Expr → List Token
  | number digits => [⟨.integer, digits⟩]
  | string value => [⟨.string, value⟩]
  | ident name => [nameToken name]
  | binary op left right =>
    fit op.sort left.sort left.tokens ++ op.mark.token ::
      fit op.rightSort right.sort right.tokens
  | concat left right =>
    fit .concat left.sort left.tokens ++ Operator.dot.token ::
      fit .product right.sort right.tokens

/-- A condition as it is written. -/
def Condition.tokens (condition : Condition) : List Token :=
  condition.left.tokens ++ condition.op.mark.token :: condition.right.tokens

mutual

/-- A statement as it is written. -/
def Stmt.tokens : Stmt → List Token
  | .declare name none => [Keyword.ye.token, nameToken name]
  | .declare name (some value) =>
    Keyword.ye.token :: nameToken name :: Operator.assign.token :: value.tokens
  | .assign name value => nameToken name :: Operator.assign.token :: value.tokens
  | .print value => Keyword.bol.token :: value.tokens
  | .branch condition body orElse =>
    Keyword.agar.token :: ((condition.tokens ++ [Delimiter.lbrace.token]) ++
      ((Stmt.allTokens body ++ [Delimiter.rbrace.token]) ++ orElse.tokens))
  | .whileLoop condition body =>
    Keyword.jabtak.token :: ((condition.tokens ++ [Delimiter.lbrace.token]) ++
      (Stmt.allTokens body ++ [Delimiter.rbrace.token]))
  | .forLoop counter start stop body =>
    Keyword.keLiye.token :: nameToken counter :: Operator.assign.token :: (start.tokens ++
      Keyword.tak.token :: (stop.tokens ++ Delimiter.lbrace.token ::
        (Stmt.allTokens body ++ [Delimiter.rbrace.token])))
  | .break => [Keyword.break.token]
  | .continue => [Keyword.continue.token]

/-- Statements as they are written. -/
def Stmt.allTokens : List Stmt → List Token
  | [] => []
  | stmt :: more => stmt.tokens ++ Stmt.allTokens more

/-- What a conditional does when its condition fails, as it is written. -/
def ElseChain.tokens : ElseChain → List Token
  | .nothing => []
  | .otherwise body =>
    Keyword.nahi.token :: Delimiter.lbrace.token ::
      (Stmt.allTokens body ++ [Delimiter.rbrace.token])
  | .elseIf condition body orElse =>
    Keyword.nahiAgar.token :: ((condition.tokens ++ [Delimiter.lbrace.token]) ++
      ((Stmt.allTokens body ++ [Delimiter.rbrace.token]) ++ orElse.tokens))

end

/-- A program as it is written. -/
def Program.tokens (program : Program) : List Token := Stmt.allTokens program.body

/-- The source text of a program, with every token on a line of its own. -/
def Program.print (program : Program) : String := render program.tokens

/-! ## Expressions are spelled by their tokens -/

theorem normalDigits_of_isNumeral {digits : String} (h : isNumeral digits = true) :
    normalDigits digits = digits := by
  rw [isNumeral, Bool.or_eq_true, Bool.and_eq_true, decide_eq_true_eq, decide_eq_true_eq] at h
  rcases h with rfl | ⟨hdigits, hhead⟩
  · rfl
  rw [normalDigits]
  rw [isDigits, Bool.and_eq_true] at hdigits
  cases hd : digits.toList with
  | nil => simp [hd] at hdigits
  | cons c cs =>
    have hc : c ≠ '0' := by simpa [hd] using hhead
    rw [List.dropWhile_cons_of_neg (by simpa using hc)]
    show String.ofList (c :: cs) = digits
    rw [← hd, String.ofList_toList]

theorem isDigits_of_isNumeral {digits : String} (h : isNumeral digits = true) :
    isDigits digits = true := by
  rw [isNumeral, Bool.or_eq_true, Bool.and_eq_true, decide_eq_true_eq] at h
  rcases h with rfl | h
  · decide
  · exact h.1

/-- An expression of a tight sort is one of every looser sort. -/
theorem DerivesExpr.loosen {sort wanted : ExprSort} {us : List Token} {e : Expr}
    (h : DerivesExpr sort us e) (hle : wanted.rank ≤ sort.rank) : DerivesExpr wanted us e := by
  cases sort with
  | sum =>
    cases wanted with
    | sum => exact h
    | concat | product | atom => exact absurd hle (by decide)
  | concat =>
    cases wanted with
    | sum => exact .sumSingle h
    | concat => exact h
    | product | atom => exact absurd hle (by decide)
  | product =>
    cases wanted with
    | sum => exact .sumSingle (.concatSingle h)
    | concat => exact .concatSingle h
    | product => exact h
    | atom => exact absurd hle (by decide)
  | atom =>
    cases wanted with
    | sum => exact .sumSingle (.concatSingle (.productSingle h))
    | concat => exact .concatSingle (.productSingle h)
    | product => exact .productSingle h
    | atom => exact h

theorem DerivesExpr.fit {own wanted : ExprSort} {us : List Token} {e : Expr}
    (h : DerivesExpr own us e) : DerivesExpr wanted (fit wanted own us) e := by
  rw [JPlusPlus.fit]
  split
  · -- In parentheses an expression is an atom, which is of every sort.
    have hatom : DerivesExpr .atom (Delimiter.lparen.token :: us ++ [Delimiter.rparen.token]) e :=
      .parens rfl (h.loosen (Nat.zero_le _)) rfl
    exact hatom.loosen (by cases wanted <;> decide)
  · exact h.loosen (by omega)

theorem Expr.derives_tokens {e : Expr} (h : e.isWellFormed = true) :
    DerivesExpr e.sort e.tokens e := by
  induction e with
  | number digits =>
    have hnumber := DerivesExpr.number (t := ⟨.integer, digits⟩) rfl
    rwa [normalDigits_of_isNumeral h] at hnumber
  | string value => exact .string (t := ⟨.string, value⟩) rfl
  | ident name => exact .ident (t := nameToken name) rfl
  | binary op left right ihl ihr =>
    obtain ⟨hl, hr⟩ := Bool.and_eq_true_iff.mp h
    cases op with
    | add => exact .sum (ihl hl).fit (.inl rfl) rfl (ihr hr).fit
    | sub => exact .sum (ihl hl).fit (.inr rfl) rfl (ihr hr).fit
    | mul => exact .product (ihl hl).fit (.inl rfl) rfl (ihr hr).fit
    | div => exact .product (ihl hl).fit (.inr rfl) rfl (ihr hr).fit
  | concat left right ihl ihr =>
    obtain ⟨hl, hr⟩ := Bool.and_eq_true_iff.mp h
    exact .concat (ihl hl).fit rfl (ihr hr).fit

example :
    (Expr.binary .sub (.binary .sub (.ident "a") (.ident "b"))
      (.binary .add (.ident "c") (.concat (.ident "d") (.ident "e")))).tokens.map Token.text =
      ["a", "-", "b", "-", "(", "c", "+", "d", ".", "e", ")"] := rfl

/-! ## Statements are spelled by their tokens -/

/-- What may follow a statement: another one, a closing brace or nothing. -/
def EndsStmt (rest : List Token) : Prop :=
  ∀ kind, nextKind rest = some kind → kind ∈ .delimiter .rbrace :: stmtStarts

/-- No token that may follow a statement goes on with it. -/
theorem EndsStmt.ne {rest : List Token} (h : EndsStmt rest) {kind : Kind}
    (hk : kind ∉ .delimiter .rbrace :: stmtStarts) : nextKind rest ≠ some kind :=
  fun he ↦ hk (h kind he)

theorem endsStmt_nil : EndsStmt [] := nofun

theorem endsStmt_rbrace (rest : List Token) : EndsStmt (Delimiter.rbrace.token :: rest) := by
  rintro kind hk
  obtain rfl := Option.some.inj hk
  exact List.mem_cons_self

/-- A statement starts with a token that starts statements. -/
theorem endsStmt_tokens (s : Stmt) (rest : List Token) : EndsStmt (s.tokens ++ rest) := by
  have hfirst : ∃ t us, s.tokens = t :: us ∧ t.kind ∈ stmtStarts := by
    cases s with
    | declare name value => cases value <;> exact ⟨_, _, rfl, by decide⟩
    | assign => exact ⟨_, _, rfl, by simp [nameToken, stmtStarts]⟩
    | print | branch | whileLoop | forLoop | «break» | «continue» =>
      exact ⟨_, _, rfl, by decide⟩
  obtain ⟨t, us, he, ht⟩ := hfirst
  rw [he]
  rintro kind hk
  obtain rfl := Option.some.inj hk
  exact List.mem_cons_of_mem _ ht

theorem endsStmt_allTokens (body : List Stmt) {rest : List Token} (h : EndsStmt rest) :
    EndsStmt (Stmt.allTokens body ++ rest) := by
  cases body with
  | nil => exact h
  | cons s more =>
    rw [Stmt.allTokens, List.append_assoc]
    exact endsStmt_tokens s _

theorem Expr.derivesWhole_tokens {e : Expr} (h : e.isWellFormed = true) {rest : List Token}
    (hrest : ∀ o ∈ exprOperators, nextKind rest ≠ some (.operator o)) :
    DerivesWhole e.tokens rest e :=
  ⟨(Expr.derives_tokens h).loosen (Nat.zero_le _), hrest⟩

theorem EndsStmt.noOperator {rest : List Token} (h : EndsStmt rest) :
    ∀ o ∈ exprOperators, nextKind rest ≠ some (.operator o) := by
  intro o _
  exact h.ne (by simp [stmtStarts])

/-- The head of a conditional or of a loop. -/
theorem Condition.derivesHead_tokens {c : Condition} (h : c.isWellFormed = true)
    (rest : List Token) : DerivesHead (c.tokens ++ [Delimiter.lbrace.token]) rest c := by
  obtain ⟨hl, hr⟩ := Bool.and_eq_true_iff.mp h
  refine .mk (.mk (Expr.derivesWhole_tokens hl ?_) rfl (Expr.derivesWhole_tokens hr ?_)) rfl
  · have hop : c.op.mark ∉ exprOperators := by cases c.op <;> decide
    rintro o ho he
    have hmark : c.op.mark = o := by simpa [Operator.token] using he
    exact hop (hmark ▸ ho)
  · intro o _
    simp [Delimiter.token]

mutual

theorem Stmt.derives_tokens {inLoop : Bool} {rest : List Token} (hrest : EndsStmt rest) :
    ∀ {s : Stmt}, s.isWellFormed inLoop = true → DerivesStmt inLoop s.tokens rest s
  | .declare name none, h => .declare rfl rfl (hrest.ne (by decide))
  | .declare name (some value), h =>
    .declareValue rfl rfl rfl
      (Expr.derivesWhole_tokens (Bool.and_eq_true_iff.mp h).2 hrest.noOperator)
  | .assign name value, h =>
    .assign rfl rfl (Expr.derivesWhole_tokens (Bool.and_eq_true_iff.mp h).2 hrest.noOperator)
  | .print value, h => .print rfl (Expr.derivesWhole_tokens h hrest.noOperator)
  | .branch c body orElse, h => by
    rw [Stmt.isWellFormed, Bool.and_eq_true, Bool.and_eq_true] at h
    obtain ⟨⟨hc, hb⟩, he⟩ := h
    have hblock : DerivesBlock inLoop (Stmt.allTokens body ++ [Delimiter.rbrace.token])
        (orElse.tokens ++ rest) body :=
      .closed (Stmt.derives_allTokens (endsStmt_rbrace _) hb) rfl
    exact .branch rfl (Condition.derivesHead_tokens hc _) hblock
      (ElseChain.derives_tokens hrest he)
  | .whileLoop c body, h => by
    rw [Stmt.isWellFormed, Bool.and_eq_true] at h
    have hblock : DerivesBlock true (Stmt.allTokens body ++ [Delimiter.rbrace.token]) rest body :=
      .closed (Stmt.derives_allTokens (endsStmt_rbrace _) h.2) rfl
    exact .whileLoop rfl (Condition.derivesHead_tokens h.1 _) hblock
  | .forLoop counter start stop body, h => by
    rw [Stmt.isWellFormed, Bool.and_eq_true, Bool.and_eq_true, Bool.and_eq_true] at h
    obtain ⟨⟨⟨_, hs⟩, he⟩, hb⟩ := h
    have hblock : DerivesBlock true (Stmt.allTokens body ++ [Delimiter.rbrace.token]) rest body :=
      .closed (Stmt.derives_allTokens (endsStmt_rbrace _) hb) rfl
    refine .forLoop rfl rfl rfl (Expr.derivesWhole_tokens hs ?_) rfl
      (Expr.derivesWhole_tokens he ?_) rfl hblock
    · intro o _
      simp [Keyword.token]
    · intro o _
      simp [Delimiter.token]
  | .break, h => by
    rw [Stmt.isWellFormed] at h
    exact h ▸ .break rfl
  | .continue, h => by
    rw [Stmt.isWellFormed] at h
    exact h ▸ .continue rfl

theorem ElseChain.derives_tokens {inLoop : Bool} {rest : List Token} (hrest : EndsStmt rest) :
    ∀ {chain : ElseChain}, chain.isWellFormed inLoop = true →
      DerivesElse inLoop chain.tokens rest chain
  | .nothing, _ => .nothing (hrest.ne (by decide)) (hrest.ne (by decide))
  | .otherwise body, h =>
    .otherwise rfl rfl (.closed (Stmt.derives_allTokens (endsStmt_rbrace _) h) rfl)
  | .elseIf c body orElse, h => by
    rw [ElseChain.isWellFormed, Bool.and_eq_true, Bool.and_eq_true] at h
    obtain ⟨⟨hc, hb⟩, he⟩ := h
    have hblock : DerivesBlock inLoop (Stmt.allTokens body ++ [Delimiter.rbrace.token])
        (orElse.tokens ++ rest) body :=
      .closed (Stmt.derives_allTokens (endsStmt_rbrace _) hb) rfl
    exact .elseIf rfl (Condition.derivesHead_tokens hc _) hblock
      (ElseChain.derives_tokens hrest he)

theorem Stmt.derives_allTokens {inBody inLoop : Bool} {rest : List Token} (hrest : EndsStmt rest) :
    ∀ {body : List Stmt}, Stmt.areWellFormed inLoop body = true →
      DerivesStmts inBody inLoop (Stmt.allTokens body) rest body
  | [], _ => .nil
  | s :: more, h => by
    obtain ⟨hs, hm⟩ := Bool.and_eq_true_iff.mp h
    -- The statement is followed by the next one, or by what follows them all.
    exact .cons (Stmt.derives_tokens (endsStmt_allTokens more hrest) hs)
      (Stmt.derives_allTokens hrest hm)

end

/-! ## The tokens can be read back -/

/-- Tokens that a scan can give. -/
def AllLexable (tokens : List Token) : Prop := ∀ token ∈ tokens, token.isLexable = true

@[simp] theorem allLexable_nil : AllLexable [] := nofun

@[simp] theorem allLexable_cons {t : Token} {us : List Token} :
    AllLexable (t :: us) ↔ t.isLexable = true ∧ AllLexable us := List.forall_mem_cons

@[simp] theorem allLexable_append {us vs : List Token} :
    AllLexable (us ++ vs) ↔ AllLexable us ∧ AllLexable vs := List.forall_mem_append

@[simp] theorem isLexable_nameToken (name : String) :
    (nameToken name).isLexable = isIdentifier name := rfl

@[simp] theorem allLexable_fit {wanted own : ExprSort} {us : List Token} :
    AllLexable (fit wanted own us) ↔ AllLexable us := by
  rw [fit]
  split <;> simp

theorem Expr.allLexable_tokens {e : Expr} (h : e.isWellFormed = true) : AllLexable e.tokens := by
  induction e with
  | number digits => simpa [Expr.tokens, Token.isLexable] using isDigits_of_isNumeral h
  | string value => simp [Expr.tokens, Token.isLexable]
  | ident name => simpa [Expr.tokens, Expr.isWellFormed] using h
  | binary op left right ihl ihr =>
    obtain ⟨hl, hr⟩ := Bool.and_eq_true_iff.mp h
    simp [Expr.tokens, ihl hl, ihr hr]
  | concat left right ihl ihr =>
    obtain ⟨hl, hr⟩ := Bool.and_eq_true_iff.mp h
    simp [Expr.tokens, ihl hl, ihr hr]

theorem Condition.allLexable_tokens {c : Condition} (h : c.isWellFormed = true) :
    AllLexable c.tokens := by
  obtain ⟨hl, hr⟩ := Bool.and_eq_true_iff.mp h
  simp [Condition.tokens, Expr.allLexable_tokens hl, Expr.allLexable_tokens hr]

mutual

theorem Stmt.allLexable_tokens {inLoop : Bool} :
    ∀ {s : Stmt}, s.isWellFormed inLoop = true → AllLexable s.tokens
  | .declare name none, h => by simpa [Stmt.tokens, Stmt.isWellFormed] using h
  | .declare name (some value), h => by
    obtain ⟨hn, hv⟩ := Bool.and_eq_true_iff.mp h
    simp [Stmt.tokens, hn, Expr.allLexable_tokens hv]
  | .assign name value, h => by
    obtain ⟨hn, hv⟩ := Bool.and_eq_true_iff.mp h
    simp [Stmt.tokens, hn, Expr.allLexable_tokens hv]
  | .print value, h => by simp [Stmt.tokens, Expr.allLexable_tokens (e := value) h]
  | .branch c body orElse, h => by
    rw [Stmt.isWellFormed, Bool.and_eq_true, Bool.and_eq_true] at h
    obtain ⟨⟨hc, hb⟩, he⟩ := h
    simp [Stmt.tokens, Condition.allLexable_tokens hc, Stmt.allLexable_allTokens hb,
      ElseChain.allLexable_tokens he]
  | .whileLoop c body, h => by
    rw [Stmt.isWellFormed, Bool.and_eq_true] at h
    simp [Stmt.tokens, Condition.allLexable_tokens h.1, Stmt.allLexable_allTokens h.2]
  | .forLoop counter start stop body, h => by
    rw [Stmt.isWellFormed, Bool.and_eq_true, Bool.and_eq_true, Bool.and_eq_true] at h
    obtain ⟨⟨⟨hn, hs⟩, he⟩, hb⟩ := h
    simp [Stmt.tokens, hn, Expr.allLexable_tokens hs, Expr.allLexable_tokens he,
      Stmt.allLexable_allTokens hb]
  | .break, _ => by simp [Stmt.tokens]
  | .continue, _ => by simp [Stmt.tokens]

theorem ElseChain.allLexable_tokens {inLoop : Bool} :
    ∀ {chain : ElseChain}, chain.isWellFormed inLoop = true → AllLexable chain.tokens
  | .nothing, _ => allLexable_nil
  | .otherwise body, h => by
    rw [ElseChain.isWellFormed] at h
    simp [ElseChain.tokens, Stmt.allLexable_allTokens h]
  | .elseIf c body orElse, h => by
    rw [ElseChain.isWellFormed, Bool.and_eq_true, Bool.and_eq_true] at h
    obtain ⟨⟨hc, hb⟩, he⟩ := h
    simp [ElseChain.tokens, Condition.allLexable_tokens hc, Stmt.allLexable_allTokens hb,
      ElseChain.allLexable_tokens he]

theorem Stmt.allLexable_allTokens {inLoop : Bool} :
    ∀ {body : List Stmt}, Stmt.areWellFormed inLoop body = true →
      AllLexable (Stmt.allTokens body)
  | [], _ => allLexable_nil
  | s :: more, h => by
    obtain ⟨hs, hm⟩ := Bool.and_eq_true_iff.mp h
    simp [Stmt.allTokens, Stmt.allLexable_tokens hs, Stmt.allLexable_allTokens hm]

end

/-! ## The round trip -/

theorem Program.derives_tokens {program : Program} (h : program.isWellFormed = true) :
    Derives program.tokens program :=
  Stmt.derives_allTokens endsStmt_nil h

theorem Program.tokenize_print {program : Program} (h : program.isWellFormed = true) :
    tokenize program.print = .ok program.tokens :=
  tokenize_render (Stmt.allLexable_allTokens h)

/-- **A written program is read back**: its source text has tokens, and the parser makes the
program of them. -/
theorem Program.parse_tokenize_print {program : Program} (h : program.isWellFormed = true) :
    ∃ tokens, tokenize program.print = .ok tokens ∧ parse tokens = .ok program :=
  ⟨program.tokens, program.tokenize_print h, Derives.parse_eq (program.derives_tokens h)⟩

/-- The words of `ke liye` are names on their own, a difference on the right of a difference stands
in parentheses, and a string may hold anything. -/
theorem Program.parse_tokenize_print_ke :
    let program : Program := ⟨[.declare "ke" none, .forLoop "liye" (.number "0")
      (.binary .sub (.ident "ke") (.binary .sub (.number "10") (.ident "_ye1")))
      [.branch ⟨.concat (.string "\\\x22\n") (.string "¬"), .notEq, .string ""⟩ [.break]
        (.otherwise [])]]⟩
    program.isWellFormed = true ∧
      ∃ tokens, tokenize program.print = .ok tokens ∧ parse tokens = .ok program :=
  ⟨by decide, Program.parse_tokenize_print (by decide)⟩

end JPlusPlus
