import JPlusPlus.Proofs.Parse.Cursor

/-!
# How far the parser looks

The parser reads from left to right and decides what to do by the token at its cursor alone. So what
it comes to depends on the tokens it has moved past and on the one at its cursor in the end, and on
no token after that one. This holds of a fault as well as of a value: a fault that is met at a token
stays the same fault whatever follows that token.

A fault that is met at the end of the tokens is another matter, since more tokens may mend it.

## Main statements

* `Cursor.LooksAhead.bind`: a program made of two that look one token ahead looks no further.
* `Cursor.looksAhead_ofStmts`: the parser looks one token ahead.
-/

namespace JPlusPlus

namespace Cursor

variable {α β : Type}

/-- From these tokens the program looks no further than at the token where it leaves the cursor:
with any other tokens after that one it comes to the same value or fault, at the same place. -/
def LooksAhead (read : Cursor α) (tokens : List Token) : Prop :=
  ∃ taken, tokens = taken ++ (read tokens).2 ∧
    ∀ rest, rest.head? = (read tokens).2.head? → read (taken ++ rest) = ((read tokens).1, rest)

theorem head?_append_congr {rest rest' : List Token} (h : rest.head? = rest'.head?)
    (taken : List Token) : (taken ++ rest).head? = (taken ++ rest').head? := by
  rw [List.head?_append, List.head?_append, h]

namespace LooksAhead

theorem pure (value : α) (tokens : List Token) : LooksAhead (Pure.pure value) tokens :=
  ⟨[], rfl, fun _ _ ↦ rfl⟩

theorem fail (fault : ParseFault) (tokens : List Token) :
    LooksAhead (Cursor.fail fault : Cursor α) tokens :=
  ⟨[], rfl, fun _ _ ↦ rfl⟩

/-- What is done after a look at the token at the cursor may depend on that token. -/
theorem peek {next : Option Token → Cursor α} {tokens : List Token}
    (h : LooksAhead (next tokens.head?) tokens) : LooksAhead (Cursor.peek >>= next) tokens := by
  obtain ⟨taken, htokens, hsame⟩ := h
  refine ⟨taken, htokens, fun rest hrest ↦ ?_⟩
  have hhead : (taken ++ rest).head? = tokens.head? := by
    rw [head?_append_congr hrest taken]
    exact congrArg List.head? htokens.symm
  show next (taken ++ rest).head? (taken ++ rest) = _
  rw [hhead, hsame rest hrest]
  rfl

theorem advance {next : Cursor α} {t : Token} {us : List Token} (h : LooksAhead next us) :
    LooksAhead (Cursor.advance >>= fun _ ↦ next) (t :: us) := by
  obtain ⟨taken, hus, hsame⟩ := h
  exact ⟨t :: taken, congrArg (t :: ·) hus, hsame⟩

theorem bind {read : Cursor α} {next : α → Cursor β} {tokens : List Token}
    (h : LooksAhead read tokens)
    (hnext : ∀ value rest, read tokens = (.ok value, rest) → LooksAhead (next value) rest) :
    LooksAhead (read >>= next) tokens := by
  obtain ⟨taken, htokens, hsame⟩ := h
  rcases hread : read tokens with ⟨fault | value, rest⟩
  · rw [hread] at htokens hsame
    have hend : (read >>= next) tokens = (.error fault, rest) := by rw [bind_apply, hread]
    refine ⟨taken, by rwa [hend], fun rest' hrest' ↦ ?_⟩
    rw [hend] at hrest' ⊢
    rw [bind_apply, hsame rest' hrest']
  · rw [hread] at htokens hsame
    obtain ⟨more, hrest, hmore⟩ := hnext value rest hread
    have hend : (read >>= next) tokens = next value rest := by rw [bind_apply, hread]
    refine ⟨taken ++ more, ?_, fun rest' hrest' ↦ ?_⟩
    · rw [hend, List.append_assoc, ← hrest]
      exact htokens
    · rw [hend] at hrest' ⊢
      -- The first part ends before the second starts, at a token that is the same as before.
      have hhead : (more ++ rest').head? = rest.head? := by
        rw [head?_append_congr hrest' more]
        exact congrArg List.head? hrest.symm
      rw [bind_apply, List.append_assoc, hsame _ hhead]
      exact hmore rest' hrest'

end LooksAhead

theorem looksAhead_expect (kind : Kind) (fault : ParseFault) (tokens : List Token) :
    LooksAhead (of (expect kind fault)) tokens := by
  rw [of_expect]
  refine .peek ?_
  cases tokens with
  | nil => exact .fail fault []
  | cons t us =>
    dsimp only [List.head?_cons]
    split
    · exact .advance (.pure t us)
    · exact .fail fault _

/-! ## Expressions -/

mutual

theorem looksAhead_readAtom (tokens : List Token) : LooksAhead (of readAtom) tokens := by
  rw [of_readAtom]
  refine .peek ?_
  cases tokens with
  | nil => exact .fail _ []
  | cons t us =>
    dsimp only [List.head?_cons]
    split
    · exact .advance ((looksAhead_readLevel .sum us).bind fun e us₁ _ ↦
        (looksAhead_expect _ _ us₁).bind fun _ us₂ _ ↦ .pure e us₂)
    · exact .advance (.pure _ us)
    · exact .advance (.pure _ us)
    · exact .advance (.pure _ us)
    · exact .fail _ _
termination_by (tokens.length, 0)

theorem looksAhead_readOperand (level : Level) (tokens : List Token) :
    LooksAhead (of (readOperand level)) tokens := by
  cases level with
  | sum =>
    rw [of_readOperand_sum]
    exact looksAhead_readLevel .concat tokens
  | concat =>
    rw [of_readOperand_concat]
    exact looksAhead_readLevel .product tokens
  | product =>
    rw [of_readOperand_product]
    exact looksAhead_readAtom tokens
termination_by (tokens.length, 2 * level.rank)
decreasing_by all_goals simp [Prod.lex_def, Level.rank]

theorem looksAhead_readLevel (level : Level) (tokens : List Token) :
    LooksAhead (of (readLevel level)) tokens := by
  rw [of_readLevel]
  refine (looksAhead_readOperand level tokens).bind fun left us h ↦ ?_
  have hlt := rest_length_lt h
  exact looksAhead_readTail level left us
termination_by (tokens.length, 2 * level.rank + 1)

theorem looksAhead_readTail (level : Level) (left : Expr) (tokens : List Token) :
    LooksAhead (of (readTail level left)) tokens := by
  rw [of_readTail]
  refine .peek ?_
  cases tokens with
  | nil => exact .pure left []
  | cons t us =>
    dsimp only [List.head?_cons, Option.bind_some]
    split
    · exact .pure left _
    · refine .advance ((looksAhead_readOperand level us).bind fun right us₁ h ↦ ?_)
      have hlt := rest_length_lt h
      exact looksAhead_readTail level _ us₁
termination_by (tokens.length, 0)

end

theorem looksAhead_readExpr (tokens : List Token) : LooksAhead (of readExpr) tokens :=
  looksAhead_readLevel .sum tokens

theorem looksAhead_readCondition (tokens : List Token) : LooksAhead (of readCondition) tokens := by
  rw [of_readCondition]
  refine (looksAhead_readExpr tokens).bind fun left us _ ↦ .peek ?_
  cases us with
  | nil => exact .fail _ []
  | cons t us =>
    dsimp only [List.head?_cons, Option.bind_some]
    split
    · exact .fail _ _
    · exact .advance ((looksAhead_readExpr us).bind fun right rest _ ↦ .pure _ rest)

/-! ## Statements without bodies, and the heads of the others -/

theorem looksAhead_readDeclaration (tokens : List Token) :
    LooksAhead (of readDeclaration) tokens := by
  rw [of_readDeclaration]
  refine (looksAhead_expect _ _ tokens).bind fun name us _ ↦ .peek ?_
  cases us with
  | nil => exact .pure _ []
  | cons t us =>
    dsimp only [List.head?_cons]
    split
    · exact .advance ((looksAhead_readExpr us).bind fun value rest _ ↦ .pure _ rest)
    · exact .pure _ _

theorem looksAhead_readAssignment (name : String) (tokens : List Token) :
    LooksAhead (of (readAssignment name)) tokens := by
  rw [of_readAssignment]
  exact (looksAhead_expect _ _ tokens).bind fun _ us _ ↦
    (looksAhead_readExpr us).bind fun value rest _ ↦ .pure _ rest

theorem looksAhead_readPrint (tokens : List Token) : LooksAhead (of readPrint) tokens := by
  rw [of_readPrint]
  refine .peek ?_
  cases tokens with
  | nil => exact .fail _ []
  | cons t us => exact (looksAhead_readExpr (t :: us)).bind fun value rest _ ↦ .pure _ rest

theorem looksAhead_readHead (place : BodyPlace) (tokens : List Token) :
    LooksAhead (of (readHead place)) tokens := by
  rw [of_readHead]
  exact (looksAhead_readCondition tokens).bind fun condition us _ ↦
    (looksAhead_expect _ _ us).bind fun _ rest _ ↦ .pure condition rest

theorem looksAhead_readCount (tokens : List Token) : LooksAhead (of readCount) tokens := by
  rw [of_readCount]
  exact (looksAhead_expect _ _ tokens).bind fun counter us₁ _ ↦
    (looksAhead_expect _ _ us₁).bind fun _ us₂ _ ↦
    (looksAhead_readExpr us₂).bind fun start us₃ _ ↦
    (looksAhead_expect _ _ us₃).bind fun _ us₄ _ ↦
    (looksAhead_readExpr us₄).bind fun stop us₅ _ ↦
    (looksAhead_expect _ _ us₅).bind fun _ us₆ _ ↦ .pure _ us₆

/-! ## Statements with bodies -/

mutual

theorem looksAhead_ofStmt (inLoop : Bool) (tokens : List Token) :
    LooksAhead (ofStmt inLoop) tokens := by
  rw [ofStmt_eq]
  refine .peek ?_
  cases tokens with
  | nil => exact .pure none []
  | cons t us =>
    dsimp only [List.head?_cons]
    split
    · exact .advance ((looksAhead_readDeclaration us).bind fun _ rest _ ↦ .pure _ rest)
    · exact .advance ((looksAhead_readPrint us).bind fun _ rest _ ↦ .pure _ rest)
    · refine .advance ((looksAhead_readHead _ us).bind fun condition us₁ h₁ ↦ ?_)
      have hlt₁ := rest_length_lt h₁
      refine (looksAhead_readBlock inLoop us₁).bind fun body us₂ h₂ ↦ ?_
      have hlt₂ : us₂.length < us₁.length + 1 := rest_length_lt h₂
      exact (looksAhead_readElse inLoop us₂).bind fun orElse us₃ _ ↦ .pure _ us₃
    · refine .advance ((looksAhead_readHead _ us).bind fun condition us₁ h₁ ↦ ?_)
      have hlt₁ := rest_length_lt h₁
      exact (looksAhead_readBlock true us₁).bind fun body us₂ _ ↦ .pure _ us₂
    · refine .advance ((looksAhead_readCount us).bind fun count us₁ h₁ ↦ ?_)
      have hlt₁ := rest_length_lt h₁
      exact (looksAhead_readBlock true us₁).bind fun body us₂ _ ↦ .pure _ us₂
    · split
      · exact .advance (.pure _ us)
      · exact .fail _ _
    · split
      · exact .advance (.pure _ us)
      · exact .fail _ _
    · exact .advance ((looksAhead_readAssignment _ us).bind fun _ rest _ ↦ .pure _ rest)
    · exact .advance (.pure none us)
termination_by (tokens.length, 0)

theorem looksAhead_readBlock (inLoop : Bool) (tokens : List Token) :
    LooksAhead (of (readBlock inLoop)) tokens := by
  rw [of_readBlock]
  refine .peek ?_
  cases tokens with
  | nil => exact .pure _ []
  | cons t us =>
    dsimp only [List.head?_cons]
    split
    · exact .advance (.pure _ us)
    · refine (looksAhead_ofStmt inLoop (t :: us)).bind fun stmt us₁ h₁ ↦ ?_
      have hlt : us₁.length < us.length + 1 := rest_length_lt h₁
      exact (looksAhead_readBlock inLoop us₁).bind fun body us₂ _ ↦ .pure _ us₂
termination_by (tokens.length, 1)

theorem looksAhead_readElse (inLoop : Bool) (tokens : List Token) :
    LooksAhead (of (readElse inLoop)) tokens := by
  rw [of_readElse]
  refine .peek ?_
  cases tokens with
  | nil => exact .pure _ []
  | cons t us =>
    dsimp only [List.head?_cons]
    split
    · refine .advance ((looksAhead_readHead _ us).bind fun condition us₁ h₁ ↦ ?_)
      have hlt₁ := rest_length_lt h₁
      refine (looksAhead_readBlock inLoop us₁).bind fun body us₂ h₂ ↦ ?_
      have hlt₂ : us₂.length < us₁.length + 1 := rest_length_lt h₂
      exact (looksAhead_readElse inLoop us₂).bind fun orElse us₃ _ ↦ .pure _ us₃
    · refine .advance ((looksAhead_expect _ _ us).bind fun _ us₁ h₁ ↦ ?_)
      have hlt₁ := rest_length_lt h₁
      exact (looksAhead_readBlock inLoop us₁).bind fun body us₂ _ ↦ .pure _ us₂
    · exact .pure _ _
termination_by (tokens.length, 1)

end

/-- The parser looks one token ahead. -/
theorem looksAhead_ofStmts (tokens : List Token) : LooksAhead ofStmts tokens := by
  rw [ofStmts_eq]
  refine .peek ?_
  cases tokens with
  | nil => exact .pure _ []
  | cons t us =>
    refine (looksAhead_ofStmt false (t :: us)).bind fun stmt us₁ h₁ ↦ ?_
    have hlt : us₁.length < us.length + 1 := rest_length_lt h₁
    exact (looksAhead_ofStmts us₁).bind fun body us₂ _ ↦ .pure _ us₂
termination_by tokens.length

theorem ofStmts_eq_error {tokens rest : List Token} {fault : ParseFault} :
    ofStmts tokens = (.error fault, rest) ↔ readStmts tokens = .error ⟨fault, rest⟩ := by
  rw [ofStmts]
  rcases readStmts tokens with ⟨fault', rest'⟩ | body
  · simp [finish]
  · simp [finish]

end Cursor

theorem parse_eq_error_of_readStmts {tokens : List Token} {failure : ParseFailure}
    (h : readStmts tokens = .error failure) : parse tokens = .error failure.fault := by
  rw [parse, h]

/-- **A fault at a token is final.** When the parser meets a fault with its cursor at a token, then
whatever tokens stand after that one, it meets the same fault at the same place. In particular more
tokens at the end change nothing. -/
theorem parse_fault_at_token {tokens rest : List Token} {t : Token} {fault : ParseFault}
    (h : readStmts tokens = .error ⟨fault, t :: rest⟩) :
    parse tokens = .error fault ∧ (∀ us, parse (tokens ++ us) = .error fault) ∧
      ∃ before, tokens = before ++ t :: rest ∧ ∀ rest',
        readStmts (before ++ t :: rest') = .error ⟨fault, t :: rest'⟩ ∧
          parse (before ++ t :: rest') = .error fault := by
  obtain ⟨before, htokens, hsame⟩ := Cursor.looksAhead_ofStmts tokens
  rw [Cursor.ofStmts_eq_error.mpr h] at htokens hsame
  have hfinal (rest' : List Token) :
      readStmts (before ++ t :: rest') = .error ⟨fault, t :: rest'⟩ :=
    Cursor.ofStmts_eq_error.mp (hsame (t :: rest') rfl)
  have hparse (rest' : List Token) : parse (before ++ t :: rest') = .error fault :=
    parse_eq_error_of_readStmts (hfinal rest')
  refine ⟨parse_eq_error_of_readStmts h, fun us ↦ ?_, before, htokens,
    fun rest' ↦ ⟨hfinal rest', hparse rest'⟩⟩
  rw [htokens, List.append_assoc]
  exact hparse (rest ++ us)

/-- In `jabtak x == ( 1 { bol )` the parenthesis is not closed where the brace stands. -/
theorem parse_fault_at_token_brace :
    let before : List Token := [Keyword.jabtak.token, ⟨.ident, "x"⟩, Operator.eqEq.token,
      Delimiter.lparen.token, ⟨.integer, "1"⟩]
    let rest : List Token := [Keyword.bol.token, Delimiter.rparen.token]
    readStmts (before ++ Delimiter.lbrace.token :: rest) =
        .error ⟨.noClosingParen, Delimiter.lbrace.token :: rest⟩ ∧
      parse (before ++ Delimiter.lbrace.token :: rest) = .error .noClosingParen ∧
      ∀ us, parse (before ++ Delimiter.lbrace.token :: rest ++ us) = .error .noClosingParen := by
  intro before rest
  have hfault : readStmts (before ++ Delimiter.lbrace.token :: rest) =
      .error ⟨.noClosingParen, Delimiter.lbrace.token :: rest⟩ := by
    simp [before, rest, Keyword.token, Operator.token, Delimiter.token, readStmts, readStmt,
      readHead, readCondition, readExpr, readLevel, readOperand, readTail, readAtom, expect,
      Level.join?, CompareOp.ofKind?, Reading.map, bind, Except.bind, pure, Except.pure]
  obtain ⟨hparse, hmore, -⟩ := parse_fault_at_token hfault
  exact ⟨hfault, hparse, hmore⟩

end JPlusPlus
