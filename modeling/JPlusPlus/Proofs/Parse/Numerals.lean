import JPlusPlus.Proofs.Parse.WellFormed

/-!
# The numbers that are read

A number is kept as the digits that write it, less the zeros in front, so it stands for the same
number as the token it was read from, however long it is. The numbers of an expression are those of
its tokens, one by one. A token that starts no statement may be an integer too, and such a token is
passed over, so of statements no more is true than that their numbers are some of those of their
tokens, in the same order.

## Main statements

* `decimalValue_normalDigits`: zeros in front do not count.
* `Derives.numerals_sublist`: the numbers of a program are among those of its tokens, in order.
* `parse_isWellFormed_and_numerals`: what is read from a source has the forms of names and numbers,
  keeps `break` and `continue` in loops, and has numbers of the source only.
-/

namespace JPlusPlus

/-! ## Values -/

/-- The number that decimal digits write. -/
def decimalValue (digits : String) : Nat := Nat.ofDigitChars 10 digits.toList 0

theorem ofDigitChars_dropWhile_zero (cs : List Char) :
    Nat.ofDigitChars 10 (cs.dropWhile (· = '0')) 0 = Nat.ofDigitChars 10 cs 0 := by
  induction cs with
  | nil => rfl
  | cons c cs ih =>
    by_cases hc : c = '0'
    · rw [List.dropWhile_cons_of_pos (by simpa using hc), ih, hc, Nat.ofDigitChars_cons]
      rfl
    · rw [List.dropWhile_cons_of_neg (by simpa using hc)]

/-- Digits write the same number without the zeros in front. -/
theorem decimalValue_normalDigits (digits : String) :
    decimalValue (normalDigits digits) = decimalValue digits := by
  rw [decimalValue, decimalValue, ← ofDigitChars_dropWhile_zero digits.toList, normalDigits]
  cases digits.toList.dropWhile (· = '0') with
  | nil => rfl
  | cons c cs => rw [String.toList_ofList]

/-! ## Numbers in programs and in tokens -/

/-- The numbers in an expression, from left to right. -/
def Expr.numerals : Expr → List String
  | number digits => [digits]
  | string _ | ident _ => []
  | binary _ left right | concat left right => left.numerals ++ right.numerals

/-- The numbers in a condition, from left to right. -/
def Condition.numerals (condition : Condition) : List String :=
  condition.left.numerals ++ condition.right.numerals

/-- The numbers in a first value. -/
def numeralsFirst : Option Expr → List String
  | none => []
  | some value => value.numerals

mutual

/-- The numbers in a statement, from left to right. -/
def Stmt.numerals : Stmt → List String
  | .declare _ value => numeralsFirst value
  | .assign _ value => value.numerals
  | .print value => value.numerals
  | .branch condition body orElse =>
    condition.numerals ++ (Stmt.numeralsAll body ++ orElse.numerals)
  | .whileLoop condition body => condition.numerals ++ Stmt.numeralsAll body
  | .forLoop _ start stop body => start.numerals ++ (stop.numerals ++ Stmt.numeralsAll body)
  | .break | .continue => []

/-- The numbers in statements, from left to right. -/
def Stmt.numeralsAll : List Stmt → List String
  | [] => []
  | stmt :: more => stmt.numerals ++ Stmt.numeralsAll more

/-- The numbers in what a conditional does when its condition fails, from left to right. -/
def ElseChain.numerals : ElseChain → List String
  | .nothing => []
  | .otherwise body => Stmt.numeralsAll body
  | .elseIf condition body orElse =>
    condition.numerals ++ (Stmt.numeralsAll body ++ orElse.numerals)

end

/-- The numbers in a program, from left to right. -/
def Program.numerals (program : Program) : List String := Stmt.numeralsAll program.body

/-- The texts of the integers among the tokens. -/
def integerTexts (tokens : List Token) : List String :=
  (tokens.filter fun t ↦ t.kind = .integer).map Token.text

/-- The numbers that the tokens write, in the form in which numbers are kept. -/
def tokenNumerals (tokens : List Token) : List String := (integerTexts tokens).map normalDigits

@[simp] theorem tokenNumerals_nil : tokenNumerals [] = [] := rfl

@[simp] theorem tokenNumerals_cons (t : Token) (us : List Token) :
    tokenNumerals (t :: us) =
      if t.kind = .integer then normalDigits t.text :: tokenNumerals us else tokenNumerals us := by
  by_cases ht : t.kind = .integer <;> simp [tokenNumerals, integerTexts, ht]

@[simp] theorem tokenNumerals_append (us vs : List Token) :
    tokenNumerals (us ++ vs) = tokenNumerals us ++ tokenNumerals vs := by
  simp [tokenNumerals, integerTexts]

/-! ## Expressions -/

theorem DerivesExpr.numerals_eq {sort : ExprSort} {us : List Token} {e : Expr}
    (h : DerivesExpr sort us e) : e.numerals = tokenNumerals us := by
  induction h with
  | sum _ _ hop _ ihl ihr | product _ _ hop _ ihl ihr | concat _ hop _ ihl ihr =>
    simp [Expr.numerals, ihl, ihr, hop]
  | sumSingle _ ih | concatSingle _ ih | productSingle _ ih => exact ih
  | parens hl _ hr ih => simp [ih, hl, hr]
  | number hkind | string hkind | ident hkind => simp [Expr.numerals, hkind]

theorem DerivesWhole.numerals_eq {us rest : List Token} {e : Expr} (h : DerivesWhole us rest e) :
    e.numerals = tokenNumerals us := h.derives.numerals_eq

theorem DerivesHead.numerals_eq {us rest : List Token} {c : Condition}
    (h : DerivesHead us rest c) : c.numerals = tokenNumerals us := by
  obtain ⟨⟨hleft, hop, hright⟩, hb⟩ := h
  simp [Condition.numerals, hleft.numerals_eq, hright.numerals_eq, hop, hb]

/-! ## Statements -/

mutual

theorem DerivesStmt.numerals_sublist {inLoop : Bool} {rest : List Token} {s : Stmt} :
    ∀ {us : List Token}, DerivesStmt inLoop us rest s → s.numerals.Sublist (tokenNumerals us)
  | _, .declare _ _ _ => by simp [Stmt.numerals, numeralsFirst]
  | _, .declareValue ht hname ha he => by
    simp [Stmt.numerals, numeralsFirst, he.numerals_eq, ht, hname, ha]
  | _, .assign hname ha he => by simp [Stmt.numerals, he.numerals_eq, hname, ha]
  | _, .print ht he => by simp [Stmt.numerals, he.numerals_eq, ht]
  | _, .branch ht hc hbody horElse => by
    have hparts := (DerivesBlock.numerals_sublist hbody).append
      (DerivesElse.numerals_sublist horElse)
    simpa [Stmt.numerals, hc.numerals_eq, ht] using hparts
  | _, .whileLoop ht hc hbody => by
    simpa [Stmt.numerals, hc.numerals_eq, ht] using DerivesBlock.numerals_sublist hbody
  | _, .forLoop ht hname ha hstart hk hstop hb hbody => by
    simpa [Stmt.numerals, hstart.numerals_eq, hstop.numerals_eq, ht, hname, ha, hk, hb] using
      DerivesBlock.numerals_sublist hbody
  | _, .break _ => by simp [Stmt.numerals]
  | _, .continue _ => by simp [Stmt.numerals]

theorem DerivesElse.numerals_sublist {inLoop : Bool} {rest : List Token} {chain : ElseChain} :
    ∀ {us : List Token}, DerivesElse inLoop us rest chain →
      chain.numerals.Sublist (tokenNumerals us)
  | _, .nothing _ _ => by simp [ElseChain.numerals]
  | _, .otherwise ht hb hbody => by
    simpa [ElseChain.numerals, ht, hb] using DerivesBlock.numerals_sublist hbody
  | _, .elseIf ht hc hbody horElse => by
    have hparts := (DerivesBlock.numerals_sublist hbody).append
      (DerivesElse.numerals_sublist horElse)
    simpa [ElseChain.numerals, hc.numerals_eq, ht] using hparts

theorem DerivesBlock.numerals_sublist {inLoop : Bool} {rest : List Token} {body : List Stmt} :
    ∀ {us : List Token}, DerivesBlock inLoop us rest body →
      (Stmt.numeralsAll body).Sublist (tokenNumerals us)
  | _, .closed h hb => by simpa [hb] using DerivesStmts.numerals_sublist h
  | _, .unclosed h => DerivesStmts.numerals_sublist h

theorem DerivesStmts.numerals_sublist {inBody inLoop : Bool} {rest : List Token}
    {body : List Stmt} : ∀ {us : List Token}, DerivesStmts inBody inLoop us rest body →
      (Stmt.numeralsAll body).Sublist (tokenNumerals us)
  | _, .nil => by simp [Stmt.numeralsAll]
  | _, @DerivesStmts.junk _ _ t _ _ _ _ _ h => by
    -- The one place where a number of the tokens is lost: an integer between statements.
    have hmore := DerivesStmts.numerals_sublist h
    by_cases ht : t.kind = .integer
    · simpa [ht] using hmore.cons (normalDigits t.text)
    · simpa [ht] using hmore
  | _, .cons hs h => by
    rw [tokenNumerals_append, Stmt.numeralsAll]
    exact (DerivesStmt.numerals_sublist hs).append (DerivesStmts.numerals_sublist h)

end

/-- The numbers of a program are among those of its tokens, in the same order. -/
theorem Derives.numerals_sublist {us : List Token} {p : Program} (h : Derives us p) :
    p.numerals.Sublist (tokenNumerals us) := DerivesStmts.numerals_sublist h

/-! ## Programs of a source -/

theorem map_decimalValue_tokenNumerals (tokens : List Token) :
    (tokenNumerals tokens).map decimalValue = (integerTexts tokens).map decimalValue := by
  rw [tokenNumerals, List.map_map]
  exact List.map_congr_left fun digits _ ↦ decimalValue_normalDigits digits

/-- **What is read from a source is well formed.** At every depth its names are names and no
keywords, its numbers are written without needless zeros, and `break` and `continue` stand in the
body of a loop. Its numbers have the values of integers of the source, in the order of the
source. -/
theorem parse_isWellFormed_and_numerals {source : String} {tokens : List Token} {p : Program}
    (htokens : tokenize source = .ok tokens) (hparse : parse tokens = .ok p) :
    p.isWellFormed = true ∧
      (p.numerals.map decimalValue).Sublist ((integerTexts tokens).map decimalValue) := by
  refine ⟨isWellFormed_of_parse htokens hparse, ?_⟩
  have hderives : Derives tokens p := derivesStmts_of_readStmts (parse_eq_ok.mp hparse)
  rw [← map_decimalValue_tokenNumerals]
  exact hderives.numerals_sublist.map decimalValue

/-- A source with integers that belong to no statement, with needless zeros and a number that no
machine word holds, and with bodies that the end of the source closes. -/
theorem parse_isWellFormed_and_numerals_zeros :
    let source := "3\nke liye\ni\n=\n007\ntak\n0018446744073709551616\n\x7b\n" ++
      "00\nagar\ni\n==\n00\n\x7b\nbreak\n"
    let tokens : List Token := [⟨.integer, "3"⟩, Keyword.keLiye.token, nameToken "i",
      Operator.assign.token, ⟨.integer, "007"⟩, Keyword.tak.token,
      ⟨.integer, "0018446744073709551616"⟩, Delimiter.lbrace.token, ⟨.integer, "00"⟩,
      Keyword.agar.token, nameToken "i", Operator.eqEq.token, ⟨.integer, "00"⟩,
      Delimiter.lbrace.token, Keyword.break.token]
    let p : Program := ⟨[.forLoop "i" (.number "7") (.number "18446744073709551616")
      [.branch ⟨.ident "i", .eq, .number "0"⟩ [.break] .nothing]]⟩
    tokenize source = .ok tokens ∧ parse tokens = .ok p ∧ p.isWellFormed = true ∧
      (p.numerals.map decimalValue).Sublist ((integerTexts tokens).map decimalValue) := by
  intro source tokens p
  have hlexable : ∀ token ∈ tokens, token.isLexable = true := by decide
  have htokens : tokenize source = .ok tokens := tokenize_render hlexable
  have hparse : parse tokens = .ok p := by
    simp [tokens, p, Keyword.token, Operator.token, Delimiter.token, nameToken, parse, readStmts,
      readStmt, readHead, readCount, readBlock, readElse, readCondition, readExpr, readLevel,
      readOperand, readTail, readAtom, expect, normalDigits, Level.join?, CompareOp.ofKind?,
      Reading.map, bind, Except.bind, pure, Except.pure]
  exact ⟨htokens, hparse, parse_isWellFormed_and_numerals htokens hparse⟩

end JPlusPlus
