import JPlusPlus.Proofs.Parse.Calls
import JPlusPlus.Proofs.Parse.Exact
import JPlusPlus.Proofs.Token.Slices

/-!
# The front end goes forward

The scanner and the parser move along a list, from an index to a later one. Their functions know
the units after the index alone and give back those that are left, so an index is what has to be
recovered: what is left must be the list from a later index on, and that index no further than the
end.

A body is the exception. It may end where it starts, at the end of the tokens, and it ends nowhere
else than there or after a closing brace.
-/

namespace JPlusPlus

/-! ## Indices -/

section Indices

variable {α : Type} {units rest : List α} {i : Nat}

/-- What is left are the units from an index after `i` on, which is at most their number. -/
def Advances (units : List α) (i : Nat) (rest : List α) : Prop :=
  ∃ j, i < j ∧ j ≤ units.length ∧ rest = units.drop j

theorem advances_of_isSuffix (h : rest <:+ units.drop i)
    (hlt : rest.length < (units.drop i).length) : Advances units i rest := by
  have hsuffix : rest <:+ units := h.trans (List.drop_suffix i units)
  rw [List.length_drop] at hlt
  refine ⟨units.length - rest.length, by omega, Nat.sub_le _ _, ?_⟩
  exact List.suffix_iff_eq_drop.mp hsuffix

end Indices

/-! ## The scanner -/

theorem Scan.advances_of_step {α : Type} [SourceUnit α] {units rest : List α} {i : Nat}
    {token : Option Token} (hi : i < units.length)
    (h : step units[i] (units.drop (i + 1)) = .ok (token, rest)) : Advances units i rest := by
  refine advances_of_isSuffix ?_ ?_
  · rw [List.drop_eq_getElem_cons hi]
    exact (step_isSuffix h).trans (List.suffix_cons _ _)
  · rw [List.drop_eq_getElem_cons hi]
    exact Nat.lt_succ_of_le (step_length_le h)

/-! ## The parser -/

section Parser

variable {tokens rest : List Token} {i : Nat}

theorem advances_of_readExpr {e : Expr} (h : Reads (readExpr (tokens.drop i)) e rest) :
    Advances tokens i rest := by
  obtain ⟨us, hus, -⟩ := derivesWhole_of_readExpr h
  exact advances_of_isSuffix ⟨us, hus.symm⟩ h.length_lt

theorem advances_of_readCondition {c : Condition}
    (h : Reads (readCondition (tokens.drop i)) c rest) : Advances tokens i rest := by
  obtain ⟨us, hus, -⟩ := reads_readCondition_iff.mp h
  exact advances_of_isSuffix ⟨us, hus.symm⟩ h.length_lt

theorem advances_of_readStmt {inLoop : Bool} {stmt : Option Stmt} (hi : i < tokens.length)
    (h : Reads (readStmt inLoop tokens[i] (tokens.drop (i + 1))) stmt rest) :
    Advances tokens i rest := by
  refine advances_of_isSuffix ?_ ?_
  · rw [List.drop_eq_getElem_cons hi]
    rcases derivesStmt_of_readStmt h with ⟨-, -, hrest⟩ | ⟨us, _, hus, -⟩
    · exact hrest ▸ List.suffix_cons _ _
    · exact ⟨us, hus.symm⟩
  · rw [List.drop_eq_getElem_cons hi]
    exact h.length_lt

/-- What is left are the tokens from an index on that is not before `i` and at most their number,
and that stands at their end or just after a closing brace. -/
def EndsBody (tokens : List Token) (i : Nat) (rest : List Token) : Prop :=
  ∃ j, i ≤ j ∧ j ≤ tokens.length ∧ rest = tokens.drop j ∧
    (j = tokens.length ∨
      ∃ k b, i ≤ k ∧ j = k + 1 ∧ tokens[k]? = some b ∧ b.kind = .delimiter .rbrace)

theorem endsBody_of_readBlock {inLoop : Bool} {body : List Stmt} (hi : i ≤ tokens.length)
    (h : Reads (readBlock inLoop (tokens.drop i)) body rest) : EndsBody tokens i rest := by
  obtain ⟨us, hus, hbody⟩ := derivesBlock_of_readBlock h
  rcases hbody with @⟨_, us, _, b, _, -, hb⟩ | -
  · have hbrace : tokens[i + us.length]? = some b := by
      rw [← List.getElem?_drop, hus]
      simp
    refine ⟨i + us.length + 1, by omega, ?_, ?_, .inr ⟨i + us.length, b, by omega, rfl, hbrace, hb⟩⟩
    · exact (List.getElem?_eq_some_iff.mp hbrace).1
    · rw [Nat.add_assoc, ← List.drop_drop, hus]
      simp
  · exact ⟨tokens.length, hi, Nat.le_refl _, by simp, .inl rfl⟩

end Parser

/-! ## Both -/

/-- **The front end goes forward and ends.** From every index below the end, a step of the scanner
that finds no fault leads to a later index, at most the end. So does each statement, passed-over
token, condition or expression that the parser reads, and a body ends no earlier than it starts, at
the end or after a closing brace. Hence the calls that the functions of the parser make, their loops
among them, are well founded; and where they come back to a function of the same rank, such as the
same function, there are fewer tokens than before. -/
theorem scan_and_parse_advance (source : String) (tokens : List Token) :
    (∀ (i : Nat) (_ : i < (Utf8.bytes source).length) (token : Option Token) (rest : List UInt8),
      Scan.step (Utf8.bytes source)[i] ((Utf8.bytes source).drop (i + 1)) = .ok (token, rest) →
        Advances (Utf8.bytes source) i rest) ∧
    (∀ (i : Nat) (_ : i < tokens.length) (rest : List Token),
      (∀ inLoop stmt, Reads (readStmt inLoop tokens[i] (tokens.drop (i + 1))) stmt rest →
        Advances tokens i rest) ∧
      (∀ c, Reads (readCondition (tokens.drop i)) c rest → Advances tokens i rest) ∧
      (∀ e, Reads (readExpr (tokens.drop i)) e rest → Advances tokens i rest) ∧
      ∀ inLoop body, Reads (readBlock inLoop (tokens.drop i)) body rest →
        EndsBody tokens i rest) ∧
    (∀ routine : Routine, routine.plan.run = routine.read) ∧ WellFounded Calls ∧
    ∀ inner outer, Relation.TransGen Calls inner outer →
      inner.routine.rank = outer.routine.rank → inner.tokens.length < outer.tokens.length := by
  refine ⟨fun i hi token rest h ↦ Scan.advances_of_step hi h, fun i hi rest ↦ ?_,
    Routine.run_plan, wellFounded_calls, fun inner outer h ↦ tokens_length_lt_of_transGen h⟩
  exact ⟨fun _ _ h ↦ advances_of_readStmt hi h, fun _ h ↦ advances_of_readCondition h,
    fun _ h ↦ advances_of_readExpr h, fun _ _ h ↦ endsBody_of_readBlock (Nat.le_of_lt hi) h⟩

/-- In `jabtak x == 1 { ) } bol` the loop is read up to the last word, where `)` is passed over and
the body goes on with fewer tokens; a comment that does not end takes the whole source. -/
theorem scan_and_parse_advance_junk :
    let body : List Token := [Delimiter.rparen.token, Delimiter.rbrace.token]
    let tokens : List Token := [Keyword.jabtak.token, ⟨.ident, "x"⟩, Operator.eqEq.token,
      ⟨.integer, "1"⟩, Delimiter.lbrace.token] ++ body ++ [Keyword.bol.token]
    Advances (Utf8.bytes "/*") 0 [] ∧ Advances tokens 0 [Keyword.bol.token] ∧
      Advances tokens 1 (tokens.drop 4) ∧ Advances tokens 1 (tokens.drop 2) ∧
      EndsBody tokens 5 [Keyword.bol.token] ∧ Calls ⟨.block true, body.tail⟩ ⟨.block true, body⟩ ∧
      body.tail.length < body.length := by
  intro body tokens
  have hcall : Calls ⟨.block true, body.tail⟩ ⟨.block true, body⟩ := by
    have hpassed : (Routine.stmt true).read body = (.ok none, body.tail) := by
      simp [body, Routine.read, Cursor.ofStmt, Cursor.ending, readStmt, Delimiter.token, pure,
        Except.pure]
    exact .look (.after hpassed .here)
  have hleft : DerivesWhole [⟨.ident, "x"⟩] (tokens.drop 2) (.ident "x") :=
    ⟨.sumSingle (.concatSingle (.productSingle (.ident rfl))), by decide⟩
  have hright : DerivesWhole [⟨.integer, "1"⟩] (tokens.drop 4) (.number (normalDigits "1")) :=
    ⟨.sumSingle (.concatSingle (.productSingle (.number rfl))), by decide⟩
  have hcondition : DerivesCondition ([⟨.ident, "x"⟩] ++ Operator.eqEq.token :: [⟨.integer, "1"⟩])
      (tokens.drop 4) ⟨.ident "x", .eq, .number (normalDigits "1")⟩ := .mk hleft rfl hright
  have hhead : Reads (readHead .condition (tokens.drop 1))
      ⟨.ident "x", .eq, .number (normalDigits "1")⟩ (tokens.drop 5) :=
    reads_readHead_iff.mpr ⟨_ ++ [_], rfl, .mk hcondition rfl⟩
  have hbody : Reads (readBlock true (tokens.drop 5)) [] [Keyword.bol.token] :=
    (DerivesBlock.closed (.junk (by decide) (fun _ ↦ by decide) .nil) rfl).reads
  have hstmt : Reads (readStmt false tokens[0] (tokens.drop 1))
      (some (.whileLoop ⟨.ident "x", .eq, .number (normalDigits "1")⟩ [])) [Keyword.bol.token] :=
    (reads_readStmt_jabtak rfl).mpr ⟨_, _, hhead, _, _, hbody, rfl, rfl⟩
  obtain ⟨hscan, hparse, -, -, hback⟩ := scan_and_parse_advance "/*" tokens
  exact ⟨hscan 0 (by decide +kernel) none [] (by decide +kernel),
    (hparse 0 (by decide) _).1 _ _ hstmt,
    (hparse 1 (by decide) _).2.1 _ (reads_readCondition_iff.mpr ⟨_, rfl, hcondition⟩),
    (hparse 1 (by decide) _).2.2.1 _ hleft.reads,
    (hparse 5 (by decide) _).2.2.2 _ _ hbody, hcall, hback _ _ (.single hcall) rfl⟩

end JPlusPlus
