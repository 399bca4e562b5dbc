import JPlusPlus.Proofs.Parse.Print
import JPlusPlus.Proofs.Token.Lexable

/-!
# The programs that are read

What is read from a source can be written as source: its names are names and no keywords, its
numbers have no needless zeros, and `break` and `continue` stand in loops. The first two come from
the tokens, which have the forms that their kinds ask for; the third comes from the grammar, which
has no rule for either word outside of a loop.

## Main statements

* `Derives.isWellFormed`: a program that is spelled by tokens of the right forms is well formed.
* `isWellFormed_of_parse`: so is every program that is read from a source.
-/

namespace JPlusPlus

/-! ## Names and numbers -/

theorem isIdentifier_of_isLexable {t : Token} (hkind : t.kind = .ident)
    (h : t.isLexable = true) : isIdentifier t.text = true := by
  rwa [Token.isLexable, hkind] at h

theorem isDigits_of_isLexable {t : Token} (hkind : t.kind = .integer)
    (h : t.isLexable = true) : isDigits t.text = true := by
  rwa [Token.isLexable, hkind] at h

/-- Digits without their leading zeros are a number in the form in which numbers are kept. -/
theorem isNumeral_normalDigits {digits : String} (h : isDigits digits = true) :
    isNumeral (normalDigits digits) = true := by
  rw [isDigits, Bool.and_eq_true, List.all_eq_true] at h
  rw [normalDigits]
  split
  · rfl
  · next c cs hdrop =>
    have hzero : c ≠ '0' := by
      have hhead := List.head?_dropWhile_not (fun d : Char ↦ decide (d = '0')) digits.toList
      rw [hdrop] at hhead
      simpa using hhead
    have hdigits : ∀ d ∈ c :: cs, d.isDigit = true := fun d hd ↦
      h.2 d ((List.dropWhile_sublist _).subset (hdrop ▸ hd))
    simp [isNumeral, isDigits, hzero, List.all_eq_true.mpr hdigits]

/-! ## Expressions -/

theorem DerivesExpr.isWellFormed {sort : ExprSort} {us : List Token} {e : Expr}
    (h : DerivesExpr sort us e) (hus : AllLexable us) : e.isWellFormed = true := by
  induction h with
  | sum _ _ _ _ ihl ihr | concat _ _ _ ihl ihr | product _ _ _ _ ihl ihr =>
    rw [allLexable_append, allLexable_cons] at hus
    rw [Expr.isWellFormed, ihl hus.1, ihr hus.2.2, Bool.and_self]
  | sumSingle _ ih | concatSingle _ ih | productSingle _ ih => exact ih hus
  | parens _ _ _ ih =>
    rw [List.cons_append, allLexable_cons, allLexable_append] at hus
    exact ih hus.2.1
  | number hkind =>
    exact isNumeral_normalDigits (isDigits_of_isLexable hkind (hus _ List.mem_cons_self))
  | string => rfl
  | ident hkind => exact isIdentifier_of_isLexable hkind (hus _ List.mem_cons_self)

theorem DerivesWhole.isWellFormed {us rest : List Token} {e : Expr} (h : DerivesWhole us rest e)
    (hus : AllLexable us) : e.isWellFormed = true := h.derives.isWellFormed hus

theorem DerivesHead.isWellFormed {us rest : List Token} {c : Condition}
    (h : DerivesHead us rest c) (hus : AllLexable us) : c.isWellFormed = true := by
  obtain ⟨⟨hleft, -, hright⟩, -⟩ := h
  rw [allLexable_append, allLexable_append, allLexable_cons] at hus
  obtain ⟨⟨husl, -, husr⟩, -⟩ := hus
  rw [Condition.isWellFormed, hleft.isWellFormed husl, hright.isWellFormed husr, Bool.and_self]

/-! ## Statements -/

mutual

theorem DerivesStmt.isWellFormed {inLoop : Bool} {rest : List Token} {s : Stmt} :
    ∀ {us : List Token}, DerivesStmt inLoop us rest s → AllLexable us →
      s.isWellFormed inLoop = true
  | _, .declare _ hname _, hus => by
    simp only [allLexable_cons] at hus
    simp [Stmt.isWellFormed, isIdentifier_of_isLexable hname hus.2.1]
  | _, .declareValue _ hname _ he, hus => by
    simp only [allLexable_cons] at hus
    simp [Stmt.isWellFormed, isIdentifier_of_isLexable hname hus.2.1, he.isWellFormed hus.2.2.2]
  | _, .assign hname _ he, hus => by
    simp only [allLexable_cons] at hus
    simp [Stmt.isWellFormed, isIdentifier_of_isLexable hname hus.1, he.isWellFormed hus.2.2]
  | _, .print _ he, hus => by
    simp only [allLexable_cons] at hus
    rw [Stmt.isWellFormed]
    exact he.isWellFormed hus.2
  | _, .branch _ hc hbody horElse, hus => by
    simp only [allLexable_cons, allLexable_append] at hus
    simp [Stmt.isWellFormed, hc.isWellFormed hus.2.1,
      DerivesBlock.isWellFormed hbody hus.2.2.1, DerivesElse.isWellFormed horElse hus.2.2.2]
  | _, .whileLoop _ hc hbody, hus => by
    simp only [allLexable_cons, allLexable_append] at hus
    simp [Stmt.isWellFormed, hc.isWellFormed hus.2.1, DerivesBlock.isWellFormed hbody hus.2.2]
  | _, .forLoop _ hname _ hstart _ hstop _ hbody, hus => by
    simp only [allLexable_cons, allLexable_append] at hus
    obtain ⟨-, hv, -, hss, -, hes, -, hbs⟩ := hus
    simp [Stmt.isWellFormed, isIdentifier_of_isLexable hname hv, hstart.isWellFormed hss,
      hstop.isWellFormed hes, DerivesBlock.isWellFormed hbody hbs]
  | _, .break _, _ => rfl
  | _, .continue _, _ => rfl

theorem DerivesElse.isWellFormed {inLoop : Bool} {rest : List Token} {chain : ElseChain} :
    ∀ {us : List Token}, DerivesElse inLoop us rest chain → AllLexable us →
      chain.isWellFormed inLoop = true
  | _, .nothing _ _, _ => rfl
  | _, .otherwise _ _ hbody, hus => by
    simp only [allLexable_cons] at hus
    rw [ElseChain.isWellFormed]
    exact DerivesBlock.isWellFormed hbody hus.2.2
  | _, .elseIf _ hc hbody horElse, hus => by
    simp only [allLexable_cons, allLexable_append] at hus
    simp [ElseChain.isWellFormed, hc.isWellFormed hus.2.1,
      DerivesBlock.isWellFormed hbody hus.2.2.1, DerivesElse.isWellFormed horElse hus.2.2.2]

theorem DerivesBlock.isWellFormed {inLoop : Bool} {rest : List Token} {body : List Stmt} :
    ∀ {us : List Token}, DerivesBlock inLoop us rest body → AllLexable us →
      Stmt.areWellFormed inLoop body = true
  | _, .closed h _, hus => DerivesStmts.isWellFormed h (allLexable_append.mp hus).1
  | _, .unclosed h, hus => DerivesStmts.isWellFormed h hus

theorem DerivesStmts.isWellFormed {inBody inLoop : Bool} {rest : List Token} {body : List Stmt} :
    ∀ {us : List Token}, DerivesStmts inBody inLoop us rest body → AllLexable us →
      Stmt.areWellFormed inLoop body = true
  | _, .nil, _ => rfl
  | _, .junk _ _ h, hus => DerivesStmts.isWellFormed h (allLexable_cons.mp hus).2
  | _, .cons hs h, hus => by
    rw [allLexable_append] at hus
    rw [Stmt.areWellFormed, DerivesStmt.isWellFormed hs hus.1, DerivesStmts.isWellFormed h hus.2,
      Bool.and_self]

end

/-- What tokens of the right forms spell is well formed. -/
theorem Derives.isWellFormed {us : List Token} {p : Program} (h : Derives us p)
    (hus : AllLexable us) : p.isWellFormed = true := DerivesStmts.isWellFormed h hus

/-- What is read from a source is well formed. -/
theorem isWellFormed_of_parse {source : String} {tokens : List Token} {p : Program}
    (htokens : tokenize source = .ok tokens) (hparse : parse tokens = .ok p) :
    p.isWellFormed = true :=
  Derives.isWellFormed (derivesStmts_of_readStmts (parse_eq_ok.mp hparse))
    (isLexable_of_tokenize htokens)

end JPlusPlus
