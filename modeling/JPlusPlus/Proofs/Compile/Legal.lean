import JPlusPlus.Proofs.Compile.Stages
import JPlusPlus.Proofs.Parse.WellFormed
import JPlusPlus.Proofs.Script.Legal
import JPlusPlus.Proofs.Typing.Bound

/-!
# When a compilation gives a legal script

A script is legal for reasons that come from all stages of its compilation: names and numbers have
their forms since the tokens do, `break` and `continue` stand in loops since the grammar of programs
has no rule for them elsewhere, no block binds a variable twice since the check refuses that, and
strings and operations are set apart by the quotes and parentheses around them.

One thing is left that no stage looks at. The names of variables are taken over as they are, and a
name of a program may be a word that the language of scripts keeps for itself. That is the only way
in which a script that is compiled can fail to be legal.

## Main statements

* `Stmt.isItems`: the lexemes of checked statements are derived, if their names may be bound.
* `Program.legal_code_iff`: the code of a checked program is legal exactly when its variables have
  names that variables may have.
-/

namespace JPlusPlus

open Script (Lexeme IsExpr IsBinding IsStatement IsItems Level NameRules)

/-! ## The forms of what is read -/

theorem isName_of_isIdentifier {x : String} (h : isIdentifier x = true) : isName x = true :=
  (Bool.and_eq_true_iff.mp h).1

theorem Expr.hasForms_of_isWellFormed {e : Expr} (h : e.isWellFormed = true) :
    e.hasForms Script.numeralForms = true := by
  induction e with
  | number digits => exact h
  | string value => rfl
  | ident x => exact isName_of_isIdentifier h
  | binary op left right ihl ihr | concat left right ihl ihr =>
    rw [isWellFormed, Bool.and_eq_true] at h
    rw [hasForms, ihl h.1, ihr h.2, Bool.and_self]

theorem Condition.hasForms_of_isWellFormed {c : Condition} (h : c.isWellFormed = true) :
    c.hasForms Script.numeralForms = true := by
  rw [isWellFormed, Bool.and_eq_true] at h
  rw [hasForms, Expr.hasForms_of_isWellFormed h.1, Expr.hasForms_of_isWellFormed h.2,
    Bool.and_self]

mutual

theorem Stmt.hasForms_of_isWellFormed {inLoop : Bool} : ∀ s : Stmt, s.isWellFormed inLoop = true →
    s.hasForms Script.numeralForms = true
  | .declare x value, h => by
    rw [Stmt.isWellFormed, Bool.and_eq_true] at h
    rw [Stmt.hasForms, Bool.and_eq_true]
    refine ⟨isName_of_isIdentifier h.1, ?_⟩
    cases value with
    | none => rfl
    | some e => exact Expr.hasForms_of_isWellFormed h.2
  | .assign x e, h => by
    rw [Stmt.isWellFormed, Bool.and_eq_true] at h
    rw [Stmt.hasForms, Bool.and_eq_true]
    exact ⟨isName_of_isIdentifier h.1, Expr.hasForms_of_isWellFormed h.2⟩
  | .print e, h => by
    rw [Stmt.isWellFormed] at h
    rw [Stmt.hasForms]
    exact Expr.hasForms_of_isWellFormed h
  | .branch c body orElse, h => by
    rw [Stmt.isWellFormed, Bool.and_eq_true, Bool.and_eq_true] at h
    rw [Stmt.hasForms, Condition.hasForms_of_isWellFormed h.1.1,
      Stmt.haveForms_of_areWellFormed body h.1.2, ElseChain.hasForms_of_isWellFormed orElse h.2]
    rfl
  | .whileLoop c body, h => by
    rw [Stmt.isWellFormed, Bool.and_eq_true] at h
    rw [Stmt.hasForms, Condition.hasForms_of_isWellFormed h.1,
      Stmt.haveForms_of_areWellFormed body h.2, Bool.and_self]
  | .forLoop x start stop body, h => by
    rw [Stmt.isWellFormed, Bool.and_eq_true, Bool.and_eq_true, Bool.and_eq_true] at h
    obtain ⟨⟨⟨hx, hstart⟩, hstop⟩, hbody⟩ := h
    have hname : Script.numeralForms.name x = true := isName_of_isIdentifier hx
    rw [Stmt.hasForms, hname, Expr.hasForms_of_isWellFormed hstart,
      Expr.hasForms_of_isWellFormed hstop, Stmt.haveForms_of_areWellFormed body hbody]
    rfl
  | .break, _ | .continue, _ => by rw [Stmt.hasForms]

theorem Stmt.haveForms_of_areWellFormed {inLoop : Bool} : ∀ body : List Stmt,
    Stmt.areWellFormed inLoop body = true → Stmt.haveForms Script.numeralForms body = true
  | [], _ => by rw [Stmt.haveForms]
  | s :: more, h => by
    rw [Stmt.areWellFormed, Bool.and_eq_true] at h
    rw [Stmt.haveForms, Stmt.hasForms_of_isWellFormed s h.1,
      Stmt.haveForms_of_areWellFormed more h.2, Bool.and_self]

theorem ElseChain.hasForms_of_isWellFormed {inLoop : Bool} : ∀ chain : ElseChain,
    chain.isWellFormed inLoop = true → chain.hasForms Script.numeralForms = true
  | .nothing, _ => by rw [ElseChain.hasForms]
  | .otherwise body, h => by
    rw [ElseChain.isWellFormed] at h
    rw [ElseChain.hasForms]
    exact Stmt.haveForms_of_areWellFormed body h
  | .elseIf c body orElse, h => by
    rw [ElseChain.isWellFormed, Bool.and_eq_true, Bool.and_eq_true] at h
    rw [ElseChain.hasForms, Condition.hasForms_of_isWellFormed h.1.1,
      Stmt.haveForms_of_areWellFormed body h.1.2, ElseChain.hasForms_of_isWellFormed orElse h.2]
    rfl

end

/-! ## Expressions -/

variable {rules : NameRules}

theorem Expr.isExpr {e : Expr} (h : ∀ x ∈ e.mentions, rules.MayBind x) :
    IsExpr rules .primary e.lower.lexemes := by
  induction e with
  | number | string => constructor
  | ident x => exact .name (h x List.mem_cons_self).1
  | binary op left right ihl ihr =>
    rw [mentions, List.forall_mem_append] at h
    exact .operation op (ihl h.1) (ihr h.2)
  | concat left right ihl ihr =>
    rw [mentions, List.forall_mem_append] at h
    exact .operation .add (ihl h.1) (ihr h.2)

theorem Condition.isExpr {c : Condition} (h : ∀ x ∈ c.mentions, rules.MayBind x) :
    IsExpr rules .assignment c.lower.lexemes := by
  rw [mentions, List.forall_mem_append] at h
  exact .comparison c.op (Expr.isExpr h.1) (Expr.isExpr h.2)

theorem isExpr_lowerFirst {value : Option Expr}
    (h : ∀ x ∈ mentionsFirst value, rules.MayBind x) :
    IsExpr rules .primary (lowerFirst value).lexemes := by
  cases value with
  | none => exact .number
  | some e => exact Expr.isExpr h

/-! ## Statements -/

mutual

/-- The lexemes of an accepted statement are derived, with what follows them. -/
theorem Stmt.isItems_cons (hconsole : "console" ∉ rules.reserved) {inLoop : Bool}
    {own bound : List String} {ts : List Lexeme} : ∀ (s : Stmt) {table table' : SymbolTable},
    s.isWellFormed inLoop = true → s.check table = .ok () table' →
      (∀ x ∈ s.mentions, rules.MayBind x) → IsItems rules inLoop own bound ts →
        IsItems rules inLoop (s.own ++ own) (s.binds ++ bound) (s.lower.lexemes ++ ts)
  | .declare x value, table, table', _, _, hnames, hts => by
    rw [Stmt.mentions, List.forall_mem_append] at hnames
    rw [Stmt.own, Stmt.binds, Stmt.lower, Script.Stmt.lexemes]
    exact .binding (.mk (hnames.2 x List.mem_cons_self)
      ((isExpr_lowerFirst hnames.1).of_primary _)) hts
  | .assign x e, table, table', _, _, hnames, hts => by
    rw [Stmt.mentions, List.forall_mem_cons] at hnames
    rw [Stmt.own, Stmt.binds, Stmt.lower, Script.Stmt.lexemes]
    have hexpr := IsExpr.assign hnames.1.1 ((Expr.isExpr hnames.2).of_primary _)
    exact .statement (.expression hexpr) hts
  | .print e, table, table', _, _, hnames, hts => by
    rw [Stmt.mentions] at hnames
    rw [Stmt.own, Stmt.binds, Stmt.lower, Script.Stmt.lexemes]
    exact .statement (.print hconsole (Expr.isExpr hnames)) hts
  | .branch c body orElse, table, table', h, hcheck, hnames, hts => by
    rw [Stmt.isWellFormed, Bool.and_eq_true, Bool.and_eq_true] at h
    obtain ⟨-, table₁, hbody, horElse⟩ := Stmt.check_branch_eq_ok.mp hcheck
    rw [Stmt.mentions, List.forall_mem_append, List.forall_mem_append] at hnames
    obtain ⟨hc, hinner, houter⟩ := hnames
    rw [Stmt.own, Stmt.binds, Stmt.lower, Script.Stmt.lexemes]
    have hblock := IsStatement.block (Stmt.isItems hconsole body h.1.2 hbody hinner)
      (Stmt.nodup_ownAll hbody)
    exact .statement
      (ElseChain.isStatement hconsole orElse h.2 horElse houter (Condition.isExpr hc) hblock) hts
  | .whileLoop c body, table, table', h, hcheck, hnames, hts => by
    rw [Stmt.isWellFormed, Bool.and_eq_true] at h
    obtain ⟨-, hbody⟩ := Stmt.check_whileLoop_eq_ok.mp hcheck
    rw [Stmt.mentions, List.forall_mem_append] at hnames
    rw [Stmt.own, Stmt.binds, Stmt.lower, Script.Stmt.lexemes]
    have hblock := IsStatement.block (Stmt.isItems hconsole body h.2 hbody hnames.2)
      (Stmt.nodup_ownAll hbody)
    exact .statement (.while (Condition.isExpr hnames.1) hblock) hts
  | .forLoop x start stop body, table, table', h, hcheck, hnames, hts => by
    rw [Stmt.isWellFormed, Bool.and_eq_true] at h
    obtain ⟨⟨-, -, inner, -, -, hbody⟩, -⟩ := Stmt.check_forLoop_eq_ok.mp hcheck
    rw [Stmt.mentions, List.forall_mem_append, List.forall_mem_append, List.forall_mem_cons]
      at hnames
    obtain ⟨hstart, hstop, hx, hinner⟩ := hnames
    rw [Stmt.own, Stmt.binds, Stmt.lower, Script.Stmt.lexemes]
    have hblock := IsStatement.block (Stmt.isItems hconsole body h.2 hbody hinner)
      (Stmt.nodup_ownAll hbody)
    exact .statement (.counting hx (Expr.isExpr hstart) (Expr.isExpr hstop) hblock) hts
  | .break, table, table', h, _, _, hts => by
    rw [Stmt.isWellFormed] at h
    rw [Stmt.own, Stmt.binds, Stmt.lower, Script.Stmt.lexemes, h]
    rw [h] at hts
    exact .statement .break hts
  | .continue, table, table', h, _, _, hts => by
    rw [Stmt.isWellFormed] at h
    rw [Stmt.own, Stmt.binds, Stmt.lower, Script.Stmt.lexemes, h]
    rw [h] at hts
    exact .statement .continue hts

theorem Stmt.isItems (hconsole : "console" ∉ rules.reserved) {inLoop : Bool} :
    ∀ (body : List Stmt) {table table' : SymbolTable}, Stmt.areWellFormed inLoop body = true →
      Stmt.checkAll body table = .ok () table' → (∀ x ∈ Stmt.mentionsAll body, rules.MayBind x) →
        IsItems rules inLoop (Stmt.ownAll body) (Stmt.bindsAll body)
          (Script.Stmt.lexemesAll (Stmt.lowerAll body))
  | [], table, table', _, _, _ => by
    rw [Stmt.bindsAll, Stmt.lowerAll, Script.Stmt.lexemesAll]
    exact .nil
  | s :: more, table, table', h, hcheck, hnames => by
    rw [Stmt.areWellFormed, Bool.and_eq_true] at h
    rw [Stmt.checkAll, Checker.seq_eq_ok] at hcheck
    obtain ⟨table₁, hs, hmore⟩ := hcheck
    rw [Stmt.mentionsAll, List.forall_mem_append] at hnames
    rw [Stmt.ownAll, List.flatMap_cons, ← Stmt.ownAll, Stmt.bindsAll, Stmt.lowerAll,
      Script.Stmt.lexemesAll]
    exact Stmt.isItems_cons hconsole s h.1 hs hnames.1
      (Stmt.isItems hconsole more h.2 hmore hnames.2)

/-- What follows a block makes a conditional of it. -/
theorem ElseChain.isStatement (hconsole : "console" ∉ rules.reserved) {inLoop : Bool}
    {c : Script.Condition} {bound : List String} {ts : List Lexeme} :
    ∀ (chain : ElseChain) {table table' : SymbolTable}, chain.isWellFormed inLoop = true →
      chain.check table = .ok () table' → (∀ x ∈ chain.mentions, rules.MayBind x) →
        IsExpr rules .assignment c.lexemes →
          IsStatement rules inLoop bound (.mark "\x7b" :: (ts ++ [.mark "\x7d"])) →
            IsStatement rules inLoop (bound ++ chain.binds)
              ((Script.Head.ifElse c).lexemes ++ (ts ++ chain.lower.lexemes))
  | .nothing, table, table', _, _, _, hc, hblock => by
    rw [ElseChain.binds, ElseChain.lower, Script.Else.lexemes, List.append_nil]
    exact .if hc hblock
  | .otherwise [], table, table', _, _, _, hc, hblock => by
    -- An empty last branch is left out, and there are no variables in it.
    rw [ElseChain.binds, Stmt.bindsAll, ElseChain.lower, Script.Else.lexemes, List.append_nil]
    exact .if hc hblock
  | .otherwise (s :: more), table, table', h, hcheck, hnames, hc, hblock => by
    rw [ElseChain.isWellFormed] at h
    rw [ElseChain.check] at hcheck
    rw [ElseChain.mentions] at hnames
    have helse := IsStatement.block (Stmt.isItems hconsole (s :: more) h hcheck hnames)
      (Stmt.nodup_ownAll hcheck)
    rw [ElseChain.binds, ElseChain.lower, Script.Else.lexemes]
    exact .else hc hblock helse
  | .elseIf c' body orElse, table, table', h, hcheck, hnames, hc, hblock => by
    rw [ElseChain.isWellFormed, Bool.and_eq_true, Bool.and_eq_true] at h
    obtain ⟨-, table₁, hbody, horElse⟩ := ElseChain.check_elseIf_eq_ok.mp hcheck
    rw [ElseChain.mentions, List.forall_mem_append, List.forall_mem_append] at hnames
    obtain ⟨hc', hinner, houter⟩ := hnames
    have hblock' := IsStatement.block (Stmt.isItems hconsole body h.1.2 hbody hinner)
      (Stmt.nodup_ownAll hbody)
    have helse := ElseChain.isStatement hconsole orElse h.2 horElse houter
      (Condition.isExpr hc') hblock'
    rw [ElseChain.binds, ElseChain.lower, Script.Else.lexemes]
    exact .else hc hblock helse

end

/-! ## Programs -/

theorem Program.hasForms_of_isWellFormed {p : Program} (h : p.isWellFormed = true) :
    p.lower.hasForms Script.numeralForms = true := by
  rw [Program.hasForms_lower rfl]
  exact Stmt.haveForms_of_areWellFormed p.body h

/-- The code of a checked program is legal exactly when its variables have names that variables may
have. -/
theorem Program.legal_code_iff (hconsole : "console" ∉ rules.reserved) {p : Program}
    (h : p.isWellFormed = true) (hcheck : p.check = .ok ()) :
    Script.Legal rules p.code ↔ ∀ x ∈ p.binds, rules.MayBind x := by
  obtain ⟨table', hbody⟩ := Program.check_eq_ok.mp hcheck
  obtain ⟨lines, hlines, hflat, hfirst⟩ :=
    Script.lexedLines_text (Program.hasForms_of_isWellFormed h)
  constructor
  · rintro ⟨lines', hlines', -, own, bound, hitems, -⟩
    cases Option.some.inj (hlines.symm.trans hlines')
    rw [hflat] at hitems
    -- Where all names may be bound the code is derived too, and it binds the same variables.
    have hfree : IsItems .free false _ _ _ := Stmt.isItems (by decide) p.body h hbody
      fun x _ ↦ NameRules.mayBind_free x
    have hbound : bound = p.binds := hitems.bindings_eq.symm.trans hfree.bindings_eq
    exact hbound ▸ hitems.mayBind
  · intro hnames
    have hitems : IsItems rules false _ _ _ := Stmt.isItems hconsole p.body h hbody
      fun x hx ↦ hnames x (Program.mentions_subset_binds hcheck hx)
    exact ⟨lines, hlines, hfirst, _, _, hflat ▸ hitems, Stmt.nodup_ownAll hbody⟩

/-! ## Compilations -/

/-- **When a compilation gives a legal script.** But for the names of its variables, the code of a
compilation that succeeds is a legal script: it is derived by the grammar of statements, no block
binds a variable twice, and `break` and `continue` stand in loops. It is one by all rules exactly
when no variable of the program is called by a reserved word, by `let`, or by the name of the object
that prints. -/
theorem compile_legal_iff {source code : String} (h : compile source = .success code) :
    ∃ program, sourceProgram source = .ok program ∧ code = program.code ∧
      Script.Legal .free code ∧
        (Script.Legal .standard code ↔ ∀ x ∈ program.binds, NameRules.standard.MayBind x) := by
  obtain ⟨p, hsource, hcheck, rfl⟩ := compile_eq_success.mp h
  obtain ⟨tokens, htokens, hparse⟩ := sourceProgram_eq_ok.mp hsource
  have hwell := isWellFormed_of_parse htokens hparse
  refine ⟨p, hsource, rfl, ?_, Program.legal_code_iff (by decide) hwell hcheck⟩
  rw [Program.legal_code_iff (by decide) hwell hcheck]
  exact fun x _ ↦ NameRules.mayBind_free x

/-- A loop that declares a variable in a branch and leaves from another one. -/
theorem compile_legal_iff_nested :
    let p : Program := ⟨[
      .forLoop "i" (.number "0") (.binary .div (.number "10") (.number "2")) [
        .branch ⟨.ident "i", .eq, .number "3"⟩ [.declare "s" (some (.string "a\n")), .break]
          (.elseIf ⟨.ident "i", .less, .number "1"⟩ [.print (.ident "s")] (.otherwise []))]]⟩
    compile p.print = .success p.code ∧ Script.Legal .standard p.code := by
  intro p
  have hwell : p.isWellFormed = true := by decide
  have hcompile : compile p.print = .success p.code := compile_print hwell rfl
  obtain ⟨q, hq, -, -, hlegal⟩ := compile_legal_iff hcompile
  cases Except.ok.inj ((sourceProgram_print hwell).symm.trans hq)
  exact ⟨hcompile, hlegal.mpr (by decide)⟩

/-- A program may give a variable a name that no script can. -/
theorem Program.not_legal_declare {x : String} (hx : isIdentifier x = true)
    (hbind : ¬NameRules.standard.MayBind x) :
    let p : Program := ⟨[.declare x none]⟩
    compile p.print = .success p.code ∧ ¬Script.Legal .standard p.code := by
  intro p
  have hwell : p.isWellFormed = true := by
    simp [p, Program.isWellFormed, Stmt.areWellFormed, Stmt.isWellFormed, hx]
  rw [Program.legal_code_iff (by decide) hwell rfl]
  exact ⟨compile_print hwell rfl, fun h ↦ hbind (h x List.mem_cons_self)⟩

/-- A reserved word, the word that binds, and the object that prints, as names of variables. -/
theorem compile_not_legal :
    (compile "ye\nclass\n" = .success "let class = 0;" ∧
      ¬Script.Legal .standard "let class = 0;") ∧
    (compile "ye\nlet\n" = .success "let let = 0;" ∧
      ¬Script.Legal .standard "let let = 0;") ∧
    compile "ye\nconsole\n" = .success "let console = 0;" ∧
      ¬Script.Legal .standard "let console = 0;" := by
  have hclass := Program.not_legal_declare (x := "class") (by decide) (by decide)
  have hlet := Program.not_legal_declare (x := "let") (by decide) (by decide)
  have hconsole := Program.not_legal_declare (x := "console") (by decide) (by decide)
  exact ⟨hclass, hlet, hconsole⟩

end JPlusPlus
