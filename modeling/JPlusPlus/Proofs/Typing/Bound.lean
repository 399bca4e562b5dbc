import JPlusPlus.Proofs.Typing.Mentioned
import JPlusPlus.Proofs.Typing.Recorded

/-!
# The variables of a checked program

A program binds a variable by a declaration or by a counting loop. In a program that passes the
check nothing else is named: whatever is used or assigned was bound before. And since a check
refuses to declare a variable twice, no two declarations that stand side by side in a block are of
one name.

## Main statements

* `Program.mentions_subset_binds`: every name in a checked program is that of a variable it binds.
* `Stmt.nodup_ownAll`: the declarations of a checked block are of different names.
-/

namespace JPlusPlus

mutual

/-- The variables that a statement binds, by declarations and counting loops, at any depth. -/
def Stmt.binds : Stmt → List String
  | .declare name _ => [name]
  | .branch _ body orElse => Stmt.bindsAll body ++ orElse.binds
  | .whileLoop _ body => Stmt.bindsAll body
  | .forLoop counter _ _ body => counter :: Stmt.bindsAll body
  | .assign _ _ | .print _ | .break | .continue => []

/-- The variables that statements bind. -/
def Stmt.bindsAll : List Stmt → List String
  | [] => []
  | stmt :: more => stmt.binds ++ Stmt.bindsAll more

/-- The variables that are bound in what a conditional does when its condition fails. -/
def ElseChain.binds : ElseChain → List String
  | .nothing => []
  | .otherwise body => Stmt.bindsAll body
  | .elseIf _ body orElse => Stmt.bindsAll body ++ orElse.binds

end

/-- The variables that a program binds. -/
def Program.binds (program : Program) : List String := Stmt.bindsAll program.body

mutual

theorem Stmt.declared_sublist_binds : ∀ s : Stmt, s.declared.Sublist s.binds
  | .declare x value => List.Sublist.refl [x]
  | .branch c body orElse => by
    rw [Stmt.declared, Stmt.binds]
    exact (Stmt.declaredAll_sublist_bindsAll body).append
      (ElseChain.declared_sublist_binds orElse)
  | .whileLoop c body => by
    rw [Stmt.declared, Stmt.binds]
    exact Stmt.declaredAll_sublist_bindsAll body
  | .assign _ _ | .print _ | .forLoop _ _ _ _ | .break | .continue => by
    rw [Stmt.declared]
    exact List.nil_sublist _

theorem Stmt.declaredAll_sublist_bindsAll : ∀ body : List Stmt,
    (Stmt.declaredAll body).Sublist (Stmt.bindsAll body)
  | [] => by
    rw [Stmt.declaredAll]
    exact List.nil_sublist _
  | s :: more => by
    rw [Stmt.declaredAll, Stmt.bindsAll]
    exact (Stmt.declared_sublist_binds s).append (Stmt.declaredAll_sublist_bindsAll more)

theorem ElseChain.declared_sublist_binds : ∀ chain : ElseChain,
    chain.declared.Sublist chain.binds
  | .nothing => by
    rw [ElseChain.declared]
    exact List.nil_sublist _
  | .otherwise body => by
    rw [ElseChain.declared, ElseChain.binds]
    exact Stmt.declaredAll_sublist_bindsAll body
  | .elseIf c body orElse => by
    rw [ElseChain.declared, ElseChain.binds]
    exact (Stmt.declaredAll_sublist_bindsAll body).append
      (ElseChain.declared_sublist_binds orElse)

end

/-! ## Names that are known -/

/-- Each of the names is in the table or among those that are bound. -/
def Known (table : SymbolTable) (bound names : List String) : Prop :=
  ∀ x ∈ names, (∃ ty, table.lookup x = some ty) ∨ x ∈ bound

variable {table table₁ table' : SymbolTable} {bound bound' declared names names' : List String}

theorem Known.nil : Known table bound [] := fun _ hx ↦ absurd hx List.not_mem_nil

theorem Known.mono (h : Known table bound names) (hsub : bound ⊆ bound') :
    Known table bound' names := fun x hx ↦ (h x hx).imp_right fun hb ↦ hsub hb

theorem Known.append (h : Known table bound names) (h' : Known table bound names') :
    Known table bound (names ++ names') := List.forall_mem_append.mpr ⟨h, h'⟩

/-- What is known after a check that adds variables to the table is known before it, or bound in
what is checked. -/
theorem Known.step (h : Known table bound names) (hext : Extends table table₁ declared)
    (hsub : declared ⊆ bound) (h' : Known table₁ bound' names') :
    Known table (bound ++ bound') (names ++ names') := by
  refine (h.mono (List.subset_append_left bound bound')).append fun x hx ↦ ?_
  rcases h' x hx with ⟨ty, hty⟩ | hb
  · rcases hext.adds hty with hty | hdeclared
    · exact .inl ⟨ty, hty⟩
    · exact .inr (List.mem_append_left bound' (hsub hdeclared))
  · exact .inr (List.mem_append_right bound hb)

theorem Expr.known_mentions {e : Expr} {ty : Ty} (h : e.infer table = .ok ty) :
    Known table bound e.mentions := by
  induction e generalizing ty with
  | number | string => exact .nil
  | ident x =>
    intro y hy
    rw [List.mem_singleton.mp hy]
    exact .inl ⟨ty, Expr.infer_ident_eq_ok.mp h⟩
  | binary op left right ihl ihr =>
    obtain ⟨hl, hr, -⟩ := Expr.infer_binary_eq_ok.mp h
    exact (ihl hl).append (ihr hr)
  | concat left right ihl ihr =>
    obtain ⟨hl, hr, -⟩ := Expr.infer_concat_eq_ok.mp h
    exact (ihl hl).append (ihr hr)

theorem Condition.known_mentions {c : Condition}
    (h : ∃ l r, c.left.infer table = .ok l ∧ c.right.infer table = .ok r) :
    Known table bound c.mentions := by
  obtain ⟨l, r, hl, hr⟩ := h
  exact (Expr.known_mentions hl).append (Expr.known_mentions hr)

theorem FirstType.known_mentions {value : Option Expr} {ty : Ty} (h : FirstType table ty value) :
    Known table bound (mentionsFirst value) := by
  cases value with
  | none => exact .nil
  | some e => exact Expr.known_mentions h

mutual

/-- The names in a statement that is accepted are in the table or are bound by the statement. -/
theorem Stmt.known_mentions : ∀ (s : Stmt) {table table' : SymbolTable},
    s.check table = .ok () table' → Known table s.binds s.mentions
  | .declare x value, table, table', h => by
    rw [Stmt.check] at h
    obtain ⟨ty, hty, -⟩ := Checker.declare_eq_ok.mp h
    rw [Stmt.binds, Stmt.mentions]
    exact hty.known_mentions.append fun _ hx ↦ .inr hx
  | .assign x e, table, table', h => by
    rw [Stmt.check] at h
    obtain ⟨⟨ty, hx, he⟩, -⟩ := Checker.assign_eq_ok.mp h
    rw [Stmt.binds, Stmt.mentions]
    exact List.forall_mem_cons.mpr ⟨.inl ⟨ty, hx⟩, Expr.known_mentions he⟩
  | .print e, table, table', h => by
    obtain ⟨⟨ty, he⟩, -⟩ := Stmt.check_print_eq_ok.mp h
    rw [Stmt.binds, Stmt.mentions]
    exact Expr.known_mentions he
  | .branch c body orElse, table, table', h => by
    obtain ⟨hc, table₁, hbody, horElse⟩ := Stmt.check_branch_eq_ok.mp h
    rw [Stmt.binds, Stmt.mentions]
    exact (Condition.known_mentions hc).append ((Stmt.known_mentionsAll body hbody).step
      ((Stmt.grows_checkAll body).extends hbody) (Stmt.declaredAll_sublist_bindsAll body).subset
      (ElseChain.known_mentions orElse horElse))
  | .whileLoop c body, table, table', h => by
    obtain ⟨hc, hbody⟩ := Stmt.check_whileLoop_eq_ok.mp h
    rw [Stmt.binds, Stmt.mentions]
    exact (Condition.known_mentions hc).append (Stmt.known_mentionsAll body hbody)
  | .forLoop x start stop body, table, table', h => by
    obtain ⟨⟨a, b, inner, ha, hb, hbody⟩, -⟩ := Stmt.check_forLoop_eq_ok.mp h
    rw [Stmt.binds, Stmt.mentions]
    refine (Expr.known_mentions ha).append ((Expr.known_mentions hb).append
      (List.forall_mem_cons.mpr ⟨.inr List.mem_cons_self, fun y hy ↦ ?_⟩))
    -- The table of the body has one more name, that of the counter, which the loop binds.
    rcases Stmt.known_mentionsAll body hbody y hy with ⟨ty, hty⟩ | hbound
    · rw [SymbolTable.lookup_insert] at hty
      by_cases hyx : y = x
      · exact .inr (hyx ▸ List.mem_cons_self)
      · rw [if_neg hyx] at hty
        exact .inl ⟨ty, hty⟩
    · exact .inr (List.mem_cons_of_mem x hbound)
  | .break, table, table', h | .continue, table, table', h => by
    rw [Stmt.mentions]
    exact .nil

theorem Stmt.known_mentionsAll : ∀ (body : List Stmt) {table table' : SymbolTable},
    Stmt.checkAll body table = .ok () table' →
      Known table (Stmt.bindsAll body) (Stmt.mentionsAll body)
  | [], table, table', h => by
    rw [Stmt.mentionsAll]
    exact .nil
  | s :: more, table, table', h => by
    rw [Stmt.checkAll, Checker.seq_eq_ok] at h
    obtain ⟨table₁, hs, hmore⟩ := h
    rw [Stmt.bindsAll, Stmt.mentionsAll]
    exact (Stmt.known_mentions s hs).step ((Stmt.grows_check s).extends hs)
      (Stmt.declared_sublist_binds s).subset (Stmt.known_mentionsAll more hmore)

theorem ElseChain.known_mentions : ∀ (chain : ElseChain) {table table' : SymbolTable},
    chain.check table = .ok () table' → Known table chain.binds chain.mentions
  | .nothing, table, table', h => by
    rw [ElseChain.mentions]
    exact .nil
  | .otherwise body, table, table', h => by
    rw [ElseChain.check] at h
    rw [ElseChain.binds, ElseChain.mentions]
    exact Stmt.known_mentionsAll body h
  | .elseIf c body orElse, table, table', h => by
    obtain ⟨hc, table₁, hbody, horElse⟩ := ElseChain.check_elseIf_eq_ok.mp h
    rw [ElseChain.binds, ElseChain.mentions]
    exact (Condition.known_mentions hc).append ((Stmt.known_mentionsAll body hbody).step
      ((Stmt.grows_checkAll body).extends hbody) (Stmt.declaredAll_sublist_bindsAll body).subset
      (ElseChain.known_mentions orElse horElse))

end

/-- Every name in a checked program is that of a variable that it binds. -/
theorem Program.mentions_subset_binds {p : Program} (h : p.check = .ok ()) :
    Stmt.mentionsAll p.body ⊆ p.binds := by
  obtain ⟨table', hbody⟩ := Program.check_eq_ok.mp h
  intro x hx
  rcases Stmt.known_mentionsAll p.body hbody x hx with ⟨ty, hty⟩ | hbound
  · exact nomatch hty
  · exact hbound

/-! ## Declarations side by side -/

/-- The variable that a statement is the declaration of. -/
def Stmt.own : Stmt → List String
  | .declare name _ => [name]
  | .assign _ _ | .print _ | .branch _ _ _ | .whileLoop _ _ | .forLoop _ _ _ _ | .break
  | .continue => []

/-- The variables that statements are the declarations of, without those in their bodies. -/
def Stmt.ownAll (body : List Stmt) : List String := body.flatMap Stmt.own

theorem Stmt.own_sublist_declared (s : Stmt) : s.own.Sublist s.declared := by
  cases s with
  | declare x value => exact List.Sublist.refl [x]
  | assign | print | branch | whileLoop | forLoop | «break» | «continue» => exact List.nil_sublist _

theorem Stmt.ownAll_sublist_declaredAll (body : List Stmt) :
    (Stmt.ownAll body).Sublist (Stmt.declaredAll body) := by
  induction body with
  | nil => exact List.nil_sublist _
  | cons s more ih =>
    rw [ownAll, List.flatMap_cons, declaredAll]
    exact s.own_sublist_declared.append ih

/-- The declarations of a checked block are of different names. -/
theorem Stmt.nodup_ownAll {body : List Stmt} (h : Stmt.checkAll body table = .ok () table') :
    (Stmt.ownAll body).Nodup := by
  have hnodup := (Stmt.records_checkAll body h).nodup
  rw [Stmt.map_name_declarationsAll] at hnodup
  exact hnodup.sublist (Stmt.ownAll_sublist_declaredAll body)

end JPlusPlus
