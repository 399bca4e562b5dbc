import JPlusPlus.Proofs.Typing.Declared

/-!
# What a check depends on

A check looks up and records only names that stand in what is checked. So the entries of other names
neither matter to it nor change, whether it goes through or not: from two tables that agree on the
names, it comes to the same end, with the same fault if there is one, and to tables that agree on
the names again.

Statements that share no name with others can therefore be checked before them or after them.

## Main statements

* `Stmt.local_checkAll`: the check of statements depends on the names in them only.
* `Stmt.checkAll_append_comm`: statements without a common name may change places.
-/

namespace JPlusPlus

/-! ## The names in a program -/

/-- The names in an expression. -/
def Expr.mentions : Expr → List String
  | number _ | string _ => []
  | ident name => [name]
  | binary _ left right | concat left right => left.mentions ++ right.mentions

/-- The names in a condition. -/
def Condition.mentions (condition : Condition) : List String :=
  condition.left.mentions ++ condition.right.mentions

/-- The names in a first value. -/
def mentionsFirst : Option Expr → List String
  | none => []
  | some e => e.mentions

mutual

/-- The names in a statement: those that are used, declared or assigned, and those that count. -/
def Stmt.mentions : Stmt → List String
  | .declare name value => mentionsFirst value ++ [name]
  | .assign name value => name :: value.mentions
  | .print value => value.mentions
  | .branch condition body orElse =>
    condition.mentions ++ (Stmt.mentionsAll body ++ orElse.mentions)
  | .whileLoop condition body => condition.mentions ++ Stmt.mentionsAll body
  | .forLoop counter start stop body =>
    start.mentions ++ (stop.mentions ++ (counter :: Stmt.mentionsAll body))
  | .break | .continue => []

/-- The names in statements. -/
def Stmt.mentionsAll : List Stmt → List String
  | [] => []
  | stmt :: more => stmt.mentions ++ Stmt.mentionsAll more

/-- The names in what a conditional does when its condition fails. -/
def ElseChain.mentions : ElseChain → List String
  | .nothing => []
  | .otherwise body => Stmt.mentionsAll body
  | .elseIf condition body orElse =>
    condition.mentions ++ (Stmt.mentionsAll body ++ orElse.mentions)

end

/-! ## Tables that agree on names -/

/-- Two tables give each of the names the same type, or none. -/
def AgreeOn (names : List String) (table table' : SymbolTable) : Prop :=
  ∀ x ∈ names, table.lookup x = table'.lookup x

variable {names names' : List String} {table table' : SymbolTable}

theorem AgreeOn.mono (h : AgreeOn names table table') (hsub : names' ⊆ names) :
    AgreeOn names' table table' := fun x hx ↦ h x (hsub hx)

theorem AgreeOn.symm (h : AgreeOn names table table') : AgreeOn names table' table :=
  fun x hx ↦ (h x hx).symm

theorem AgreeOn.insert (h : AgreeOn names table table') (x : String) (ty : Ty) :
    AgreeOn names (table.insert x ty) (table'.insert x ty) := by
  intro y hy
  rw [SymbolTable.lookup_insert, SymbolTable.lookup_insert, h y hy]

theorem Expr.infer_congr {e : Expr} (h : AgreeOn e.mentions table table') :
    e.infer table = e.infer table' := by
  induction e with
  | number digits => rfl
  | string value => rfl
  | ident name => rw [infer, infer, h name List.mem_cons_self]
  | binary op left right ihl ihr =>
    rw [infer, infer, ihl (h.mono (List.subset_append_left _ _)),
      ihr (h.mono (List.subset_append_right _ _))]
  | concat left right ihl ihr =>
    rw [infer, infer, ihl (h.mono (List.subset_append_left _ _)),
      ihr (h.mono (List.subset_append_right _ _))]

/-! ## Local checks -/

namespace Checker

variable {α β : Type}

/-- What a check comes to, without the table that it leaves. -/
def outcome (check : Checker α) (table : SymbolTable) : Except TypeFault α :=
  match check table with
  | .ok a _ => .ok a
  | .error fault _ => .error fault

theorem outcome_eq_ok {check : Checker α} {a : α} :
    outcome check table = .ok a ↔ check table = .ok a (leaves check table) := by
  rw [outcome, leaves]
  cases check table with
  | ok b table₁ => simp
  | error fault table₁ => simp

theorem outcome_eq_error {check : Checker α} {fault : TypeFault} :
    outcome check table = .error fault ↔ check table = .error fault (leaves check table) := by
  rw [outcome, leaves]
  cases check table with
  | ok b table₁ => simp
  | error fault table₁ => simp

theorem outcome_bind_of_ok {check : Checker α} {next : α → Checker β} {a : α}
    (h : outcome check table = .ok a) :
    outcome (check >>= next) table = outcome (next a) (leaves check table) ∧
      leaves (check >>= next) table = leaves (next a) (leaves check table) := by
  rw [outcome_eq_ok] at h
  simp only [outcome, leaves, Bind.bind, EStateM.bind]
  rw [h]
  exact ⟨rfl, rfl⟩

theorem outcome_bind_of_error {check : Checker α} {next : α → Checker β} {fault : TypeFault}
    (h : outcome check table = .error fault) :
    outcome (check >>= next) table = .error fault ∧
      leaves (check >>= next) table = leaves check table := by
  rw [outcome_eq_error] at h
  simp only [outcome, leaves, Bind.bind, EStateM.bind]
  rw [h]
  exact ⟨rfl, rfl⟩

/-- The check depends on the names only and leaves all other entries as they are. -/
structure Local (check : Checker α) (names : List String) : Prop where
  /-- Tables that agree on the names, and on whatever else, give the same end and agree again. -/
  agree : ∀ {known table table'}, names ⊆ known → AgreeOn known table table' →
    outcome check table = outcome check table' ∧
      AgreeOn known (leaves check table) (leaves check table')
  /-- Other names keep their entries. -/
  frame : ∀ {table x}, x ∉ names → (leaves check table).lookup x = table.lookup x

theorem Local.pure (a : α) : Local (Pure.pure a : Checker α) [] where
  agree _ h := ⟨rfl, h⟩
  frame _ := rfl

/-- One check after the other. A fault of the first one is met from both tables or from neither, so
the second check is made twice or not at all. -/
theorem Local.bind {check : Checker α} {next : α → Checker β} (h : Local check names)
    (h' : ∀ a, Local (next a) names') : Local (check >>= next) (names ++ names') where
  agree {known table table'} hsub hagree := by
    obtain ⟨hsame, hleaves⟩ :=
      h.agree (fun x hx ↦ hsub (List.mem_append_left names' hx)) hagree
    cases hcheck : outcome check table with
    | ok a =>
      rw [(outcome_bind_of_ok hcheck).1, (outcome_bind_of_ok hcheck).2,
        (outcome_bind_of_ok (hsame.symm.trans hcheck)).1,
        (outcome_bind_of_ok (hsame.symm.trans hcheck)).2]
      exact (h' a).agree (fun x hx ↦ hsub (List.mem_append_right names hx)) hleaves
    | error fault =>
      rw [(outcome_bind_of_error hcheck).1, (outcome_bind_of_error hcheck).2,
        (outcome_bind_of_error (hsame.symm.trans hcheck)).1,
        (outcome_bind_of_error (hsame.symm.trans hcheck)).2]
      exact ⟨rfl, hleaves⟩
  frame {table x} hx := by
    rw [List.mem_append, not_or] at hx
    cases hcheck : outcome check table with
    | ok a => rw [(outcome_bind_of_ok hcheck).2, (h' a).frame hx.2, h.frame hx.1]
    | error fault => rw [(outcome_bind_of_error hcheck).2, h.frame hx.1]

theorem Local.mono {check : Checker α} (h : Local check names) (hsub : names ⊆ names') :
    Local check names' where
  agree hknown := h.agree fun _ hx ↦ hknown (hsub hx)
  frame hx := h.frame fun hmem ↦ hx (hsub hmem)

theorem Local.infer (e : Expr) : Local (Checker.infer e) e.mentions where
  agree {known table table'} hsub hagree := by
    have hinfer : e.infer table = e.infer table' := Expr.infer_congr (hagree.mono hsub)
    rw [leaves_infer, leaves_infer, outcome, outcome, Checker.infer, Checker.infer, hinfer]
    refine ⟨?_, hagree⟩
    cases e.infer table' <;> rfl
  frame _ := by rw [leaves_infer]

theorem Local.record (x : String) (ty : Ty) : Local (Checker.record x ty) [x] where
  agree _ hagree := ⟨rfl, hagree.insert x ty⟩
  frame {table y} hy := by
    have hne : y ≠ x := fun he ↦ hy (List.mem_singleton.mpr he)
    show (table.insert x ty).lookup y = table.lookup y
    rw [SymbolTable.lookup_insert, if_neg hne]

/-- A check that goes on with the entry of a name in the table. -/
theorem Local.lookup (x : String) (next : Option Ty → Checker α) (hx : x ∈ names)
    (h : ∀ entry, Local (next entry) names) :
    Local (do let known ← get; next (known.lookup x)) names where
  agree {known table table'} hsub hagree := by
    show outcome (next (table.lookup x)) table = outcome (next (table'.lookup x)) table' ∧
      AgreeOn known (leaves (next (table.lookup x)) table)
        (leaves (next (table'.lookup x)) table')
    rw [hagree x (hsub hx)]
    exact (h _).agree hsub hagree
  frame hy := (h _).frame hy

theorem Local.fail (fault : TypeFault) : Local (throw fault : Checker α) [] where
  agree _ h := ⟨rfl, h⟩
  frame _ := rfl

/-- What an isolated check changes is given up, so only its end matters. -/
theorem Local.isolated {check : Checker Unit} (h : Local check names) :
    Local (Checker.isolated check) names where
  agree {known table table'} hsub hagree := by
    rw [leaves_isolated, leaves_isolated]
    refine ⟨?_, hagree⟩
    have hsame := (h.agree hsub hagree).1
    simp only [outcome, Checker.isolated] at hsame ⊢
    cases hcheck : check table <;> cases hcheck' : check table' <;>
      simp only [hcheck, hcheck'] at hsame ⊢ <;> exact hsame
  frame _ := by rw [leaves_isolated]

theorem Local.condition (c : Condition) : Local (Checker.condition c) c.mentions :=
  ((Local.infer c.left).bind fun _ ↦ (Local.infer c.right).bind fun _ ↦ .pure ()).mono
    (by simp [Condition.mentions])

theorem Local.declare (x : String) (value : Option Expr) :
    Local (Checker.declare x value) (mentionsFirst value ++ [x]) := by
  -- With or without a first value, what is left to do is to look the name up and record it.
  have hrecord (ty : Ty) : Local (do
      if (← get).contains x then throw (.alreadyDeclared x)
      Checker.record x ty) [x] := by
    refine Local.lookup x (fun entry ↦ do
      if entry.isSome then throw (.alreadyDeclared x)
      Checker.record x ty) List.mem_cons_self fun entry ↦ ?_
    cases entry with
    | none => exact .record x ty
    | some ty' => exact (Local.fail _).mono (List.nil_subset _)
  cases value with
  | none => exact hrecord .number
  | some e => exact (Local.infer e).bind hrecord

theorem Local.assign (x : String) (e : Expr) :
    Local (Checker.assign x e) (x :: e.mentions) where
  agree {known table table'} hsub hagree := by
    have hentry : table.lookup x = table'.lookup x := hagree x (hsub List.mem_cons_self)
    have hinfer : e.infer table = e.infer table' :=
      Expr.infer_congr (hagree.mono fun y hy ↦ hsub (List.mem_cons_of_mem x hy))
    rw [leaves_assign, leaves_assign]
    refine ⟨?_, hagree⟩
    simp only [outcome, Checker.assign, get_bind, hentry]
    cases table'.lookup x with
    | none => rfl
    | some declared =>
      simp only [infer_bind, hinfer]
      cases e.infer table' with
      | error fault => rfl
      | ok assigned =>
        by_cases h : assigned ≠ declared
        · simp only [if_pos h, throw_apply]
        · simp only [if_neg h, pure_apply]
  frame _ := by rw [leaves_assign]

end Checker

/-! ## Statements -/

open Checker (Local)

mutual

/-- The check of a statement depends on the names in it only. -/
theorem Stmt.local_check : ∀ s : Stmt, Local s.check s.mentions
  | .declare x value => by
    rw [Stmt.check, Stmt.mentions]
    exact .declare x value
  | .assign x e => by
    rw [Stmt.check, Stmt.mentions]
    exact .assign x e
  | .print e => by
    rw [Stmt.check, Stmt.mentions]
    exact ((Local.infer e).bind fun _ ↦ .pure ()).mono (by simp)
  | .branch c body orElse => by
    rw [Stmt.check, Stmt.mentions]
    exact (Local.condition c).bind fun _ ↦
      (Stmt.local_checkAll body).bind fun _ ↦ ElseChain.local_check orElse
  | .whileLoop c body => by
    rw [Stmt.check, Stmt.mentions]
    exact (Local.condition c).bind fun _ ↦ Stmt.local_checkAll body
  | .forLoop x start stop body => by
    rw [Stmt.check, Stmt.mentions]
    exact .isolated ((Local.infer start).bind fun _ ↦ (Local.infer stop).bind fun _ ↦
      (Local.record x .number).bind fun _ ↦ Stmt.local_checkAll body)
  | .break | .continue => by
    rw [Stmt.check, Stmt.mentions]
    exact .pure ()

theorem Stmt.local_checkAll : ∀ body : List Stmt,
    Local (Stmt.checkAll body) (Stmt.mentionsAll body)
  | [] => by
    rw [Stmt.checkAll, Stmt.mentionsAll]
    exact .pure ()
  | s :: more => by
    rw [Stmt.checkAll, Stmt.mentionsAll]
    exact (Stmt.local_check s).bind fun _ ↦ Stmt.local_checkAll more

theorem ElseChain.local_check : ∀ chain : ElseChain, Local chain.check chain.mentions
  | .nothing => by
    rw [ElseChain.check, ElseChain.mentions]
    exact .pure ()
  | .otherwise body => by
    rw [ElseChain.check, ElseChain.mentions]
    exact Stmt.local_checkAll body
  | .elseIf c body orElse => by
    rw [ElseChain.check, ElseChain.mentions]
    exact (Local.condition c).bind fun _ ↦
      (Stmt.local_checkAll body).bind fun _ ↦ ElseChain.local_check orElse

end

/-! ## Statements that share no name -/

/-- The lists have no name in common. -/
def Apart (names names' : List String) : Prop := ∀ x ∈ names, x ∉ names'

theorem Apart.symm (h : Apart names names') : Apart names' names := fun x hx hx' ↦ h x hx' hx

/-- Statements leave the entries of names that they do not mention. -/
theorem Stmt.agreeOn_checkAll {body : List Stmt} {known : List String}
    (h : Apart (Stmt.mentionsAll body) known) (hcheck : Stmt.checkAll body table = .ok () table') :
    AgreeOn known table table' := by
  intro x hx
  rw [← Checker.leaves_of_ok hcheck]
  exact ((Stmt.local_checkAll body).frame fun hmem ↦ h x hmem hx).symm

/-- Statements that go through from one table go through from another that agrees on the names. -/
theorem Stmt.checkAll_of_agreeOn {body : List Stmt} {table₁ : SymbolTable}
    (h : AgreeOn (Stmt.mentionsAll body) table table')
    (hcheck : Stmt.checkAll body table = .ok () table₁) :
    ∃ table₂, Stmt.checkAll body table' = .ok () table₂ ∧
      AgreeOn (Stmt.mentionsAll body) table₁ table₂ := by
  obtain ⟨hsame, hagree⟩ := (Stmt.local_checkAll body).agree (List.Subset.refl _) h
  rw [Checker.leaves_of_ok hcheck] at hagree
  have hok : Checker.outcome (Stmt.checkAll body) table = .ok () := by
    rw [Checker.outcome, hcheck]
  rw [hsame, Checker.outcome_eq_ok] at hok
  exact ⟨_, hok, hagree⟩

/-- Statements without a common name may change places. -/
theorem Stmt.checkAll_append_comm {body body' : List Stmt} {table₁ : SymbolTable}
    (h : Apart (Stmt.mentionsAll body) (Stmt.mentionsAll body'))
    (hcheck : Stmt.checkAll (body ++ body') table = .ok () table₁) :
    ∃ table₂, Stmt.checkAll (body' ++ body) table = .ok () table₂ ∧ table₁.same table₂ = true := by
  obtain ⟨middle, hbody, hbody'⟩ := Stmt.checkAll_append_eq_ok.mp hcheck
  -- The second statements do not see what the first ones did, so they may as well come first.
  have hmiddle := Stmt.agreeOn_checkAll h hbody
  obtain ⟨middle', hfirst, hagree'⟩ := Stmt.checkAll_of_agreeOn hmiddle.symm hbody'
  have hmiddle' := Stmt.agreeOn_checkAll h.symm hfirst
  obtain ⟨table₂, hsecond, hagree⟩ := Stmt.checkAll_of_agreeOn hmiddle' hbody
  refine ⟨table₂, Stmt.checkAll_append_eq_ok.mpr ⟨middle', hfirst, hsecond⟩, ?_⟩
  rw [SymbolTable.same_iff]
  intro x
  by_cases hx : x ∈ Stmt.mentionsAll body
  · rw [← hagree x hx]
    exact (Stmt.agreeOn_checkAll h.symm hbody' x hx).symm
  by_cases hx' : x ∈ Stmt.mentionsAll body'
  · rw [← Stmt.agreeOn_checkAll h hsecond x hx']
    exact hagree' x hx'
  -- A name that is in neither keeps the entry it had before all of them.
  have hapart {names : List String} (hnot : x ∉ names) : Apart names [x] :=
    fun y hy he ↦ hnot (List.mem_singleton.mp he ▸ hy)
  have hone := Stmt.agreeOn_checkAll (hapart hx) hbody x List.mem_cons_self
  have htwo := Stmt.agreeOn_checkAll (hapart hx') hbody' x List.mem_cons_self
  have hone' := Stmt.agreeOn_checkAll (hapart hx') hfirst x List.mem_cons_self
  have htwo' := Stmt.agreeOn_checkAll (hapart hx) hsecond x List.mem_cons_self
  exact (hone.trans htwo).symm.trans (hone'.trans htwo')

/-- **A check depends only on the names in what is checked.** From two tables that agree on them it
comes to the same end, with the same fault if there is one, and the tables that it leaves agree on
them again. A name that is not among them keeps its entry. So where two groups of statements share
no name, they are accepted in one order exactly when they are in the other, with the same table. -/
theorem Stmt.checkAll_depends_on_mentions (body : List Stmt) :
    (∀ table table', AgreeOn (Stmt.mentionsAll body) table table' →
      Checker.outcome (Stmt.checkAll body) table = Checker.outcome (Stmt.checkAll body) table' ∧
        AgreeOn (Stmt.mentionsAll body) (Checker.leaves (Stmt.checkAll body) table)
          (Checker.leaves (Stmt.checkAll body) table')) ∧
      (∀ table x, x ∉ Stmt.mentionsAll body →
        (Checker.leaves (Stmt.checkAll body) table).lookup x = table.lookup x) ∧
      ∀ body' table, Apart (Stmt.mentionsAll body) (Stmt.mentionsAll body') →
        ((∃ table₁, Stmt.checkAll (body ++ body') table = .ok () table₁) ↔
          ∃ table₂, Stmt.checkAll (body' ++ body) table = .ok () table₂) ∧
        ∀ table₁ table₂, Stmt.checkAll (body ++ body') table = .ok () table₁ →
          Stmt.checkAll (body' ++ body) table = .ok () table₂ → table₁.same table₂ = true := by
  refine ⟨?_, ?_, ?_⟩
  · intro table table' hagree
    exact (Stmt.local_checkAll body).agree (List.Subset.refl _) hagree
  · intro table x hx
    exact (Stmt.local_checkAll body).frame hx
  · intro body' table hapart
    refine ⟨⟨?_, ?_⟩, ?_⟩
    · rintro ⟨table₁, h⟩
      obtain ⟨table₂, h', -⟩ := Stmt.checkAll_append_comm hapart h
      exact ⟨table₂, h'⟩
    · rintro ⟨table₂, h⟩
      obtain ⟨table₁, h', -⟩ := Stmt.checkAll_append_comm hapart.symm h
      exact ⟨table₁, h'⟩
    · intro table₁ table₂ h h'
      obtain ⟨table₂', h'', hsame⟩ := Stmt.checkAll_append_comm hapart h
      rw [h'] at h''
      cases h''
      exact hsame

/-- Tables that differ in names which the statements do not mention, and an assignment to one of
those names, which may stand before the statements or after them. -/
theorem Stmt.checkAll_depends_on_mentions_loop :
    let loop : List Stmt :=
      [.declare "n" none, .forLoop "i" (.number "0") (.ident "n") [.print (.ident "i")]]
    let known := (SymbolTable.empty.insert "m" .string).insert "k" .number
    let other := SymbolTable.empty.insert "k" .string
    AgreeOn (Stmt.mentionsAll loop) known other ∧
      Checker.outcome (Stmt.checkAll loop) known = Checker.outcome (Stmt.checkAll loop) other ∧
      Apart (Stmt.mentionsAll loop) (Stmt.mentionsAll [.assign "m" (.string "s")]) ∧
      ((∃ table₁, Stmt.checkAll (loop ++ [.assign "m" (.string "s")]) known = .ok () table₁) ↔
        ∃ table₂, Stmt.checkAll (.assign "m" (.string "s") :: loop) known = .ok () table₂) := by
  intro loop known other
  have hagree : AgreeOn (Stmt.mentionsAll loop) known other := by
    unfold AgreeOn
    decide
  have hapart : Apart (Stmt.mentionsAll loop) (Stmt.mentionsAll [.assign "m" (.string "s")]) := by
    unfold Apart
    decide
  obtain ⟨hsame, -, hcomm⟩ := Stmt.checkAll_depends_on_mentions loop
  exact ⟨hagree, (hsame known other hagree).1, hapart, (hcomm _ known hapart).1⟩

end JPlusPlus
