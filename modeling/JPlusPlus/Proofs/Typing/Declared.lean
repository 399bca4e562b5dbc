import JPlusPlus.Proofs.Typing.Success

/-!
# What a check leaves in the table

A check never changes an entry of the table it starts from, and it adds only variables that are
declared outside of counting loops in what is checked. Both hold whether the check goes through or
ends in a fault half way: a counting loop gives its changes up in either case.
-/

namespace JPlusPlus

/-! ## Declared variables -/

mutual

/-- The variables that a statement declares for what follows it. The body of a counting loop keeps
its own. -/
def Stmt.declared : Stmt → List String
  | .declare name _ => [name]
  | .branch _ body orElse => Stmt.declaredAll body ++ orElse.declared
  | .whileLoop _ body => Stmt.declaredAll body
  | .assign _ _ | .print _ | .forLoop _ _ _ _ | .break | .continue => []

/-- The variables that statements declare for what follows them. -/
def Stmt.declaredAll : List Stmt → List String
  | [] => []
  | stmt :: more => stmt.declared ++ Stmt.declaredAll more

/-- The variables that the branches of a conditional declare for what follows it. -/
def ElseChain.declared : ElseChain → List String
  | .nothing => []
  | .otherwise body => Stmt.declaredAll body
  | .elseIf _ body orElse => Stmt.declaredAll body ++ orElse.declared

end

/-! ## Tables that grow -/

/-- A table is part of another one that has all of its entries. -/
instance : LE SymbolTable :=
  ⟨fun table table' ↦ ∀ {x ty}, table.lookup x = some ty → table'.lookup x = some ty⟩

theorem SymbolTable.le_refl (table : SymbolTable) : table ≤ table := id

theorem SymbolTable.le_trans {table₁ table₂ table₃ : SymbolTable} (h : table₁ ≤ table₂)
    (h' : table₂ ≤ table₃) : table₁ ≤ table₃ := fun hx ↦ h' (h hx)

/-- The second table has the entries of the first one, and no others but of the given names. -/
structure Extends (table table' : SymbolTable) (names : List String) : Prop where
  /-- The entries stay. -/
  keeps : table ≤ table'
  /-- An entry was there before or is one of a given name. -/
  adds : ∀ {x ty}, table'.lookup x = some ty → table.lookup x = some ty ∨ x ∈ names

theorem Extends.refl (table : SymbolTable) (names : List String) : Extends table table names :=
  ⟨table.le_refl, .inl⟩

theorem Extends.trans {table₁ table₂ table₃ : SymbolTable} {names names' : List String}
    (h : Extends table₁ table₂ names) (h' : Extends table₂ table₃ names') :
    Extends table₁ table₃ (names ++ names') where
  keeps := SymbolTable.le_trans h.keeps h'.keeps
  adds hx := by
    rw [List.mem_append]
    rcases h'.adds hx with hx | hx
    · exact (h.adds hx).imp_right .inl
    · exact .inr (.inr hx)

theorem Extends.mono {table table' : SymbolTable} {names names' : List String}
    (h : Extends table table' names) (hsub : names ⊆ names') : Extends table table' names' :=
  ⟨h.keeps, fun hx ↦ (h.adds hx).imp_right fun hx ↦ hsub hx⟩

theorem Extends.insert {table : SymbolTable} {x : String} (hx : table.contains x = false)
    (ty : Ty) : Extends table (table.insert x ty) [x] where
  keeps {y t} hy := by
    rw [SymbolTable.lookup_insert, if_neg]
    · exact hy
    · rintro rfl
      rw [SymbolTable.contains, hy] at hx
      cases hx
  adds {y t} hy := by
    rw [SymbolTable.lookup_insert] at hy
    by_cases hyx : y = x
    · exact .inr (List.mem_singleton.mpr hyx)
    · rw [if_neg hyx] at hy
      exact .inl hy

namespace Checker

variable {α β : Type}

/-- The table that a check leaves, also when it ends in a fault. -/
def leaves (check : Checker α) (table : SymbolTable) : SymbolTable :=
  match check table with
  | .ok _ table' | .error _ table' => table'

theorem leaves_of_ok {check : Checker α} {table table' : SymbolTable} {a : α}
    (h : check table = .ok a table') : leaves check table = table' := by
  rw [leaves, h]

theorem leaves_of_error {check : Checker α} {table table' : SymbolTable} {fault : TypeFault}
    (h : check table = .error fault table') : leaves check table = table' := by
  rw [leaves, h]

/-- The check adds only the given names to the table, and changes no entry. -/
def Grows (check : Checker α) (names : List String) : Prop :=
  ∀ table, Extends table (leaves check table) names

theorem Grows.pure (a : α) : Grows (Pure.pure a : Checker α) [] := fun table ↦ .refl table []

/-- One check after the other. -/
theorem Grows.bind {check : Checker α} {next : α → Checker β} {names names' : List String}
    (h : Grows check names) (h' : ∀ a, Grows (next a) names') :
    Grows (check >>= next) (names ++ names') := by
  intro table
  have hfirst := h table
  cases hc : check table with
  | ok a table₁ =>
    rw [leaves_of_ok hc] at hfirst
    have hbind : leaves (check >>= next) table = leaves (next a) table₁ := by
      simp [leaves, Bind.bind, EStateM.bind, hc]
    rw [hbind]
    exact hfirst.trans (h' a table₁)
  | error fault table₁ =>
    -- The second check is not made, and what the first one added before its fault stays.
    have hbind : leaves (check >>= next) table = leaves check table := by
      simp [leaves, Bind.bind, EStateM.bind, hc]
    rw [hbind]
    exact hfirst.mono (List.subset_append_left names names')

theorem leaves_infer (e : Expr) (table : SymbolTable) : leaves (Checker.infer e) table = table := by
  rw [leaves, Checker.infer]
  cases e.infer table <;> rfl

theorem Grows.infer (e : Expr) : Grows (Checker.infer e) [] := by
  intro table
  rw [leaves_infer]
  exact .refl table []

theorem Grows.condition (c : Condition) : Grows (Checker.condition c) [] :=
  (Grows.infer c.left).bind fun _ ↦ (Grows.infer c.right).bind fun _ ↦ .pure ()

/-- What an isolated check changes is given up. -/
theorem leaves_isolated (check : Checker Unit) (table : SymbolTable) :
    leaves (Checker.isolated check) table = table := by
  rw [leaves, Checker.isolated]
  cases check table <;> rfl

theorem Grows.isolated (check : Checker Unit) : Grows (Checker.isolated check) [] := by
  intro table
  rw [leaves_isolated]
  exact .refl table []

theorem infer_bind (e : Expr) (next : Ty → Checker β) (table : SymbolTable) :
    (Checker.infer e >>= next) table =
      match e.infer table with
      | .ok ty => next ty table
      | .error fault => .error fault table := by
  simp only [Bind.bind, EStateM.bind, Checker.infer]
  cases e.infer table <;> rfl

/-- A declaration that is refused leaves the table as it was. -/
theorem declare_eq_error {x : String} {value : Option Expr} {table table' : SymbolTable}
    {fault : TypeFault} (h : Checker.declare x value table = .error fault table') :
    table' = table := by
  -- With or without a first value, what is left to do is to look the name up and record it.
  have hrecord (ty : Ty) (h : (get >>= fun known : SymbolTable ↦ if known.contains x = true then
      throw (.alreadyDeclared x) >>= fun _ : PUnit ↦ Checker.record x ty
      else Checker.record x ty : Checker Unit) table = .error fault table') : table' = table := by
    rw [Checker.get_bind] at h
    by_cases hx : table.contains x = true
    · rw [if_pos hx] at h
      cases h
      rfl
    · rw [if_neg hx] at h
      cases h
  cases value with
  | none => exact hrecord .number h
  | some e =>
    rw [Checker.declare, infer_bind] at h
    cases hty : e.infer table with
    | ok ty =>
      rw [hty] at h
      exact hrecord ty h
    | error fault' =>
      rw [hty] at h
      cases h
      rfl

theorem Grows.declare (x : String) (value : Option Expr) : Grows (Checker.declare x value) [x] := by
  intro table
  cases hc : Checker.declare x value table with
  | ok a table' =>
    obtain ⟨ty, -, hfresh, rfl⟩ := Checker.declare_eq_ok.mp hc
    rw [leaves_of_ok hc]
    exact .insert hfresh ty
  | error fault table' =>
    obtain rfl := declare_eq_error hc
    rw [leaves_of_error hc]
    exact .refl table' [x]

/-- An assignment leaves the table as it was. -/
theorem leaves_assign (x : String) (value : Expr) (table : SymbolTable) :
    leaves (Checker.assign x value) table = table := by
  rw [leaves, Checker.assign, Checker.get_bind]
  cases table.lookup x with
  | none => rfl
  | some declared =>
    dsimp only
    rw [infer_bind]
    cases value.infer table with
    | error fault => rfl
    | ok assigned =>
      dsimp only
      by_cases hty : assigned ≠ declared
      · rw [if_pos hty]
        rfl
      · rw [if_neg hty]
        rfl

theorem Grows.assign (x : String) (value : Expr) : Grows (Checker.assign x value) [] := by
  intro table
  rw [leaves_assign]
  exact .refl table []

end Checker

/-! ## Statements -/

open Checker (Grows)

mutual

/-- A statement adds only what it declares. -/
theorem Stmt.grows_check : ∀ s : Stmt, Grows s.check s.declared
  | .declare x value => by
    rw [Stmt.check, Stmt.declared]
    exact .declare x value
  | .assign x e => by
    rw [Stmt.check, Stmt.declared]
    exact .assign x e
  | .print e => by
    rw [Stmt.check, Stmt.declared]
    exact (Grows.infer e).bind fun _ ↦ .pure ()
  | .branch c body orElse => by
    rw [Stmt.check, Stmt.declared]
    exact (Grows.condition c).bind fun _ ↦
      (Stmt.grows_checkAll body).bind fun _ ↦ ElseChain.grows_check orElse
  | .whileLoop c body => by
    rw [Stmt.check, Stmt.declared]
    exact (Grows.condition c).bind fun _ ↦ Stmt.grows_checkAll body
  | .forLoop x start stop body => by
    rw [Stmt.check, Stmt.declared]
    exact .isolated _
  | .break | .continue => by
    rw [Stmt.check, Stmt.declared]
    exact .pure ()

theorem Stmt.grows_checkAll : ∀ body : List Stmt, Grows (Stmt.checkAll body) (Stmt.declaredAll body)
  | [] => by
    rw [Stmt.checkAll, Stmt.declaredAll]
    exact .pure ()
  | s :: more => by
    rw [Stmt.checkAll, Stmt.declaredAll]
    exact (Stmt.grows_check s).bind fun _ ↦ Stmt.grows_checkAll more

theorem ElseChain.grows_check : ∀ chain : ElseChain, Grows chain.check chain.declared
  | .nothing => by
    rw [ElseChain.check, ElseChain.declared]
    exact .pure ()
  | .otherwise body => by
    rw [ElseChain.check, ElseChain.declared]
    exact Stmt.grows_checkAll body
  | .elseIf c body orElse => by
    rw [ElseChain.check, ElseChain.declared]
    exact (Grows.condition c).bind fun _ ↦
      (Stmt.grows_checkAll body).bind fun _ ↦ ElseChain.grows_check orElse

end

theorem Checker.Grows.extends {α : Type} {check : Checker α} {names : List String}
    {table table' : SymbolTable} {a : α} (h : Grows check names) (hc : check table = .ok a table') :
    Extends table table' names := by
  rw [← leaves_of_ok hc]
  exact h table

end JPlusPlus
