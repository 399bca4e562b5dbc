import JPlusPlus.Typing.Check

/-!
# When a check goes through

A check either goes through, with a table, or ends in a fault. What later proofs need of a check is
when it goes through and with which table, so this is said here once for every check, by the checks
that it is made of. Nothing is said of faults.
-/

namespace JPlusPlus

variable {table table' : SymbolTable}

/-! ## Expressions -/

theorem Expr.infer_binary_eq_ok {op : ArithOp} {left right : Expr} {ty : Ty} :
    (Expr.binary op left right).infer table = .ok ty ↔
      left.infer table = .ok .number ∧ right.infer table = .ok .number ∧ ty = .number := by
  rw [Expr.infer]
  rcases left.infer table with f | _ | _ <;> rcases right.infer table with f | _ | _ <;>
    simp [bind, Except.bind, pure, Except.pure, throw, throwThe, MonadExceptOf.throw,
      Ty.isNumber, eq_comm]

theorem Expr.infer_concat_eq_ok {left right : Expr} {ty : Ty} :
    (Expr.concat left right).infer table = .ok ty ↔
      left.infer table = .ok .string ∧ right.infer table = .ok .string ∧ ty = .string := by
  rw [Expr.infer]
  rcases left.infer table with f | _ | _ <;> rcases right.infer table with f | _ | _ <;>
    simp [bind, Except.bind, pure, Except.pure, throw, throwThe, MonadExceptOf.throw,
      Ty.isString, eq_comm]

theorem Expr.infer_ident_eq_ok {x : String} {ty : Ty} :
    (Expr.ident x).infer table = .ok ty ↔ table.lookup x = some ty := by
  rw [Expr.infer]
  split <;> next h => simp [h, pure, Except.pure, throw, throwThe, MonadExceptOf.throw]

/-! ## Steps of a check -/

namespace Checker

variable {α β : Type}

theorem bind_eq_ok {first : Checker α} {next : α → Checker β} {b : β} :
    (first >>= next) table = .ok b table' ↔
      ∃ a table₁, first table = .ok a table₁ ∧ next a table₁ = .ok b table' := by
  constructor
  · intro hb
    cases h : first table with
    | ok a table₁ => exact ⟨a, table₁, rfl, by simpa [bind, EStateM.bind, h] using hb⟩
    | error fault table₁ => simp [bind, EStateM.bind, h] at hb
  · rintro ⟨a, table₁, h, hb⟩
    simpa [bind, EStateM.bind, h] using hb

/-- One check after another, where the first one only changes the table. -/
theorem seq_eq_ok {first : Checker Unit} {next : Unit → Checker β} {b : β} :
    (first >>= next) table = .ok b table' ↔
      ∃ table₁, first table = .ok () table₁ ∧ next () table₁ = .ok b table' := by
  rw [bind_eq_ok]
  constructor
  · rintro ⟨⟨⟩, table₁, h⟩
    exact ⟨table₁, h⟩
  · rintro ⟨table₁, h⟩
    exact ⟨(), table₁, h⟩

theorem infer_eq_ok {a : Expr} {ty : Ty} :
    infer a table = .ok ty table' ↔ a.infer table = .ok ty ∧ table' = table := by
  rw [infer]
  split <;> next h => simp [h, eq_comm]

theorem get_bind (next : SymbolTable → Checker β) (table : SymbolTable) :
    (get >>= next) table = next table table := rfl

@[simp] theorem throw_apply (fault : TypeFault) (table : SymbolTable) :
    (throw fault : Checker β) table = .error fault table := rfl

@[simp] theorem throw_bind (fault : TypeFault) (next : α → Checker β)
    (table : SymbolTable) : (throw fault >>= next) table = .error fault table := rfl

@[simp] theorem pure_apply (b : β) (table : SymbolTable) :
    (pure b : Checker β) table = .ok b table := rfl

theorem record_bind (x : String) (ty : Ty) (next : Unit → Checker β) (table : SymbolTable) :
    (record x ty >>= next) table = next () (table.insert x ty) := rfl

@[simp] theorem record_apply (x : String) (ty : Ty) (table : SymbolTable) :
    record x ty table = .ok () (table.insert x ty) := rfl

theorem infer_bind_eq_ok {a : Expr} {next : Ty → Checker β} {b : β} :
    (infer a >>= next) table = .ok b table' ↔
      ∃ ty, a.infer table = .ok ty ∧ next ty table = .ok b table' := by
  rw [bind_eq_ok]
  constructor
  · rintro ⟨ty, table₁, h₁, h₂⟩
    obtain ⟨ha, rfl⟩ := infer_eq_ok.mp h₁
    exact ⟨ty, ha, h₂⟩
  · rintro ⟨ty, ha, h⟩
    exact ⟨ty, table, infer_eq_ok.mpr ⟨ha, rfl⟩, h⟩

end Checker

/-! ## Declarations, assignments and isolated checks -/

/-- The type of a first value, which is that of numbers when there is none. -/
def FirstType (table : SymbolTable) (ty : Ty) : Option Expr → Prop
  | some value => value.infer table = .ok ty
  | none => ty = .number

theorem FirstType.eq {value : Option Expr} {ty ty' : Ty} (h : FirstType table ty value)
    (h' : FirstType table ty' value) : ty = ty' := by
  cases value with
  | none => exact h.trans h'.symm
  | some a => exact Except.ok.inj (h.symm.trans h')

theorem Checker.declare_eq_ok {x : String} {value : Option Expr} :
    Checker.declare x value table = .ok () table' ↔
      ∃ ty, FirstType table ty value ∧ table.contains x = false ∧ table' = table.insert x ty := by
  have hrecord (ty : Ty) : (get >>= fun known : SymbolTable ↦ if known.contains x = true then
      throw (.alreadyDeclared x) >>= fun _ : PUnit ↦ Checker.record x ty
      else Checker.record x ty : Checker Unit) table = .ok () table' ↔
        table.contains x = false ∧ table' = table.insert x ty := by
    rw [Checker.get_bind]
    by_cases h : table.contains x = true
    · simp [h]
    · simp [h, eq_comm]
  cases value with
  | none => simpa [Checker.declare, FirstType] using hrecord .number
  | some a =>
    rw [Checker.declare, Checker.infer_bind_eq_ok]
    exact exists_congr fun ty ↦ and_congr_right fun _ ↦ hrecord ty

theorem Checker.assign_eq_ok {x : String} {a : Expr} :
    Checker.assign x a table = .ok () table' ↔
      (∃ ty, table.lookup x = some ty ∧ a.infer table = .ok ty) ∧ table' = table := by
  rw [Checker.assign, Checker.get_bind]
  cases hx : table.lookup x with
  | none => simp
  | some declared =>
    dsimp only
    rw [Checker.infer_bind_eq_ok]
    constructor
    · rintro ⟨assigned, ha, h⟩
      by_cases hty : assigned = declared
      · rw [if_neg (fun hne ↦ hne hty)] at h
        cases h
        exact ⟨⟨declared, rfl, hty ▸ ha⟩, rfl⟩
      · rw [if_pos hty] at h
        cases h
    · rintro ⟨⟨ty, hty, ha⟩, rfl⟩
      obtain rfl := Option.some.inj hty
      exact ⟨declared, ha, by simp⟩

theorem Checker.condition_eq_ok {c : Condition} :
    Checker.condition c table = .ok () table' ↔
      (∃ l r, c.left.infer table = .ok l ∧ c.right.infer table = .ok r) ∧ table' = table := by
  rw [Checker.condition, Checker.infer_bind_eq_ok]
  simp only [Checker.infer_bind_eq_ok, Checker.pure_apply, EStateM.Result.ok.injEq, true_and]
  constructor
  · rintro ⟨l, hl, r, hr, rfl⟩
    exact ⟨⟨l, r, hl, hr⟩, rfl⟩
  · rintro ⟨⟨l, r, hl, hr⟩, rfl⟩
    exact ⟨l, hl, r, hr, rfl⟩

theorem Checker.isolated_eq_ok {check : Checker Unit} :
    Checker.isolated check table = .ok () table' ↔
      (∃ inner, check table = .ok () inner) ∧ table' = table := by
  rw [Checker.isolated]
  split <;> next h => simp [h, eq_comm]

/-! ## Statements -/

theorem Checker.condition_bind_eq_ok {c : Condition} {next : Unit → Checker Unit} :
    (Checker.condition c >>= next) table = .ok () table' ↔
      (∃ l r, c.left.infer table = .ok l ∧ c.right.infer table = .ok r) ∧
        next () table = .ok () table' := by
  rw [Checker.seq_eq_ok]
  constructor
  · rintro ⟨table₁, hc, hnext⟩
    obtain ⟨htypes, rfl⟩ := Checker.condition_eq_ok.mp hc
    exact ⟨htypes, hnext⟩
  · rintro ⟨htypes, hnext⟩
    exact ⟨table, Checker.condition_eq_ok.mpr ⟨htypes, rfl⟩, hnext⟩

theorem Stmt.check_print_eq_ok {e : Expr} :
    (Stmt.print e).check table = .ok () table' ↔
      (∃ ty, e.infer table = .ok ty) ∧ table' = table := by
  rw [Stmt.check, Checker.infer_bind_eq_ok]
  simp [eq_comm]

theorem Stmt.check_branch_eq_ok {c : Condition} {body : List Stmt} {orElse : ElseChain} :
    (Stmt.branch c body orElse).check table = .ok () table' ↔
      (∃ l r, c.left.infer table = .ok l ∧ c.right.infer table = .ok r) ∧
        ∃ table₁, Stmt.checkAll body table = .ok () table₁ ∧
          orElse.check table₁ = .ok () table' := by
  rw [Stmt.check, Checker.condition_bind_eq_ok, Checker.seq_eq_ok]

theorem Stmt.check_whileLoop_eq_ok {c : Condition} {body : List Stmt} :
    (Stmt.whileLoop c body).check table = .ok () table' ↔
      (∃ l r, c.left.infer table = .ok l ∧ c.right.infer table = .ok r) ∧
        Stmt.checkAll body table = .ok () table' := by
  rw [Stmt.check, Checker.condition_bind_eq_ok]

theorem Stmt.check_forLoop_eq_ok {x : String} {start stop : Expr} {body : List Stmt} :
    (Stmt.forLoop x start stop body).check table = .ok () table' ↔
      (∃ a b inner, start.infer table = .ok a ∧ stop.infer table = .ok b ∧
        Stmt.checkAll body (table.insert x .number) = .ok () inner) ∧ table' = table := by
  rw [Stmt.check, Checker.isolated_eq_ok]
  simp only [Checker.infer_bind_eq_ok, Checker.record_bind]
  refine and_congr_left fun _ ↦ ?_
  constructor
  · rintro ⟨inner, a, ha, b, hb, hbody⟩
    exact ⟨a, b, inner, ha, hb, hbody⟩
  · rintro ⟨a, b, inner, ha, hb, hbody⟩
    exact ⟨inner, a, ha, b, hb, hbody⟩

theorem ElseChain.check_elseIf_eq_ok {c : Condition} {body : List Stmt} {orElse : ElseChain} :
    (ElseChain.elseIf c body orElse).check table = .ok () table' ↔
      (∃ l r, c.left.infer table = .ok l ∧ c.right.infer table = .ok r) ∧
        ∃ table₁, Stmt.checkAll body table = .ok () table₁ ∧
          orElse.check table₁ = .ok () table' := by
  rw [ElseChain.check, Checker.condition_bind_eq_ok, Checker.seq_eq_ok]

theorem Stmt.checkAll_append_eq_ok {body more : List Stmt} :
    Stmt.checkAll (body ++ more) table = .ok () table' ↔
      ∃ table₁, Stmt.checkAll body table = .ok () table₁ ∧
        Stmt.checkAll more table₁ = .ok () table' := by
  induction body generalizing table with
  | nil => simp [Stmt.checkAll]
  | cons s body ih =>
    rw [List.cons_append, Stmt.checkAll, Stmt.checkAll]
    simp only [Checker.seq_eq_ok, ih]
    constructor
    · rintro ⟨table₁, hs, table₂, hbody, hmore⟩
      exact ⟨table₂, ⟨table₁, hs, hbody⟩, hmore⟩
    · rintro ⟨table₂, ⟨table₁, hs, hbody⟩, hmore⟩
      exact ⟨table₁, hs, table₂, hbody, hmore⟩

theorem Program.check_eq_ok {p : Program} :
    p.check = .ok () ↔ ∃ table', Stmt.checkAll p.body .empty = .ok () table' := by
  rw [Program.check]
  cases h : Stmt.checkAll p.body .empty with
  | ok a table' => simp
  | error fault table' => simp

end JPlusPlus
