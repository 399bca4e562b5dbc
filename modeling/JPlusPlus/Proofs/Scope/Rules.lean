import JPlusPlus.Proofs.Scope.Visible
import JPlusPlus.Proofs.Typing.Success

/-!
# The rules for names and types

What a program has to keep to, said by places: which type each binding gives its variable, which
type each expression has, and the rule for every form of node. Types are not computed here. A type
of an expression rests on the types of the bindings visible at its names, and the type of a binding
on its first value, which stands further up in the text.

A table agrees with a point when it holds exactly the bindings visible there, with their types.
Under such a table the types found for expressions are their types, and an expression has one when
the rules hold in all of it.
-/

namespace JPlusPlus

/-! ## Types by places -/

mutual

/-- The expression at the place has the type. -/
inductive HasType (p : Program) : Place → Ty → Prop where
  | number {pos : Place} {digits : String} :
      p.at? pos = some (.expr (.number digits)) → HasType p pos .number
  | string {pos : Place} {value : String} :
      p.at? pos = some (.expr (.string value)) → HasType p pos .string
  | ident {pos b : Place} {x : String} {ty : Ty} :
      p.at? pos = some (.expr (.ident x)) → Visible p pos x b → Binds p b ty → HasType p pos ty
  | binary {pos : Place} {op : ArithOp} {left right : Expr} :
      p.at? pos = some (.expr (.binary op left right)) → HasType p (pos ++ [.left]) .number →
      HasType p (pos ++ [.right]) .number → HasType p pos .number
  | concat {pos : Place} {left right : Expr} :
      p.at? pos = some (.expr (.concat left right)) → HasType p (pos ++ [.left]) .string →
      HasType p (pos ++ [.right]) .string → HasType p pos .string

/-- The binding at the place gives its variable the type. -/
inductive Binds (p : Program) : Place → Ty → Prop where
  | counter {r : Place} {x : String} : LoopAt p r x → Binds p r .number
  | declared {q : Place} {x : String} :
      p.at? q = some (.stmt (.declare x none)) → Binds p q .number
  | declaredValue {q : Place} {x : String} {value : Expr} {ty : Ty} :
      p.at? q = some (.stmt (.declare x (some value))) → HasType p (q ++ [.value]) ty →
      Binds p q ty

end

/-- The name stands at the place, as an operand or as the target of an assignment. -/
def MentionedAt (p : Program) (pos : Place) (x : String) : Prop :=
  p.at? pos = some (.expr (.ident x)) ∨ ∃ value, p.at? pos = some (.stmt (.assign x value))

/-- Every operand is of the type of its operation, and every value of the type of the variable it
is assigned to. -/
structure OperandsFit (p : Program) : Prop where
  /-- Arithmetic is on numbers. -/
  binary : ∀ {pos op left right}, p.at? pos = some (.expr (.binary op left right)) →
    HasType p (pos ++ [.left]) .number ∧ HasType p (pos ++ [.right]) .number
  /-- Concatenation is of strings. -/
  concat : ∀ {pos left right}, p.at? pos = some (.expr (.concat left right)) →
    HasType p (pos ++ [.left]) .string ∧ HasType p (pos ++ [.right]) .string
  /-- An assignment keeps the type of its target. -/
  assign : ∀ {pos x value}, p.at? pos = some (.stmt (.assign x value)) →
    ∃ b ty, Visible p pos x b ∧ Binds p b ty ∧ HasType p (pos ++ [.value]) ty

/-! ## Rules by nodes -/

/-- The rule for what stands at a place. -/
def RuleAt (p : Program) (pos : Place) : Prop :=
  match p.at? pos with
  | some (.expr (.ident x)) => ∃ b, Visible p pos x b
  | some (.expr (.binary _ _ _)) =>
    HasType p (pos ++ [.left]) .number ∧ HasType p (pos ++ [.right]) .number
  | some (.expr (.concat _ _)) =>
    HasType p (pos ++ [.left]) .string ∧ HasType p (pos ++ [.right]) .string
  | some (.stmt (.declare x _)) => ∀ b, ¬Visible p pos x b
  | some (.stmt (.assign x _)) =>
    ∃ b ty, Visible p pos x b ∧ Binds p b ty ∧ HasType p (pos ++ [.value]) ty
  | _ => True

/-- The rules hold for everything at a place and inside of it. -/
def RulesIn (p : Program) (pos : Place) : Prop := ∀ q, pos <+: q → RuleAt p q

variable {p : Program} {pos e : Place} {table : SymbolTable}

theorem rulesIn_nil_iff :
    RulesIn p [] ↔ (∀ pos x, MentionedAt p pos x → ∃ b, Visible p pos x b) ∧
      (∀ pos x, DeclaredAt p pos x → ∀ b, ¬Visible p pos x b) ∧ OperandsFit p := by
  constructor
  · intro h
    refine ⟨?_, ?_, ?_, ?_, ?_⟩
    · rintro pos x (hn | ⟨value, hn⟩)
      · simpa [RuleAt, hn] using h pos List.nil_prefix
      · have := h pos List.nil_prefix
        simp only [RuleAt, hn] at this
        exact this.imp fun b h ↦ h.choose_spec.1
    · rintro pos x ⟨value, hn⟩
      simpa [RuleAt, hn] using h pos List.nil_prefix
    · intro pos op left right hn
      simpa [RuleAt, hn] using h pos List.nil_prefix
    · intro pos left right hn
      simpa [RuleAt, hn] using h pos List.nil_prefix
    · intro pos x value hn
      simpa [RuleAt, hn] using h pos List.nil_prefix
  · rintro ⟨hbound, hfresh, hfit⟩ pos -
    unfold RuleAt
    split
    · next hn => exact hbound pos _ (.inl hn)
    · next hn => exact hfit.binary hn
    · next hn => exact hfit.concat hn
    · next hn => exact hfresh pos _ ⟨_, hn⟩
    · next hn => exact hfit.assign hn
    · trivial

/-- The rules hold in a node when its own holds and those of its parts do. -/
theorem rulesIn_iff {node : Node} (hn : p.at? pos = some node) :
    RulesIn p pos ↔
      RuleAt p pos ∧ ∀ s part, node.child s = some part → RulesIn p (pos ++ [s]) := by
  constructor
  · intro h
    refine ⟨h pos (List.prefix_refl _), fun s part _ q hq ↦ h q ?_⟩
    exact (List.prefix_append _ _).trans hq
  · rintro ⟨hself, hparts⟩ q ⟨tail, rfl⟩
    cases tail with
    | nil => rwa [List.append_nil]
    | cons s tail =>
      cases hpart : node.child s with
      | none =>
        -- Below a part that is missing nothing stands, and there is no rule for nothing.
        have hnone : p.at? (pos ++ s :: tail) = none := by
          rw [p.at?_append hn, Node.at?_cons, hpart]
          rfl
        simp [RuleAt, hnone]
      | some part => exact hparts s part hpart _ ⟨tail, by simp⟩

/-! ## Tables -/

/-- The table holds exactly the bindings that are visible at the point, with their types. -/
structure Agrees (p : Program) (table : SymbolTable) (pos : Place) : Prop where
  /-- The table gives a name the type of a visible binding, and of every one. -/
  lookup : ∀ {x ty}, table.lookup x = some ty ↔ ∃ b, Visible p pos x b ∧ Binds p b ty
  /-- Every visible binding has a type. -/
  binds : ∀ {x b}, Visible p pos x b → ∃ ty, Binds p b ty

theorem Agrees.of_view {a b : Place} (h : Agrees p table a) (hab : SameView p a b) :
    Agrees p table b where
  lookup := by simp only [h.lookup, hab.visible_iff, implies_true]
  binds hv := h.binds (hab.visible_iff.mpr hv)

/-- Where one name has a new binding, the table with that binding's type agrees. -/
theorem Agrees.insert {a b c : Place} {x : String} {ty : Ty} (h : Agrees p table a)
    (hvisible : ∀ y d, Visible p b y d ↔ y = x ∧ d = c ∨ y ≠ x ∧ Visible p a y d)
    (hbinds : ∀ ty', Binds p c ty' ↔ ty' = ty) : Agrees p (table.insert x ty) b where
  lookup {y ty'} := by
    rw [SymbolTable.lookup_insert]
    by_cases hy : y = x
    · simp [hvisible, hbinds, hy, eq_comm]
    · simp [hvisible, hy, h.lookup]
  binds {y d} hv := by
    rcases (hvisible y d).mp hv with ⟨-, rfl⟩ | ⟨-, hv⟩
    · exact ⟨ty, (hbinds ty).mpr rfl⟩
    · exact h.binds hv

theorem Agrees.contains_iff (h : Agrees p table pos) {x : String} :
    table.contains x = true ↔ ∃ b, Visible p pos x b := by
  rw [SymbolTable.contains, Option.isSome_iff_exists]
  constructor
  · rintro ⟨ty, hty⟩
    obtain ⟨b, hv, -⟩ := h.lookup.mp hty
    exact ⟨b, hv⟩
  · rintro ⟨b, hv⟩
    obtain ⟨ty, hb⟩ := h.binds hv
    exact ⟨ty, h.lookup.mpr ⟨b, hv, hb⟩⟩

/-! ## Expressions -/

/-- Inside of an expression nothing changes. -/
theorem sameView_in_expr {a : Expr} (hn : p.at? pos = some (.expr a)) (s : Part) :
    SameView p pos (pos ++ [s]) := by
  refine sameView_part hn rfl fun u part hpart _ ↦ ?_
  cases a <;> cases u <;> cases hpart <;> exact Node.quiet_expr _

/-- What the type of an expression rests on, by the form of the expression. -/
theorem HasType.inv {a : Expr} {ty : Ty} (hn : p.at? pos = some (.expr a)) (h : HasType p pos ty) :
    match a with
    | .number _ => ty = .number
    | .string _ => ty = .string
    | .ident x => ∃ b, Visible p pos x b ∧ Binds p b ty
    | .binary _ _ _ =>
      HasType p (pos ++ [.left]) .number ∧ HasType p (pos ++ [.right]) .number ∧ ty = .number
    | .concat _ _ =>
      HasType p (pos ++ [.left]) .string ∧ HasType p (pos ++ [.right]) .string ∧
        ty = .string := by
  cases h with
  | number hn' =>
    cases hn.symm.trans hn'
    rfl
  | string hn' =>
    cases hn.symm.trans hn'
    rfl
  | ident hn' hv hb =>
    cases hn.symm.trans hn'
    exact ⟨_, hv, hb⟩
  | binary hn' hl hr =>
    cases hn.symm.trans hn'
    exact ⟨hl, hr, rfl⟩
  | concat hn' hl hr =>
    cases hn.symm.trans hn'
    exact ⟨hl, hr, rfl⟩

/-- Under a table that agrees with the point, the type that is found is the type. -/
theorem hasType_iff_infer {a : Expr} (hn : p.at? pos = some (.expr a)) (h : Agrees p table pos)
    {ty : Ty} : HasType p pos ty ↔ a.infer table = .ok ty := by
  induction a generalizing pos ty with
  | number digits =>
    constructor
    · intro ht
      rw [HasType.inv hn ht]
      rfl
    · rintro ⟨⟩
      exact .number hn
  | string value =>
    constructor
    · intro ht
      rw [HasType.inv hn ht]
      rfl
    · rintro ⟨⟩
      exact .string hn
  | ident x =>
    rw [Expr.infer_ident_eq_ok, h.lookup]
    constructor
    · exact HasType.inv hn
    · rintro ⟨b, hv, hb⟩
      exact .ident hn hv hb
  | binary op left right ihl ihr =>
    rw [Expr.infer_binary_eq_ok, ← ihl (p.at?_child hn .left) (h.of_view (sameView_in_expr hn _)),
      ← ihr (p.at?_child hn .right) (h.of_view (sameView_in_expr hn _))]
    constructor
    · exact HasType.inv hn
    · rintro ⟨hl, hr, rfl⟩
      exact .binary hn hl hr
  | concat left right ihl ihr =>
    rw [Expr.infer_concat_eq_ok, ← ihl (p.at?_child hn .left) (h.of_view (sameView_in_expr hn _)),
      ← ihr (p.at?_child hn .right) (h.of_view (sameView_in_expr hn _))]
    constructor
    · exact HasType.inv hn
    · rintro ⟨hl, hr, rfl⟩
      exact .concat hn hl hr

/-- The rules in an operation are its own and those of its operands. -/
theorem rulesIn_operands_iff {a left right : Expr} (hn : p.at? pos = some (.expr a))
    (hl : (Node.expr a).child .left = some (.expr left))
    (hr : (Node.expr a).child .right = some (.expr right)) :
    RulesIn p pos ↔
      RuleAt p pos ∧ RulesIn p (pos ++ [.left]) ∧ RulesIn p (pos ++ [.right]) := by
  rw [rulesIn_iff hn]
  refine and_congr_right fun _ ↦ ⟨fun h ↦ ⟨h .left _ hl, h .right _ hr⟩, ?_⟩
  rintro ⟨hleft, hright⟩ s part hpart
  cases s with
  | left => exact hleft
  | right => exact hright
  | stmt | value | test | start | stop | body | orElse => cases a <;> cases hpart

/-- The rules hold in an expression when it has a type. -/
theorem rulesIn_expr_iff {a : Expr} (hn : p.at? pos = some (.expr a)) (h : Agrees p table pos) :
    RulesIn p pos ↔ ∃ ty, a.infer table = .ok ty := by
  induction a generalizing pos with
  | number digits =>
    simp [rulesIn_iff hn, RuleAt, hn, Node.child, Expr.infer, pure, Except.pure]
  | string value =>
    simp [rulesIn_iff hn, RuleAt, hn, Node.child, Expr.infer, pure, Except.pure]
  | ident x =>
    simp only [rulesIn_iff hn, RuleAt, hn, Node.child, Expr.infer_ident_eq_ok, reduceCtorEq,
      false_imp_iff, implies_true, and_true]
    rw [← h.contains_iff, SymbolTable.contains, Option.isSome_iff_exists]
  | binary op left right ihl ihr =>
    have hl := h.of_view (sameView_in_expr hn .left)
    have hr := h.of_view (sameView_in_expr hn .right)
    have hnl : p.at? (pos ++ [.left]) = some (.expr left) := p.at?_child hn .left
    have hnr : p.at? (pos ++ [.right]) = some (.expr right) := p.at?_child hn .right
    have hrule : RuleAt p pos ↔
        left.infer table = .ok .number ∧ right.infer table = .ok .number := by
      simp only [RuleAt, hn, hasType_iff_infer hnl hl, hasType_iff_infer hnr hr]
    rw [rulesIn_operands_iff hn rfl rfl, hrule, ihl hnl hl, ihr hnr hr]
    constructor
    · rintro ⟨⟨hil, hir⟩, -, -⟩
      exact ⟨.number, Expr.infer_binary_eq_ok.mpr ⟨hil, hir, rfl⟩⟩
    · rintro ⟨ty, hty⟩
      obtain ⟨hil, hir, -⟩ := Expr.infer_binary_eq_ok.mp hty
      exact ⟨⟨hil, hir⟩, ⟨_, hil⟩, _, hir⟩
  | concat left right ihl ihr =>
    have hl := h.of_view (sameView_in_expr hn .left)
    have hr := h.of_view (sameView_in_expr hn .right)
    have hnl : p.at? (pos ++ [.left]) = some (.expr left) := p.at?_child hn .left
    have hnr : p.at? (pos ++ [.right]) = some (.expr right) := p.at?_child hn .right
    have hrule : RuleAt p pos ↔
        left.infer table = .ok .string ∧ right.infer table = .ok .string := by
      simp only [RuleAt, hn, hasType_iff_infer hnl hl, hasType_iff_infer hnr hr]
    rw [rulesIn_operands_iff hn rfl rfl, hrule, ihl hnl hl, ihr hnr hr]
    constructor
    · rintro ⟨⟨hil, hir⟩, -, -⟩
      exact ⟨.string, Expr.infer_concat_eq_ok.mpr ⟨hil, hir, rfl⟩⟩
    · rintro ⟨ty, hty⟩
      obtain ⟨hil, hir, -⟩ := Expr.infer_concat_eq_ok.mp hty
      exact ⟨⟨hil, hir⟩, ⟨_, hil⟩, _, hir⟩

end JPlusPlus
