import JPlusPlus.Proofs.Scope.Rules

/-!
# The check resolves names by their places

The check goes through a program with one table, which it changes at declarations and puts back
after counting loops. What it accepts can be said without a table: by the binding that is visible at
each place, and by the types that bindings give to expressions.

What ties the two together is that, all along the way, the table agrees with the point reached. A
check that takes such a table from one point to another, and fails exactly when a rule is broken on
the way, is said to track the program between them. Checks of parts that follow each other in the
text track the program one after the other, so that each form of statement has only its own points
to be accounted for: the ways between its parts, which are those of every node.
-/

namespace JPlusPlus

variable {p : Program} {pos e : Place} {table : SymbolTable}

/-! ## Checks that track the program -/

/-- The check takes a table that agrees with the first point to one that agrees with the second,
and goes through when the rules hold that it stands for. -/
structure Tracks (p : Program) {α : Type} (check : Checker α) (a b : Place) (rules : Prop) :
    Prop where
  /-- When the check goes through, the rules hold and the table is that of the second point. -/
  sound : ∀ {table v table'}, Agrees p table a → check table = .ok v table' →
    rules ∧ Agrees p table' b
  /-- When the rules hold, the check goes through. -/
  complete : ∀ {table}, Agrees p table a → rules → ∃ v table', check table = .ok v table'

namespace Tracks

variable {α β : Type} {check : Checker α} {a b c : Place} {rules rules' : Prop}

theorem pure (v : α) : Tracks p (Pure.pure v : Checker α) a a True where
  sound h hc := by
    cases hc
    exact ⟨trivial, h⟩
  complete _ _ := ⟨_, _, rfl⟩

/-- One check after the other. -/
theorem seq {check' : Checker β} (h : Tracks p check a b rules) (h' : Tracks p check' b c rules') :
    Tracks p (check >>= fun _ ↦ check') a c (rules ∧ rules') where
  sound ha hc := by
    obtain ⟨v, table₁, h₁, h₂⟩ := Checker.bind_eq_ok.mp hc
    obtain ⟨hrules, hb⟩ := h.sound ha h₁
    obtain ⟨hrules', hc⟩ := h'.sound hb h₂
    exact ⟨⟨hrules, hrules'⟩, hc⟩
  complete ha hr := by
    obtain ⟨v, table₁, h₁⟩ := h.complete ha hr.1
    obtain ⟨v', table₂, h₂⟩ := h'.complete (h.sound ha h₁).2 hr.2
    exact ⟨v', table₂, Checker.bind_eq_ok.mpr ⟨v, table₁, h₁, h₂⟩⟩

theorem from_view (hab : SameView p a b) (h : Tracks p check b c rules) :
    Tracks p check a c rules :=
  ⟨fun ha ↦ h.sound (ha.of_view hab), fun ha ↦ h.complete (ha.of_view hab)⟩

theorem to_view (h : Tracks p check a b rules) (hbc : SameView p b c) :
    Tracks p check a c rules :=
  ⟨fun ha hc ↦ (h.sound ha hc).imp_right (·.of_view hbc), h.complete⟩

theorem congr (h : Tracks p check a b rules) (hr : rules' ↔ rules) : Tracks p check a b rules' :=
  ⟨fun ha hc ↦ (h.sound ha hc).imp_left hr.mpr, fun ha hr' ↦ h.complete ha (hr.mp hr')⟩

end Tracks

/-- A check of an expression, from any point with the view of the expression. -/
theorem tracks_infer {a : Expr} {here : Place} (hn : p.at? pos = some (.expr a))
    (hview : SameView p here pos) : Tracks p (Checker.infer a) here here (RulesIn p pos) where
  sound h hc := by
    obtain ⟨hty, rfl⟩ := Checker.infer_eq_ok.mp hc
    exact ⟨(rulesIn_expr_iff hn (h.of_view hview)).mpr ⟨_, hty⟩, h⟩
  complete h hr := by
    obtain ⟨ty, hty⟩ := (rulesIn_expr_iff hn (h.of_view hview)).mp hr
    exact ⟨ty, _, Checker.infer_eq_ok.mpr ⟨hty, rfl⟩⟩

theorem tracks_condition {c : Condition} {here : Place} (hn : p.at? pos = some (.condition c))
    (hview : SameView p here pos) :
    Tracks p (Checker.condition c) here here (RulesIn p pos) := by
  have hl : p.at? (pos ++ [.left]) = some (.expr c.left) := p.at?_child hn .left
  have hr : p.at? (pos ++ [.right]) = some (.expr c.right) := p.at?_child hn .right
  have hpart (s : Part) : SameView p here (pos ++ [s]) := by
    refine hview.trans (sameView_part hn rfl fun u part hpart _ ↦ ?_)
    cases u <;> cases hpart <;> exact Node.quiet_expr _
  refine .congr ((tracks_infer hl (hpart _)).seq ((tracks_infer hr (hpart _)).seq (.pure _))) ?_
  simp [rulesIn_iff hn, Part.forall_iff, Node.child, RuleAt, hn]

/-! ## Declarations and assignments -/

/-- The type that a declaration gives its variable is that of its first value. -/
theorem binds_iff_firstType {x : String} {value : Option Expr} {ty : Ty}
    (hn : p.at? pos = some (.stmt (.declare x value))) (h : Agrees p table pos) :
    Binds p pos ty ↔ FirstType table ty value := by
  have hview : SameView p pos (pos ++ [.value]) := sameView_first hn rfl rfl
  cases value with
  | none =>
    constructor
    · rintro (hl | hd | ⟨hd, -⟩)
      · exact absurd hl (DeclaredAt.not_loopAt ⟨_, hn⟩)
      · rfl
      · rw [hn] at hd
        cases hd
    · rintro rfl
      exact .declared hn
  | some a =>
    have hvalue : p.at? (pos ++ [.value]) = some (.expr a) := p.at?_child hn .value
    rw [FirstType, ← hasType_iff_infer hvalue (h.of_view hview)]
    constructor
    · rintro (hl | hd | ⟨-, ht⟩)
      · exact absurd hl (DeclaredAt.not_loopAt ⟨_, hn⟩)
      · rw [hn] at hd
        cases hd
      · exact ht
    · exact .declaredValue hn

theorem tracks_declare {x : String} {value : Option Expr}
    (hn : p.at? pos = some (.stmt (.declare x value))) (hexit : Exit p pos e) :
    Tracks p (Checker.declare x value) pos e (RulesIn p pos) := by
  have hview : SameView p pos (pos ++ [.value]) := sameView_first hn rfl rfl
  have hrules {table : SymbolTable} (h : Agrees p table pos) :
      RulesIn p pos ↔ (∃ ty, FirstType table ty value) ∧ table.contains x = false := by
    have hfresh : table.contains x = false ↔ ∀ b, ¬Visible p pos x b := by
      rw [← Bool.not_eq_true, h.contains_iff, not_exists]
    rw [hfresh]
    cases value with
    | none => simp [rulesIn_iff hn, RuleAt, hn, Node.child, FirstType]
    | some a =>
      have hvalue : p.at? (pos ++ [.value]) = some (.expr a) := p.at?_child hn .value
      simp [rulesIn_iff hn, Part.forall_iff, RuleAt, hn, Node.child, FirstType,
        rulesIn_expr_iff hvalue (h.of_view hview), and_comm]
  constructor
  · intro table _ table' h hc
    obtain ⟨ty, hty, hfresh, rfl⟩ := Checker.declare_eq_ok.mp hc
    have hr := (hrules h).mpr ⟨⟨ty, hty⟩, hfresh⟩
    refine ⟨hr, ?_⟩
    have hnot : ∀ b, ¬Visible p pos x b := by
      have := hr pos (List.prefix_refl _)
      rwa [RuleAt, hn] at this
    refine h.insert (fun _ _ ↦ visible_past_declaration ⟨value, hn⟩ hexit hnot) fun ty' ↦ ?_
    rw [binds_iff_firstType hn h]
    exact ⟨fun h' ↦ h'.eq hty, fun he ↦ he ▸ hty⟩
  · intro table h hr
    obtain ⟨⟨ty, hty⟩, hfresh⟩ := (hrules h).mp hr
    exact ⟨(), _, Checker.declare_eq_ok.mpr ⟨ty, hty, hfresh, rfl⟩⟩

theorem tracks_assign {x : String} {a : Expr} (hn : p.at? pos = some (.stmt (.assign x a))) :
    Tracks p (Checker.assign x a) pos pos (RulesIn p pos) := by
  have hvalue : p.at? (pos ++ [.value]) = some (.expr a) := p.at?_child hn .value
  have hview : SameView p pos (pos ++ [.value]) := sameView_first hn rfl rfl
  have hrules {table : SymbolTable} (h : Agrees p table pos) :
      RulesIn p pos ↔ ∃ ty, table.lookup x = some ty ∧ a.infer table = .ok ty := by
    have hinfer (ty : Ty) : HasType p (pos ++ [.value]) ty ↔ a.infer table = .ok ty :=
      hasType_iff_infer hvalue (h.of_view hview)
    rw [rulesIn_iff hn]
    constructor
    · rintro ⟨hrule, -⟩
      rw [RuleAt, hn] at hrule
      obtain ⟨b, ty, hv, hb, ht⟩ := hrule
      exact ⟨ty, h.lookup.mpr ⟨b, hv, hb⟩, (hinfer ty).mp ht⟩
    · rintro ⟨ty, hx, ha⟩
      obtain ⟨b, hv, hb⟩ := h.lookup.mp hx
      refine ⟨?_, ?_⟩
      · rw [RuleAt, hn]
        exact ⟨b, ty, hv, hb, (hinfer ty).mpr ha⟩
      · simp [Part.forall_iff, Node.child, rulesIn_expr_iff hvalue (h.of_view hview), ha]
  constructor
  · intro table _ table' h hc
    obtain ⟨hty, rfl⟩ := Checker.assign_eq_ok.mp hc
    exact ⟨(hrules h).mpr hty, h⟩
  · intro table h hr
    exact ⟨(), table, Checker.assign_eq_ok.mpr ⟨(hrules h).mp hr, rfl⟩⟩

theorem tracks_print {a : Expr} (hn : p.at? pos = some (.stmt (.print a))) :
    Tracks p (Stmt.print a).check pos pos (RulesIn p pos) := by
  have hvalue : p.at? (pos ++ [.value]) = some (.expr a) := p.at?_child hn .value
  have hview : SameView p pos (pos ++ [.value]) := sameView_first hn rfl rfl
  rw [Stmt.check]
  refine .congr ((tracks_infer hvalue hview).seq (.pure _)) ?_
  simp [rulesIn_iff hn, Part.forall_iff, RuleAt, hn, Node.child]

/-! ## Bodies -/

section Bodies

variable {body : List Stmt} {orElse : ElseChain} {c : Condition}

/-- The parts of a body are its statements. -/
theorem Node.child_block_eq_some {s : Part} {part : Node}
    (h : (Node.block body).child s = some part) : ∃ k < body.length, s = .stmt k := by
  cases s with
  | stmt k =>
    obtain ⟨stmt, hk, -⟩ := Option.map_eq_some_iff.mp h
    exact ⟨k, (List.getElem?_eq_some_iff.mp hk).1, rfl⟩
  | value | test | start | stop | body | orElse | left | right => cases h

/-- The rules hold in the statements of a body from number `n` on. -/
def RulesFrom (p : Program) (pos : Place) (body : List Stmt) (n : Nat) : Prop :=
  ∀ k, n ≤ k → k < body.length → RulesIn p (pos ++ [.stmt k])

theorem rulesFrom_iff {n : Nat} (hn : n < body.length) :
    RulesFrom p pos body n ↔ RulesIn p (pos ++ [.stmt n]) ∧ RulesFrom p pos body (n + 1) := by
  constructor
  · intro h
    exact ⟨h n (Nat.le_refl n) hn, fun k hk ↦ h k (Nat.le_of_succ_le hk)⟩
  · rintro ⟨hself, hmore⟩ k hk hlt
    rcases Nat.eq_or_lt_of_le hk with rfl | hk
    · exact hself
    · exact hmore k hk hlt

theorem rulesIn_block_iff (hn : p.at? pos = some (.block body)) :
    RulesIn p pos ↔ RulesFrom p pos body 0 := by
  rw [rulesIn_iff hn]
  constructor
  · rintro ⟨-, hparts⟩ k - hk
    exact hparts (.stmt k) (.stmt body[k]) (by simp [Node.child, hk])
  · intro h
    refine ⟨by simp [RuleAt, hn], fun s part hpart ↦ ?_⟩
    obtain ⟨k, hk, rfl⟩ := Node.child_block_eq_some hpart
    exact h k (Nat.zero_le k) hk

/-- A check of a body, given one of its statements from the first to the last. -/
theorem Tracks.block (hn : p.at? pos = some (.block body)) {check : Checker Unit}
    (h : Tracks p check (pos ++ [.stmt 0]) (pos ++ [.stmt body.length])
      (RulesFrom p pos body 0)) :
    Tracks p check pos (pos ++ [.stmt body.length]) (RulesIn p pos) := by
  have hfirst : SameView p pos (pos ++ [.stmt 0]) := sameView_first hn rfl rfl
  exact .congr (.from_view hfirst h) (rulesIn_block_iff hn)

/-- Past the last statement of a body that belongs to no counting loop, nothing changes. -/
theorem Tracks.block_exit (hn : p.at? pos = some (.block body)) {check : Checker Unit}
    (hexit : Exit p pos e)
    (h : Tracks p check pos (pos ++ [.stmt body.length]) (RulesIn p pos)) :
    Tracks p check pos e (RulesIn p pos) := by
  refine h.to_view (sameView_end hn rfl rfl (fun u part hpart ↦ ?_) hexit)
  obtain ⟨k, hk, rfl⟩ := Node.child_block_eq_some hpart
  exact hk

/-- From a statement of a body to the next one. -/
theorem exit_stmt (hn : p.at? pos = some (.block body)) (k : Nat) :
    Exit p (pos ++ [.stmt k]) (pos ++ [.stmt (k + 1)]) := by
  refine exit_next hn rfl rfl (Nat.lt_succ_self k) fun u part hpart hlt ↦ ?_
  obtain ⟨j, -, rfl⟩ := Node.child_block_eq_some hpart
  rcases Nat.eq_or_lt_of_le (Nat.le_of_lt_succ hlt) with h | h
  · exact .inl (congrArg Part.stmt h)
  · exact .inr h

/-- A check of a loop under a condition, given one of its body. -/
theorem Tracks.whileLoop (hn : p.at? pos = some (.stmt (.whileLoop c body)))
    (hexit : Exit p pos e) {check : Checker Unit}
    (h : Tracks p check (pos ++ [.body]) (pos ++ [.body] ++ [.stmt body.length])
      (RulesIn p (pos ++ [.body]))) :
    Tracks p (Checker.condition c >>= fun _ ↦ check) pos e (RulesIn p pos) := by
  have htest : SameView p pos (pos ++ [.test]) := sameView_first hn rfl rfl
  have hbody : SameView p pos (pos ++ [.body]) := by
    refine sameView_part hn rfl ?_
    simp [Part.forall_iff, Node.child, Part.rank, Node.quiet_condition]
  have hlast : Exit p (pos ++ [.body]) e := by
    refine exit_last hn rfl rfl ?_ hexit
    simp [Part.forall_iff, Node.child, Part.rank]
  refine .congr ((tracks_condition (p.at?_child hn .test) htest).seq
    (.from_view hbody (.block_exit (p.at?_child hn .body) hlast h))) ?_
  simp [rulesIn_iff hn, Part.forall_iff, Node.child, RuleAt, hn]

/-- A check of a condition, the body under it and what is done when it fails, given checks of the
last two. Conditionals and their further branches are both of this form. -/
theorem Tracks.branch {node : Node} (hn : p.at? pos = some node)
    (hnode : node = .stmt (.branch c body orElse) ∨ node = .chain (.elseIf c body orElse))
    (hexit : Exit p pos e) {check check' : Checker Unit}
    (h : Tracks p check (pos ++ [.body]) (pos ++ [.body] ++ [.stmt body.length])
      (RulesIn p (pos ++ [.body])))
    (h' : Exit p (pos ++ [.orElse]) e →
      Tracks p check' (pos ++ [.orElse]) e (RulesIn p (pos ++ [.orElse]))) :
    Tracks p (Checker.condition c >>= fun _ ↦ check >>= fun _ ↦ check') pos e
      (RulesIn p pos) := by
  have hparts {s : Part} {part : Node} : node.child s = some part ↔
      s = .test ∧ part = .condition c ∨ s = .body ∧ part = .block body ∨
        s = .orElse ∧ part = .chain orElse := by
    rcases hnode with rfl | rfl <;> cases s <;> simp [Node.child, eq_comm]
  have hopens (s : Part) : node.opensLoop s = false := by
    rcases hnode with rfl | rfl <;> rfl
  have hdeclare : node.isDeclaration = false := by
    rcases hnode with rfl | rfl <;> rfl
  have hat {s : Part} {part : Node} (hs : node.child s = some part) :
      p.at? (pos ++ [s]) = some part := (p.at?_child hn s).trans hs
  have htest : SameView p pos (pos ++ [.test]) := sameView_first hn (hopens _) rfl
  -- The condition declares nothing, so the body is entered with the view of the whole, whereas
  -- what the body declares is in view after it.
  have hbody : SameView p pos (pos ++ [.body]) := by
    refine sameView_part hn (hopens _) ?_
    simp [hparts, Part.forall_iff, Part.rank, Node.quiet_condition]
  have hnext : Exit p (pos ++ [.body]) (pos ++ [.orElse]) := by
    refine exit_next hn (hopens _) (hopens _) (by decide) ?_
    simp [hparts, Part.forall_iff, Part.rank]
  have hlast : Exit p (pos ++ [.orElse]) e := by
    refine exit_last hn (hopens _) hdeclare ?_ hexit
    simp [hparts, Part.forall_iff, Part.rank]
  have hrule : RuleAt p pos := by
    rcases hnode with rfl | rfl <;> simp [RuleAt, hn]
  refine .congr ((tracks_condition (hat (hparts.mpr (.inl ⟨rfl, rfl⟩))) htest).seq
    ((Tracks.from_view hbody (.block_exit (hat (hparts.mpr (.inr (.inl ⟨rfl, rfl⟩)))) hnext h)).seq
      (h' hlast))) ?_
  simp [rulesIn_iff hn, Part.forall_iff, hparts, hrule]

/-- A check of a last branch, given one of its body. -/
theorem Tracks.otherwise (hn : p.at? pos = some (.chain (.otherwise body)))
    (hexit : Exit p pos e) {check : Checker Unit}
    (h : Tracks p check (pos ++ [.body]) (pos ++ [.body] ++ [.stmt body.length])
      (RulesIn p (pos ++ [.body]))) :
    Tracks p check pos e (RulesIn p pos) := by
  have hbody : SameView p pos (pos ++ [.body]) := by
    refine sameView_part hn rfl ?_
    simp [Part.forall_iff, Node.child, Part.rank]
  have hlast : Exit p (pos ++ [.body]) e := by
    refine exit_last hn rfl rfl ?_ hexit
    simp [Part.forall_iff, Node.child]
  refine .congr (.from_view hbody (.block_exit (p.at?_child hn .body) hlast h)) ?_
  simp [rulesIn_iff hn, Part.forall_iff, Node.child, RuleAt, hn]

/-- A check of a counting loop, given one of its body. The table of the body is given up, and with
it the loop's variable and all that the body declares: none of it is visible past the loop. -/
theorem Tracks.forLoop {x : String} {start stop : Expr}
    (hn : p.at? pos = some (.stmt (.forLoop x start stop body))) (hexit : Exit p pos e)
    {check : Checker Unit}
    (h : Tracks p check (pos ++ [.body]) (pos ++ [.body] ++ [.stmt body.length])
      (RulesIn p (pos ++ [.body]))) :
    Tracks p (Checker.isolated do
      let _ ← Checker.infer start
      let _ ← Checker.infer stop
      Checker.record x .number
      check) pos e (RulesIn p pos) := by
  have hstart : SameView p pos (pos ++ [.start]) := sameView_first hn rfl rfl
  have hstop : SameView p pos (pos ++ [.stop]) := by
    refine sameView_part hn rfl ?_
    simp [Part.forall_iff, Node.child, Part.rank, Node.quiet_expr]
  have hbinds (ty : Ty) : Binds p pos ty ↔ ty = .number := by
    constructor
    · rintro (hl | hd | ⟨hd, -⟩)
      · rfl
      · rfl
      · rw [hn] at hd
        cases hd
    · rintro rfl
      exact .counter ⟨start, stop, body, hn⟩
  have hrecord : Tracks p (Checker.record x .number) pos (pos ++ [.body]) True := by
    refine ⟨fun ha hc ↦ ⟨trivial, ?_⟩, fun _ _ ↦ ⟨(), _, rfl⟩⟩
    cases hc
    exact ha.insert (fun _ _ ↦ visible_in_body hn) hbinds
  have hinner := (tracks_infer (p.at?_child hn .start) hstart).seq
    ((tracks_infer (p.at?_child hn .stop) hstop).seq (hrecord.seq h))
  have hrules : RulesIn p pos ↔ RulesIn p (pos ++ [.start]) ∧ RulesIn p (pos ++ [.stop]) ∧
      True ∧ RulesIn p (pos ++ [.body]) := by
    simp [rulesIn_iff hn, Part.forall_iff, Node.child, RuleAt, hn]
  constructor
  · intro table _ table' ha hc
    obtain ⟨⟨inner, hc⟩, rfl⟩ := Checker.isolated_eq_ok.mp hc
    exact ⟨hrules.mpr (hinner.sound ha hc).1, ha.of_view (hexit.sameView_of_loop hn)⟩
  · intro table ha hr
    obtain ⟨_, inner, hc⟩ := hinner.complete ha (hrules.mp hr)
    exact ⟨(), table, Checker.isolated_eq_ok.mpr ⟨⟨inner, hc⟩, rfl⟩⟩

end Bodies

/-! ## Statements -/

mutual

/-- The check of a statement goes from the statement to the point right after it. -/
theorem Stmt.tracks : ∀ (s : Stmt) {pos e : Place}, p.at? pos = some (.stmt s) → Exit p pos e →
    Tracks p s.check pos e (RulesIn p pos)
  -- The end is left open: that of a last branch is the end of the conditional, not a place in it.
  | .declare x value, _, _, hn, hexit => tracks_declare hn hexit
  | .assign x a, _, _, hn, hexit => by
    have hquiet : (Node.stmt (.assign x a)).Quiet :=
      .of_parts rfl (by simp [Part.forall_iff, Node.child, Node.quiet_expr])
    exact (tracks_assign hn).to_view (hexit.sameView_of_quiet hquiet hn)
  | .print a, _, _, hn, hexit => by
    have hquiet : (Node.stmt (.print a)).Quiet :=
      .of_parts rfl (by simp [Part.forall_iff, Node.child, Node.quiet_expr])
    exact (tracks_print hn).to_view (hexit.sameView_of_quiet hquiet hn)
  | .branch c body orElse, _, _, hn, hexit =>
    Tracks.branch hn (.inl rfl) hexit
      (.block (p.at?_child hn .body) (Stmt.tracksAll body [] (p.at?_child hn .body) rfl))
      (ElseChain.tracks orElse (p.at?_child hn .orElse))
  | .whileLoop c body, _, _, hn, hexit =>
    Tracks.whileLoop hn hexit
      (.block (p.at?_child hn .body) (Stmt.tracksAll body [] (p.at?_child hn .body) rfl))
  | .forLoop x start stop body, _, _, hn, hexit =>
    Tracks.forLoop hn hexit
      (.block (p.at?_child hn .body) (Stmt.tracksAll body [] (p.at?_child hn .body) rfl))
  | .break, _, _, hn, hexit => by
    have hquiet : (Node.stmt .break).Quiet := .of_parts rfl (by simp [Node.child])
    refine .congr (Tracks.to_view (.pure ()) (hexit.sameView_of_quiet hquiet hn)) ?_
    simp [rulesIn_iff hn, Node.child, RuleAt, hn]
  | .continue, _, _, hn, hexit => by
    have hquiet : (Node.stmt .continue).Quiet := .of_parts rfl (by simp [Node.child])
    refine .congr (Tracks.to_view (.pure ()) (hexit.sameView_of_quiet hquiet hn)) ?_
    simp [rulesIn_iff hn, Node.child, RuleAt, hn]

theorem ElseChain.tracks : ∀ (chain : ElseChain) {pos e : Place},
    p.at? pos = some (.chain chain) → Exit p pos e →
      Tracks p chain.check pos e (RulesIn p pos)
  | .nothing, _, _, hn, hexit => by
    have hquiet : (Node.chain .nothing).Quiet := .of_parts rfl (by simp [Node.child])
    refine .congr (Tracks.to_view (.pure ()) (hexit.sameView_of_quiet hquiet hn)) ?_
    simp [rulesIn_iff hn, Node.child, RuleAt, hn]
  | .otherwise body, _, _, hn, hexit =>
    Tracks.otherwise hn hexit
      (.block (p.at?_child hn .body) (Stmt.tracksAll body [] (p.at?_child hn .body) rfl))
  | .elseIf c body orElse, _, _, hn, hexit =>
    Tracks.branch hn (.inr rfl) hexit
      (.block (p.at?_child hn .body) (Stmt.tracksAll body [] (p.at?_child hn .body) rfl))
      (ElseChain.tracks orElse (p.at?_child hn .orElse))

/-- The check of the statements of a body that are left after `done`. -/
theorem Stmt.tracksAll : ∀ (rest : List Stmt) {body : List Stmt} (done : List Stmt) {pos : Place},
    p.at? pos = some (.block body) → body = done ++ rest →
      Tracks p (Stmt.checkAll rest) (pos ++ [.stmt done.length]) (pos ++ [.stmt body.length])
        (RulesFrom p pos body done.length)
  | [], body, done, pos, hn, hbody => by
    rw [List.append_nil] at hbody
    rw [hbody]
    refine .congr (.pure ()) ?_
    exact ⟨fun _ ↦ trivial, fun _ k hk hlt ↦ absurd hk (Nat.not_le_of_lt hlt)⟩
  | s :: rest, body, done, pos, hn, hbody => by
    -- The statements done so far only tell the number of the next one.
    have hlt : done.length < body.length := by simp [hbody]
    have hs : p.at? (pos ++ [.stmt done.length]) = some (.stmt s) := by
      rw [p.at?_child hn, Node.child, hbody]
      simp
    have hrest := Stmt.tracksAll rest (done ++ [s]) hn (by simp [hbody])
    rw [List.length_append, List.length_singleton] at hrest
    exact .congr ((Stmt.tracks s hs (exit_stmt hn _)).seq hrest) (rulesFrom_iff hlt)

end

/-! ## Programs -/

theorem agrees_empty : Agrees p SymbolTable.empty [] := by
  have hnone {x : String} {b : Place} : ¬Visible p [] x b := by
    rintro (⟨-, hin, -⟩ | ⟨-, -, hh⟩)
    · exact Nat.not_lt_zero _ hin.length_lt
    · have := hh.before
      cases b <;> exact this
  exact ⟨by simp [hnone], fun hv ↦ absurd hv hnone⟩

/-- The check accepts a program when the rules hold in all of it. -/
theorem Program.check_eq_ok_iff_rulesIn : p.check = .ok () ↔ RulesIn p [] := by
  have hroot : p.at? [] = some (.block p.body) := rfl
  have htracks := Tracks.block hroot (Stmt.tracksAll p.body [] hroot rfl)
  constructor
  · intro h
    rw [Program.check] at h
    split at h
    · next hc => exact (htracks.sound agrees_empty hc).1
    · cases h
  · intro h
    obtain ⟨_, table, hc⟩ := htracks.complete agrees_empty h
    rw [Program.check, hc]

/-- **The check accepts a program exactly when its names resolve by their places**: every name that
is mentioned has a visible binding, no name is declared where it has one, and every operand and
every assigned value is of the right type. -/
theorem Program.check_eq_ok_iff (p : Program) :
    p.check = .ok () ↔
      (∀ pos x, MentionedAt p pos x → ∃ b, Visible p pos x b) ∧
      (∀ pos x, DeclaredAt p pos x → ∀ b, ¬Visible p pos x b) ∧ OperandsFit p := by
  rw [check_eq_ok_iff_rulesIn, rulesIn_nil_iff]

end JPlusPlus
