import JPlusPlus.Proofs.Scope.Place

/-!
# The binding visible at a point

Which binding a name refers to, by places alone. A name refers to the innermost counting loop over
that name whose body encloses the point. Where there is none it refers to a declaration of the name
that stands before the point and is not shut up in the body of a counting loop that the point is
not in. Bodies of conditionals and of loops under a condition shut nothing up.

## Points with the same view

The rest of this module says how what is visible changes along the text. Most steps along the text
change nothing, and these are all of one of three forms: from a node to its first part, from a part
to the next one, and from the last part to the end of the node. They are stated for nodes of every
form at once, by the ranks of their parts. Two steps do change what is visible: past a declaration,
and into the body of a counting loop.
-/

namespace JPlusPlus

/-! ## Bindings -/

/-- A counting loop over `x` stands at `r`. -/
def LoopAt (p : Program) (r : Place) (x : String) : Prop :=
  ∃ start stop body, p.at? r = some (.stmt (.forLoop x start stop body))

/-- A declaration of `x` stands at `q`. -/
def DeclaredAt (p : Program) (q : Place) (x : String) : Prop :=
  ∃ value, p.at? q = some (.stmt (.declare x value))

/-- What is declared at `q` holds on at `pos`. -/
structure Holds (p : Program) (q pos : Place) : Prop where
  /-- The declaration is complete before the point. -/
  before : Before q pos
  /-- A body of a counting loop that encloses the declaration encloses the point too. -/
  stays : ∀ {r x}, LoopAt p r x → InBody r q → InBody r pos

/-- The binding at the given place is the one that `x` refers to at `pos`. -/
inductive Visible (p : Program) (pos : Place) (x : String) : Place → Prop where
  /-- The innermost counting loop over `x`. -/
  | counter {r : Place} : LoopAt p r x → InBody r pos →
      (∀ r', LoopAt p r' x → InBody r' pos → r' <+: r) → Visible p pos x r
  /-- Outside of every counting loop over `x`, a declaration that holds on. -/
  | declared {q : Place} : (∀ r, LoopAt p r x → ¬InBody r pos) → DeclaredAt p q x →
      Holds p q pos → Visible p pos x q

variable {p : Program} {pos e : Place} {x : String}

theorem LoopAt.eq {r : Place} {y : String} (h : LoopAt p r x) (h' : LoopAt p r y) : x = y := by
  obtain ⟨start, stop, body, h⟩ := h
  obtain ⟨start', stop', body', h'⟩ := h'
  rw [h] at h'
  cases h'
  rfl

theorem DeclaredAt.eq {q : Place} {y : String} (h : DeclaredAt p q x) (h' : DeclaredAt p q y) :
    x = y := by
  obtain ⟨value, h⟩ := h
  obtain ⟨value', h'⟩ := h'
  rw [h] at h'
  cases h'
  rfl

theorem DeclaredAt.not_loopAt {q : Place} {y : String} (h : DeclaredAt p q x) :
    ¬LoopAt p q y := by
  rintro ⟨start, stop, body, hl⟩
  obtain ⟨value, hd⟩ := h
  rw [hd] at hl
  cases hl

theorem InBody.length_lt {r : Place} (h : InBody r pos) : r.length < pos.length := by
  have := h.length_le
  rw [List.length_append, List.length_singleton] at this
  omega

theorem InBody.isPrefix {r : Place} (h : InBody r pos) : r <+: pos :=
  (List.prefix_append r _).trans h

/-- Of the counting loops over a name around a point, one is innermost. -/
theorem exists_counter {r : Place} (hr : LoopAt p r x) (hin : InBody r pos) :
    ∃ b, Visible p pos x b := by
  -- The way to the innermost loop is the longest one, and no way is longer than that to the point.
  induction hn : pos.length - r.length using Nat.strongRecOn generalizing r with
  | ind n ih =>
    by_cases hmax : ∀ r', LoopAt p r' x → InBody r' pos → r' <+: r
    · exact ⟨r, .counter hr hin hmax⟩
    · simp only [Classical.not_forall] at hmax
      obtain ⟨r', hr', hin', hnot⟩ := hmax
      have hlt : r.length < r'.length := by
        rcases List.prefix_or_prefix_of_prefix hin.isPrefix hin'.isPrefix with h | h
        · refine Nat.lt_of_le_of_ne h.length_le fun he ↦ hnot ?_
          have heq : r = r' := h.eq_of_length he
          exact heq ▸ List.prefix_refl r
        · exact absurd h hnot
      have hlt' := hin'.length_lt
      exact ih _ (by omega) hr' hin' rfl

/-- A binding stays visible at a point that the same loops over its name enclose and at which the
same declarations of its name hold. -/
theorem Visible.of_view {a b c : Place} (hl : ∀ r, LoopAt p r x → (InBody r a ↔ InBody r b))
    (hh : ∀ q, DeclaredAt p q x → Holds p q a → Holds p q b) (hv : Visible p a x c) :
    Visible p b x c := by
  cases hv with
  | counter hr hin hmax =>
    exact .counter hr ((hl _ hr).mp hin) fun r' hr' hin' ↦ hmax r' hr' ((hl _ hr').mpr hin')
  | declared hno hd hold =>
    exact .declared (fun r hr hin ↦ hno r hr ((hl _ hr).mpr hin)) hd (hh _ hd hold)

/-! ## Points with the same view -/

/-- The same loops enclose the two points and the same declarations hold at them. -/
structure SameView (p : Program) (a b : Place) : Prop where
  /-- The same bodies of counting loops enclose the points. -/
  loops : ∀ {r x}, LoopAt p r x → (InBody r a ↔ InBody r b)
  /-- The same declarations hold at the points. -/
  holds : ∀ {q x}, DeclaredAt p q x → (Holds p q a ↔ Holds p q b)

theorem SameView.symm {a b : Place} (h : SameView p a b) : SameView p b a :=
  ⟨fun hl ↦ (h.loops hl).symm, fun hd ↦ (h.holds hd).symm⟩

theorem SameView.trans {a b c : Place} (h : SameView p a b) (h' : SameView p b c) :
    SameView p a c :=
  ⟨fun hl ↦ (h.loops hl).trans (h'.loops hl), fun hd ↦ (h.holds hd).trans (h'.holds hd)⟩

theorem SameView.visible_iff {a b c : Place} (h : SameView p a b) :
    Visible p a x c ↔ Visible p b x c :=
  ⟨.of_view (fun _ ↦ h.loops) fun _ hd ↦ (h.holds hd).mp,
    .of_view (fun _ ↦ h.symm.loops) fun _ hd ↦ (h.holds hd).mpr⟩

/-- Where the same loops enclose two points, it is enough to compare what stands before them. -/
theorem SameView.of_before {a b : Place} (hl : ∀ {r x}, LoopAt p r x → (InBody r a ↔ InBody r b))
    (hb : ∀ {q x}, DeclaredAt p q x → (Before q a ↔ Before q b)) : SameView p a b where
  loops := hl
  holds hd :=
    ⟨fun h ↦ ⟨(hb hd).mp h.before, fun hr hin ↦ (hl hr).mp (h.stays hr hin)⟩,
      fun h ↦ ⟨(hb hd).mpr h.before, fun hr hin ↦ (hl hr).mpr (h.stays hr hin)⟩⟩

/-- The point `e` comes right after what stands at `pos`. -/
structure Exit (p : Program) (pos e : Place) : Prop where
  /-- The same bodies of counting loops enclose the node and the point. -/
  loops : ∀ {r x}, LoopAt p r x → (InBody r pos ↔ InBody r e)
  /-- Nothing is declared between the node and the point. -/
  before : ∀ {q x}, DeclaredAt p q x → (Before q e ↔ Before q pos ∨ pos <+: q)

/-- Nothing changes past a node that shuts up all that is declared in it. -/
theorem Exit.sameView (h : Exit p pos e)
    (hshut : ∀ q x, DeclaredAt p q x → pos <+: q →
      ∃ r y, LoopAt p r y ∧ InBody r q ∧ ¬InBody r pos) : SameView p pos e where
  loops := h.loops
  holds {q x} hd := by
    constructor
    · intro hh
      exact ⟨(h.before hd).mpr (.inl hh.before), fun hr hin ↦ (h.loops hr).mp (hh.stays hr hin)⟩
    · intro hh
      have hstays : ∀ {r x}, LoopAt p r x → InBody r q → InBody r pos :=
        fun hr hin ↦ (h.loops hr).mpr (hh.stays hr hin)
      rcases (h.before hd).mp hh.before with hb | hpre
      · exact ⟨hb, hstays⟩
      · obtain ⟨r, y, hr, hin, hout⟩ := hshut q x hd hpre
        exact absurd (hstays hr hin) hout

/-! ## Nodes in which nothing is declared -/

/-- Whether a node is a declaration. -/
def Node.isDeclaration : Node → Bool
  | stmt (.declare _ _) => true
  | _ => false

/-- Whether a part of a node is the body of a counting loop. -/
def Node.opensLoop : Node → Part → Bool
  | stmt (.forLoop _ _ _ _), .body => true
  | _, _ => false

/-- Nothing is declared in the node. -/
def Node.Quiet (node : Node) : Prop :=
  ∀ tail y value, node.at? tail ≠ some (.stmt (.declare y value))

theorem Node.Quiet.of_parts {node : Node} (hnode : node.isDeclaration = false)
    (hparts : ∀ s part, node.child s = some part → part.Quiet) : node.Quiet := by
  intro tail y value h
  cases tail with
  | nil =>
    cases h
    cases hnode
  | cons s tail =>
    obtain ⟨part, hpart, htail⟩ := Option.bind_eq_some_iff.mp h
    exact hparts s part hpart tail y value htail

theorem Node.quiet_expr (a : Expr) : (Node.expr a).Quiet := by
  intro tail y value h
  obtain ⟨b, hb⟩ := Node.exists_expr_of_at? h
  cases hb

theorem Node.quiet_condition (c : Condition) : (Node.condition c).Quiet :=
  .of_parts rfl (by simp [Part.forall_iff, child, quiet_expr])

theorem Node.Quiet.not_declaredAt {node : Node} (hq : node.Quiet) (hn : p.at? pos = some node)
    {q : Place} (hin : pos <+: q) : ¬DeclaredAt p q x := by
  rintro ⟨value, hd⟩
  obtain ⟨tail, rfl⟩ := hin
  rw [p.at?_append hn] at hd
  exact hq tail x value hd

/-- Past a node in which nothing is declared nothing changes. -/
theorem Exit.sameView_of_quiet {node : Node} (hq : node.Quiet) (hn : p.at? pos = some node)
    (h : Exit p pos e) : SameView p pos e :=
  h.sameView fun _ _ hd hin ↦ absurd hd (hq.not_declaredAt hn hin)

/-! ## Between the parts of a node -/

section Parts

variable {node : Node} {s t : Part}

theorem Program.exists_child (hn : p.at? pos = some node) {u : Part} {tail : Place} {found : Node}
    (h : p.at? (pos ++ u :: tail) = some found) :
    ∃ part, node.child u = some part ∧ part.at? tail = some found := by
  rw [p.at?_append hn, Node.at?_cons] at h
  exact Option.bind_eq_some_iff.mp h

/-- A step to a part leads into no body of a counting loop, unless it is into the loop's own. -/
theorem inBody_child_iff (hn : p.at? pos = some node) (hs : node.opensLoop s = false) {r : Place}
    (hr : LoopAt p r x) : InBody r (pos ++ [s]) ↔ InBody r pos := by
  rw [inBody_append_iff]
  refine ⟨fun h ↦ h.elim id ?_, .inl⟩
  rintro ⟨r', rfl, hin⟩
  obtain ⟨rfl, rfl⟩ := inBody_singleton_iff.mp hin
  rw [List.append_nil] at hr
  obtain ⟨start, stop, body, hl⟩ := hr
  obtain rfl := Option.some.inj (hn.symm.trans hl)
  cases hs

theorem before_child_iff {q : Place} : Before q (pos ++ [s]) ↔
    Before q pos ∨ ∃ u tail, q = pos ++ u :: tail ∧ u.rank < s.rank := by
  rw [before_append_iff]
  refine or_congr_right ⟨?_, ?_⟩
  · rintro ⟨q', rfl, h⟩
    obtain ⟨u, tail, rfl, hlt⟩ := before_singleton_iff.mp h
    exact ⟨u, tail, rfl, hlt⟩
  · rintro ⟨u, tail, rfl, hlt⟩
    exact ⟨_, rfl, before_singleton_iff.mpr ⟨u, tail, rfl, hlt⟩⟩

/-- What is declared inside of a node that is no declaration is declared in one of its parts. -/
theorem DeclaredAt.exists_child (hn : p.at? pos = some node)
    (hnode : node.isDeclaration = false) {q : Place} (hd : DeclaredAt p q x)
    (hq : pos <+: q) : ∃ u tail part, q = pos ++ u :: tail ∧ node.child u = some part := by
  obtain ⟨tail, rfl⟩ := hq
  obtain ⟨value, hd⟩ := hd
  cases tail with
  | nil =>
    rw [List.append_nil, hn] at hd
    cases hd
    cases hnode
  | cons u tail =>
    obtain ⟨part, hpart, -⟩ := p.exists_child hn hd
    exact ⟨u, tail, part, rfl, hpart⟩

/-- From a node to a part of it before which nothing is declared in it. -/
theorem sameView_part (hn : p.at? pos = some node) (hs : node.opensLoop s = false)
    (hquiet : ∀ u part, node.child u = some part → u.rank < s.rank → part.Quiet) :
    SameView p pos (pos ++ [s]) := by
  refine .of_before (fun hr ↦ (inBody_child_iff hn hs hr).symm) fun {q x} hd ↦ ?_
  rw [before_child_iff]
  refine ⟨.inl, fun h ↦ h.elim id ?_⟩
  rintro ⟨u, tail, rfl, hlt⟩
  obtain ⟨value, hd⟩ := hd
  obtain ⟨part, hpart, htail⟩ := p.exists_child hn hd
  exact absurd htail (hquiet u part hpart hlt tail x value)

/-- From a node to its first part. -/
theorem sameView_first (hn : p.at? pos = some node) (hs : node.opensLoop s = false)
    (hrank : s.rank = 0) : SameView p pos (pos ++ [s]) :=
  sameView_part hn hs fun u part _ hlt ↦ absurd hlt (by omega)

/-- From a part of a node to the next one. -/
theorem exit_next (hn : p.at? pos = some node) (hs : node.opensLoop s = false)
    (ht : node.opensLoop t = false) (hlt : s.rank < t.rank)
    (hnext : ∀ u part, node.child u = some part → u.rank < t.rank → u = s ∨ u.rank < s.rank) :
    Exit p (pos ++ [s]) (pos ++ [t]) where
  loops hr := (inBody_child_iff hn hs hr).trans (inBody_child_iff hn ht hr).symm
  before {q x} hd := by
    rw [before_child_iff, before_child_iff]
    constructor
    · rintro (h | ⟨u, tail, rfl, hu⟩)
      · exact .inl (.inl h)
      · obtain ⟨value, hd⟩ := hd
        obtain ⟨part, hpart, -⟩ := p.exists_child hn hd
        rcases hnext u part hpart hu with rfl | hu
        · exact .inr ⟨tail, by simp⟩
        · exact .inl (.inr ⟨u, tail, rfl, hu⟩)
    · rintro ((h | ⟨u, tail, rfl, hu⟩) | ⟨tail, rfl⟩)
      · exact .inl h
      · exact .inr ⟨u, tail, rfl, by omega⟩
      · exact .inr ⟨s, tail, by simp, hlt⟩

/-- From the last part of a node to the end of the node. -/
theorem exit_last (hn : p.at? pos = some node) (hs : node.opensLoop s = false)
    (hnode : node.isDeclaration = false)
    (hlast : ∀ u part, node.child u = some part → u = s ∨ u.rank < s.rank) (h : Exit p pos e) :
    Exit p (pos ++ [s]) e where
  loops hr := (inBody_child_iff hn hs hr).trans (h.loops hr)
  before {q x} hd := by
    rw [h.before hd, before_child_iff]
    constructor
    · rintro (hb | hq)
      · exact .inl (.inl hb)
      · obtain ⟨u, tail, part, rfl, hpart⟩ := hd.exists_child hn hnode hq
        rcases hlast u part hpart with rfl | hu
        · exact .inr ⟨tail, by simp⟩
        · exact .inl (.inr ⟨u, tail, rfl, hu⟩)
    · rintro ((hb | ⟨u, tail, rfl, -⟩) | ⟨tail, rfl⟩)
      · exact .inl hb
      · exact .inr (List.prefix_append _ _)
      · exact .inr ⟨[s] ++ tail, by simp⟩

/-- The place after all parts of a node is the end of the node. -/
theorem sameView_end (hn : p.at? pos = some node) (hs : node.opensLoop s = false)
    (hnode : node.isDeclaration = false)
    (hend : ∀ u part, node.child u = some part → u.rank < s.rank) (h : Exit p pos e) :
    SameView p (pos ++ [s]) e := by
  refine .of_before (fun hr ↦ (inBody_child_iff hn hs hr).trans (h.loops hr)) fun {q x} hd ↦ ?_
  rw [h.before hd, before_child_iff]
  constructor
  · rintro (hb | ⟨u, tail, rfl, -⟩)
    · exact .inl hb
    · exact .inr (List.prefix_append _ _)
  · rintro (hb | hq)
    · exact .inl hb
    · obtain ⟨u, tail, part, rfl, hpart⟩ := hd.exists_child hn hnode hq
      exact .inr ⟨u, tail, rfl, hend u part hpart⟩

end Parts

/-! ## Past a declaration -/

/-- Inside of a declaration there is only the declaration itself. -/
theorem DeclaredAt.eq_inside {q : Place} {y : String} (h : DeclaredAt p pos x)
    (hd : DeclaredAt p q y) (hq : pos <+: q) : q = pos := by
  obtain ⟨tail, rfl⟩ := hq
  obtain ⟨value, h⟩ := h
  obtain ⟨value', hd⟩ := hd
  cases tail with
  | nil => exact List.append_nil pos
  | cons u tail =>
    obtain ⟨part, hpart, htail⟩ := p.exists_child h hd
    obtain ⟨a, rfl⟩ : ∃ a, part = .expr a := by
      cases value <;> cases u <;> cases hpart; exact ⟨_, rfl⟩
    exact absurd htail (Node.quiet_expr a tail y value')

/-- Past a declaration of a name that was not visible, the name is the declaration's, and all else
as before. -/
theorem visible_past_declaration (hd : DeclaredAt p pos x) (hexit : Exit p pos e)
    (hfresh : ∀ b, ¬Visible p pos x b) {y : String} {b : Place} :
    Visible p e y b ↔ y = x ∧ b = pos ∨ y ≠ x ∧ Visible p pos y b := by
  have hloops : ∀ r, LoopAt p r x → ¬InBody r e := fun r hr hin ↦
    (exists_counter hr ((hexit.loops hr).mpr hin)).elim hfresh
  have hself : Holds p pos e :=
    ⟨(hexit.before hd).mpr (.inr (List.prefix_refl _)), fun hr hin ↦ (hexit.loops hr).mp hin⟩
  have hkeep {q z} (hq : DeclaredAt p q z) (hh : Holds p q pos) : Holds p q e :=
    ⟨(hexit.before hq).mpr (.inl hh.before), fun hr hin ↦ (hexit.loops hr).mp (hh.stays hr hin)⟩
  -- Nothing stands between the declaration and the end but the declaration.
  have hback {q z} (hq : DeclaredAt p q z) (hh : Holds p q e) : q = pos ∨ Holds p q pos := by
    rcases (hexit.before hq).mp hh.before with hb | hpre
    · exact .inr ⟨hb, fun hr hin ↦ (hexit.loops hr).mpr (hh.stays hr hin)⟩
    · exact .inl (hd.eq_inside hq hpre)
  by_cases hy : y = x
  · subst hy
    simp only [true_and, ne_eq, not_true, false_and, or_false]
    constructor
    · rintro (⟨hl, hin, -⟩ | ⟨-, hq, hh⟩)
      · exact absurd hin (hloops b hl)
      · refine (hback hq hh).resolve_right fun hh' ↦ hfresh b (.declared ?_ hq hh')
        exact fun r hr hin ↦ hloops r hr ((hexit.loops hr).mp hin)
    · rintro rfl
      exact .declared hloops hd hself
  · simp only [hy, false_and, false_or, ne_eq, not_false_eq_true, true_and]
    have hother {q} (hq : DeclaredAt p q y) : q ≠ pos := by
      rintro rfl
      exact hy (hq.eq hd)
    exact ⟨.of_view (fun r hr ↦ (hexit.loops hr).symm) fun q hq hh ↦
        (hback hq hh).resolve_left (hother hq),
      .of_view (fun r hr ↦ hexit.loops hr) fun q hq ↦ hkeep hq⟩

/-! ## Counting loops -/

theorem not_before_inside {q : Place} (h : pos <+: q) : ¬Before q pos := by
  obtain ⟨tail, rfl⟩ := h
  intro hb
  have := (before_append_left pos tail []).mp (by rwa [List.append_nil])
  cases tail <;> exact this

section Loop

variable {start stop : Expr} {body : List Stmt}

/-- Of the parts of a counting loop, only the body declares anything. -/
theorem DeclaredAt.inBody_loop (hn : p.at? pos = some (.stmt (.forLoop x start stop body)))
    {q : Place} {y : String} (hd : DeclaredAt p q y) (hq : pos <+: q) : InBody pos q := by
  obtain ⟨u, tail, part, rfl, hpart⟩ := hd.exists_child hn rfl hq
  have hplace : p.at? (pos ++ [u]) = some part := (p.at?_child hn u).trans hpart
  have hin : pos ++ [u] <+: pos ++ u :: tail := ⟨tail, by simp⟩
  have hexpr {a : Expr} (hu : part = .expr a) : InBody pos (pos ++ u :: tail) :=
    absurd hd ((Node.quiet_expr a).not_declaredAt (hu ▸ hplace) hin)
  cases u with
  | start => exact hexpr (Option.some.inj hpart).symm
  | stop => exact hexpr (Option.some.inj hpart).symm
  | body => exact hin
  | stmt | value | test | orElse | left | right => cases hpart

/-- Past a counting loop nothing changes. -/
theorem Exit.sameView_of_loop (hn : p.at? pos = some (.stmt (.forLoop x start stop body)))
    (h : Exit p pos e) : SameView p pos e := by
  have hself : LoopAt p pos x := ⟨start, stop, body, hn⟩
  have hout : ¬InBody pos pos := fun hin ↦ Nat.lt_irrefl _ hin.length_lt
  exact h.sameView fun q y hd hq ↦ ⟨pos, x, hself, hd.inBody_loop hn hq, hout⟩

theorem inBody_body_iff {r : Place} : InBody r (pos ++ [.body]) ↔ InBody r pos ∨ r = pos := by
  rw [inBody_append_iff]
  simp [inBody_singleton_iff]

theorem holds_in_body (hn : p.at? pos = some (.stmt (.forLoop x start stop body))) {q : Place}
    {y : String} (hd : DeclaredAt p q y) : Holds p q (pos ++ [.body]) ↔ Holds p q pos := by
  constructor
  · intro h
    have hb : Before q pos := by
      rcases before_child_iff.mp h.before with hb | ⟨u, tail, rfl, hu⟩
      · exact hb
      · -- Inside of the loop but before its body there are only the bounds.
        have hin := hd.inBody_loop hn (List.prefix_append _ _)
        rw [InBody, List.prefix_append_right_inj, List.cons_prefix_cons] at hin
        rw [← hin.1] at hu
        exact absurd hu (by decide)
    refine ⟨hb, fun {r z} hr hin ↦ ?_⟩
    rcases inBody_body_iff.mp (h.stays hr hin) with hp | rfl
    · exact hp
    · exact absurd hb (not_before_inside hin.isPrefix)
  · intro h
    exact ⟨h.before.append_right _, fun hr hin ↦ inBody_body_iff.mpr (.inl (h.stays hr hin))⟩

/-- Into the body of a counting loop, the loop's variable is the loop's, and all else as before. -/
theorem visible_in_body (hn : p.at? pos = some (.stmt (.forLoop x start stop body))) {y : String}
    {b : Place} :
    Visible p (pos ++ [.body]) y b ↔ y = x ∧ b = pos ∨ y ≠ x ∧ Visible p pos y b := by
  have hself : LoopAt p pos x := ⟨start, stop, body, hn⟩
  have hhere : InBody pos (pos ++ [.body]) := List.prefix_refl _
  have hne {r : Place} (hy : y ≠ x) (hr : LoopAt p r y) : r ≠ pos := by
    rintro rfl
    exact hy (hr.eq hself)
  have hin_iff {r : Place} (hy : y ≠ x) (hr : LoopAt p r y) :
      InBody r (pos ++ [.body]) ↔ InBody r pos :=
    inBody_body_iff.trans (or_iff_left (hne hy hr))
  by_cases hy : y = x
  · subst hy
    simp only [true_and, ne_eq, not_true, false_and, or_false]
    constructor
    · rintro (⟨hl, hin, hmax⟩ | ⟨hno, -, -⟩)
      · rcases inBody_body_iff.mp hin with hin | rfl
        · exact absurd (hmax pos hself hhere).length_le (by have := hin.length_lt; omega)
        · rfl
      · exact absurd hhere (hno pos hself)
    · rintro rfl
      refine .counter hself hhere fun r' _ hin' ↦ ?_
      rcases inBody_body_iff.mp hin' with hin' | rfl
      · exact hin'.isPrefix
      · exact List.prefix_refl _
  · simp only [hy, false_and, false_or, ne_eq, not_false_eq_true, true_and]
    exact ⟨.of_view (fun r ↦ hin_iff hy) fun q hd ↦ (holds_in_body hn hd).mp,
      .of_view (fun r hr ↦ (hin_iff hy hr).symm) fun q hd ↦ (holds_in_body hn hd).mpr⟩

end Loop

end JPlusPlus
