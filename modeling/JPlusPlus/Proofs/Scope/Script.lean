import JPlusPlus.Program.Lower
import JPlusPlus.Proofs.Scope.Check

/-!
# What names refer to in a script

A script has the same places as the program it was made from, so a name can be followed from the one
to the other. What differs is the rule: in a script every block is a scope of its own for what it
declares, wherever in the block that stands, and a counting loop is a scope for its variable, with
the bounds of the loop in it.

The two rules give the same binding at every place but one. A bound of a counting loop that mentions
the loop's own name refers, in the program, to whatever the name refers to before the loop; in the
script it refers to the loop's variable, which has no value yet where the lower bound is read.

A declaration in the body of a conditional holds on after that body in a program, and in a script it
does not. What is said here is said of names whose binding stands in a block that encloses them.
-/

namespace JPlusPlus

namespace Script

/-! ## Places in a script -/

/-- The parts that a script is made of. -/
inductive Node where
  /-- The statements of a block. -/
  | block (body : List Stmt)
  /-- A statement. -/
  | stmt (stmt : Stmt)
  /-- What follows the block of a conditional. -/
  | chain (chain : Else)
  /-- A condition. -/
  | condition (condition : Condition)
  /-- An expression. -/
  | expr (e : Expr)

/-- The part of a node in the given role, if the node has one. -/
def Node.child : Node → Part → Option Node
  | block body, .stmt k => body[k]?.map stmt
  | stmt (.letBinding _ e), .value => some (expr e)
  | stmt (.assign _ e), .value => some (expr e)
  | stmt (.log e), .value => some (expr e)
  | stmt (.ifElse c _ _), .test => some (condition c)
  | stmt (.ifElse _ body _), .body => some (block body)
  | stmt (.ifElse _ _ orElse), .orElse => some (chain orElse)
  | stmt (.whileLoop c _), .test => some (condition c)
  | stmt (.whileLoop _ body), .body => some (block body)
  | stmt (.forLoop _ e _ _), .start => some (expr e)
  | stmt (.forLoop _ _ e _), .stop => some (expr e)
  | stmt (.forLoop _ _ _ body), .body => some (block body)
  | chain (.otherwise body), .body => some (block body)
  | chain (.elseIf c _ _), .test => some (condition c)
  | chain (.elseIf _ body _), .body => some (block body)
  | chain (.elseIf _ _ orElse), .orElse => some (chain orElse)
  | condition c, .left => some (expr c.left)
  | condition c, .right => some (expr c.right)
  | expr (.binary _ e _), .left => some (expr e)
  | expr (.binary _ _ e), .right => some (expr e)
  | _, _ => none

/-- What stands at a place inside of a node. -/
def Node.at? : Node → Place → Option Node := walk Node.child

/-- What stands at a place of a script. -/
def at? (script : Script) (pos : Place) : Option Node := (Node.block script.body).at? pos

/-- A `let` of `x` stands at `q`. -/
def LetAt (script : Script) (q : Place) (x : String) : Prop :=
  ∃ value, script.at? q = some (.stmt (.letBinding x value))

/-- A counting loop over `x` stands at `r`. -/
def LoopAt (script : Script) (r : Place) (x : String) : Prop :=
  ∃ start stop body, script.at? r = some (.stmt (.forLoop x start stop body))

/-- The name stands at the place, as an operand or as the target of an assignment. -/
def MentionedAt (script : Script) (pos : Place) (x : String) : Prop :=
  script.at? pos = some (.expr (.ident x)) ∨
    ∃ value, script.at? pos = some (.stmt (.assign x value))

/-! ## The rule of a script -/

/-- A binding of `x` and the place that is its scope. -/
inductive Scoped (script : Script) (x : String) : Place → Place → Prop where
  /-- The scope of a `let` is the block it stands in. -/
  | block {block : Place} {k : Nat} : script.LetAt (block ++ [.stmt k]) x →
      Scoped script x (block ++ [.stmt k]) block
  /-- The scope of the variable of a counting loop is the loop, with its bounds. -/
  | loop {r : Place} : script.LoopAt r x → Scoped script x r r

/-- The binding at the given place is the one that `x` refers to at `pos`: that of the innermost
scope around the place that binds `x`. -/
def Refers (script : Script) (pos : Place) (x : String) (b : Place) : Prop :=
  ∃ scope, script.Scoped x b scope ∧ scope <+: pos ∧
    ∀ b' scope', script.Scoped x b' scope' → scope' <+: pos → scope' <+: scope

end Script

/-! ## From programs to scripts -/

/-- The script of what stands at a place. -/
def Node.lower : Node → Script.Node
  | block body => .block (Stmt.lowerAll body)
  | stmt s => .stmt s.lower
  | chain c => .chain c.lower
  | condition c => .condition c.lower
  | expr e => .expr e.lower

theorem Stmt.lowerAll_eq_map (body : List Stmt) : Stmt.lowerAll body = body.map Stmt.lower := by
  induction body with
  | nil => rfl
  | cons s more ih => rw [Stmt.lowerAll, ih, List.map_cons]

/-- A node and its script have the same parts. The two exceptions are a last branch without
statements, which is left out, and a declaration without a value, which is given one. -/
theorem Node.child_lower (node : Node) (s : Part) :
    node.lower.child s = (node.child s).map Node.lower ∨
      (node.child s = some (.block []) ∧ node.lower.child s = none) ∨
      (node.child s = none ∧ node.lower.child s = some (.expr (.number "0"))) := by
  cases node with
  | block body =>
    cases s with
    | stmt k =>
      left
      rw [lower, Script.Node.child, child, Stmt.lowerAll_eq_map, List.getElem?_map, Option.map_map,
        Option.map_map]
      rfl
    | value | test | start | stop | body | orElse | left | right => exact .inl rfl
  | stmt t =>
    cases t with
    | declare x value =>
      cases value with
      | none =>
        cases s with
        | value => exact .inr (.inr ⟨rfl, rfl⟩)
        | stmt | test | start | stop | body | orElse | left | right => exact .inl rfl
      | some e => cases s <;> exact .inl rfl
    | assign | print | branch | whileLoop | forLoop | «break» | «continue» =>
      cases s <;> exact .inl rfl
  | chain t =>
    cases t with
    | otherwise body =>
      cases body with
      | nil =>
        cases s with
        | body => exact .inr (.inl ⟨rfl, rfl⟩)
        | stmt | value | test | start | stop | orElse | left | right => exact .inl rfl
      | cons t more => cases s <;> exact .inl rfl
    | nothing | elseIf => cases s <;> exact .inl rfl
  | condition c => cases s <;> exact .inl rfl
  | expr e => cases e <;> cases s <;> exact .inl rfl

/-- What stands at a place of a node stands at that place of the node's script. -/
theorem Node.at?_lower {node part : Node} {pos : Place} (h : node.at? pos = some part)
    (hpart : part ≠ .block []) : node.lower.at? pos = some part.lower := by
  induction pos generalizing node with
  | nil =>
    cases h
    rfl
  | cons s pos ih =>
    obtain ⟨next, hnext, htail⟩ := Option.bind_eq_some_iff.mp h
    refine Option.bind_eq_some_iff.mpr ⟨next.lower, ?_, ih htail⟩
    rcases node.child_lower s with hc | ⟨hc, -⟩ | ⟨hc, -⟩
    · rw [hc, hnext]
      rfl
    · -- A block without statements has no parts, so it would be what stands there itself.
      obtain rfl := Option.some.inj (hnext.symm.trans hc)
      cases pos with
      | nil => exact absurd (Option.some.inj htail).symm hpart
      | cons t pos => cases t <;> cases htail
    · rw [hc] at hnext
      cases hnext

/-- What stands at a place of a node's script comes from what stands at that place of the node. -/
theorem Node.exists_of_at?_lower {node : Node} {found : Script.Node} {pos : Place}
    (h : node.lower.at? pos = some found) (hfound : found ≠ .expr (.number "0")) :
    ∃ part, node.at? pos = some part ∧ part.lower = found := by
  induction pos generalizing node with
  | nil => exact ⟨node, rfl, Option.some.inj h⟩
  | cons s pos ih =>
    obtain ⟨next, hnext, htail⟩ := Option.bind_eq_some_iff.mp h
    rcases node.child_lower s with hc | ⟨-, hc⟩ | ⟨-, hc⟩
    · rw [hc] at hnext
      obtain ⟨part, hpart, rfl⟩ := Option.map_eq_some_iff.mp hnext
      obtain ⟨found', hfound', rfl⟩ := ih htail
      exact ⟨found', Option.bind_eq_some_iff.mpr ⟨part, hpart, hfound'⟩, rfl⟩
    · rw [hc] at hnext
      cases hnext
    · -- A number has no parts, so it would be what stands there itself.
      obtain rfl := Option.some.inj (hc.symm.trans hnext)
      cases pos with
      | nil => exact absurd (Option.some.inj htail).symm hfound
      | cons t pos => cases t <;> cases htail

variable {p : Program} {pos b : Place} {x : String}

theorem Program.at?_lower {part : Node} (h : p.at? pos = some part) (hpart : part ≠ .block []) :
    p.lower.at? pos = some part.lower := Node.at?_lower h hpart

theorem Program.exists_of_at?_lower {found : Script.Node} (h : p.lower.at? pos = some found)
    (hfound : found ≠ .expr (.number "0")) : ∃ part, p.at? pos = some part ∧ part.lower = found :=
  Node.exists_of_at?_lower (show (Node.block p.body).lower.at? pos = some found from h) hfound

theorem Program.letAt_lower_iff {q : Place} : p.lower.LetAt q x ↔ DeclaredAt p q x := by
  constructor
  · rintro ⟨value, h⟩
    obtain ⟨part, hpart, hlower⟩ := p.exists_of_at?_lower h nofun
    cases part with
    | stmt s => cases s <;> simp_all [Node.lower, Stmt.lower, DeclaredAt]
    | block | chain | condition | expr => cases hlower
  · rintro ⟨value, h⟩
    exact ⟨_, p.at?_lower h (by simp)⟩

theorem Program.loopAt_lower_iff {r : Place} : p.lower.LoopAt r x ↔ LoopAt p r x := by
  constructor
  · rintro ⟨start, stop, body, h⟩
    obtain ⟨part, hpart, hlower⟩ := p.exists_of_at?_lower h nofun
    cases part with
    | stmt s => cases s <;> simp_all [Node.lower, Stmt.lower, LoopAt]
    | block | chain | condition | expr => cases hlower
  · rintro ⟨start, stop, body, h⟩
    exact ⟨_, _, _, p.at?_lower h (by simp)⟩

/-- A name is mentioned in the script where it is mentioned in the program. -/
theorem MentionedAt.lower (h : MentionedAt p pos x) : p.lower.MentionedAt pos x := by
  rcases h with h | ⟨value, h⟩
  · exact .inl (p.at?_lower h nofun)
  · exact .inr ⟨_, p.at?_lower h nofun⟩

/-! ## Bounds of counting loops -/

/-- The place `pos` lies in a bound of the counting loop at `r`. -/
def InBounds (r pos : Place) : Prop := r ++ [.start] <+: pos ∨ r ++ [.stop] <+: pos

/-- What is mentioned inside of a counting loop is mentioned in its body or in a bound. -/
theorem LoopAt.inBody_or_inBounds {r : Place} {y : String} (hl : LoopAt p r x)
    (hm : MentionedAt p pos y) (hr : r <+: pos) : InBody r pos ∨ InBounds r pos := by
  obtain ⟨start, stop, body, hl⟩ := hl
  obtain ⟨tail, rfl⟩ := hr
  cases tail with
  | nil =>
    rw [List.append_nil] at hm
    rcases hm with h | ⟨value, h⟩
    · rw [hl] at h
      cases h
    · rw [hl] at h
      cases h
  | cons u tail =>
    have hpart : ∃ part, (Node.stmt (.forLoop x start stop body)).child u = some part := by
      rcases hm with h | ⟨value, h⟩
      · exact (p.exists_child hl h).imp fun _ ↦ And.left
      · exact (p.exists_child hl h).imp fun _ ↦ And.left
    obtain ⟨part, hpart⟩ := hpart
    cases u with
    | body => exact .inl ⟨tail, by simp⟩
    | start => exact .inr (.inl ⟨tail, by simp⟩)
    | stop => exact .inr (.inr ⟨tail, by simp⟩)
    | stmt | value | test | orElse | left | right => cases hpart

/-! ## Statements and their blocks -/

theorem Node.exists_block_of_child {node : Node} {u : Part} {s : Stmt}
    (h : node.child u = some (.stmt s)) : ∃ body k, node = .block body ∧ u = .stmt k := by
  cases node with
  | block body =>
    cases u with
    | stmt k => exact ⟨body, k, rfl, rfl⟩
    | value | test | start | stop | body | orElse | left | right => cases h
  | stmt t =>
    cases t with
    | declare y value => cases value <;> cases u <;> cases h
    | assign | print | branch | whileLoop | forLoop | «break» | «continue» => cases u <;> cases h
  | chain t => cases t <;> cases u <;> cases h
  | condition c => cases u <;> cases h
  | expr a => cases a <;> cases u <;> cases h

/-- A statement stands in a block. -/
theorem Program.exists_block {s : Stmt} (h : p.at? pos = some (.stmt s)) :
    ∃ block k body, pos = block ++ [.stmt k] ∧ p.at? block = some (.block body) := by
  rcases List.eq_nil_or_concat pos with rfl | ⟨block, u, rfl⟩
  · cases h
  · rw [List.concat_eq_append] at h ⊢
    obtain ⟨node, hnode⟩ : ∃ node, p.at? block = some node := by
      rw [Program.at?, Node.at?_append] at h
      obtain ⟨node, hnode, -⟩ := Option.bind_eq_some_iff.mp h
      exact ⟨node, hnode⟩
    rw [p.at?_child hnode] at h
    obtain ⟨body, k, rfl, rfl⟩ := Node.exists_block_of_child h
    exact ⟨block, k, body, rfl, hnode⟩

/-- A block is no statement. -/
theorem not_loopAt_block {block : Place} {k : Nat} {y : String}
    (hd : DeclaredAt p (block ++ [.stmt k]) y) : ¬LoopAt p block x := by
  rintro ⟨start, stop, body, hl⟩
  obtain ⟨value, hd⟩ := hd
  rw [p.at?_child hl] at hd
  cases hd

/-- A declaration holds at all that comes after it in its block. -/
theorem holds_in_block {block tail : Place} {k m : Nat} (h : k < m) :
    Holds p (block ++ [.stmt k]) (block ++ .stmt m :: tail) where
  before := (before_append_left block _ _).mpr (.inl h)
  stays {r x} _ hin := by
    rcases inBody_append_iff.mp hin with hout | ⟨r', rfl, hlast⟩
    · exact hout.trans (List.prefix_append _ _)
    · cases (inBody_singleton_iff.mp hlast).2

section Fresh

variable (hfresh : ∀ q y, DeclaredAt p q y → ∀ b, ¬Visible p q y b)

include hfresh

/-- Where no visible name is declared, no declaration holds at another one of the same name. -/
theorem not_holds_of_fresh {q q' : Place} (hd : DeclaredAt p q x) (hd' : DeclaredAt p q' x) :
    ¬Holds p q q' := by
  intro hh
  refine hfresh q' x hd' q (.declared (fun r hl hin ↦ ?_) hd hh)
  obtain ⟨b, hv⟩ := exists_counter hl hin
  exact hfresh q' x hd' b hv

/-- A scope binds a name once. -/
theorem Script.Scoped.eq {b b' scope : Place} (h : p.lower.Scoped x b scope)
    (h' : p.lower.Scoped x b' scope) : b = b' := by
  cases h with
  | @block _ k hd =>
    rw [Program.letAt_lower_iff] at hd
    cases h' with
    | @block _ m hd' =>
      rw [Program.letAt_lower_iff] at hd'
      rcases Nat.lt_trichotomy k m with hlt | rfl | hlt
      · exact absurd (holds_in_block hlt) (not_holds_of_fresh hfresh hd hd')
      · rfl
      · exact absurd (holds_in_block hlt) (not_holds_of_fresh hfresh hd' hd)
    | loop hl' => exact absurd (Program.loopAt_lower_iff.mp hl') (not_loopAt_block hd)
  | loop hl =>
    cases h' with
    | block hd' =>
      exact absurd (Program.loopAt_lower_iff.mp hl)
        (not_loopAt_block (Program.letAt_lower_iff.mp hd'))
    | loop hl' => rfl

/-- A name refers to one binding at most. -/
theorem Script.Refers.eq {b b' : Place} (h : p.lower.Refers pos x b)
    (h' : p.lower.Refers pos x b') : b = b' := by
  obtain ⟨scope, hs, hin, hmax⟩ := h
  obtain ⟨scope', hs', hin', hmax'⟩ := h'
  have heq : scope = scope' := (hmax' b scope hs hin).eq_of_length_le
    (hmax b' scope' hs' hin').length_le
  exact Script.Scoped.eq hfresh hs (heq ▸ hs')

/-- Outside of the bounds of counting loops over its name, a visible binding in an enclosing block
is the one that the script finds. -/
theorem Visible.refers (hm : MentionedAt p pos x) (hv : Visible p pos x b)
    (hblock : b.dropLast <+: pos) (hbounds : ∀ r, LoopAt p r x → ¬InBounds r pos) :
    p.lower.Refers pos x b := by
  have hbody {r : Place} (hl : LoopAt p r x) (hr : r <+: pos) : InBody r pos :=
    (hl.inBody_or_inBounds hm hr).resolve_right (hbounds r hl)
  cases hv with
  | counter hl hin hmax =>
    refine ⟨b, .loop (Program.loopAt_lower_iff.mpr hl), hin.isPrefix, fun b' scope' hs' hin' ↦ ?_⟩
    cases hs' with
    | loop hl' =>
      have hl' := Program.loopAt_lower_iff.mp hl'
      exact hmax b' hl' (hbody hl' hin')
    | @block _ k hd' =>
      have hd' := Program.letAt_lower_iff.mp hd'
      -- A block further in would lie in the body of the loop, where the name may not be declared.
      rcases List.prefix_or_prefix_of_prefix hin' hin.isPrefix with h | ⟨tail, rfl⟩
      · exact h
      cases tail with
      | nil => simp
      | cons u tail =>
        have hu : u = .body := by
          obtain ⟨more, rfl⟩ := hin'
          rw [InBody, List.append_assoc, List.prefix_append_right_inj] at hin
          exact (List.cons_prefix_cons.mp hin).1.symm
        have hinner : InBody b (b ++ u :: tail ++ [.stmt k]) := ⟨tail ++ [.stmt k], by simp [hu]⟩
        obtain ⟨c, hv⟩ := exists_counter hl hinner
        exact absurd hv (hfresh _ x hd' c)
  | declared hno hd hh =>
    obtain ⟨value, hn⟩ := hd
    obtain ⟨block, k, body, rfl, hbl⟩ := p.exists_block hn
    rw [List.dropLast_concat] at hblock
    have hd : DeclaredAt p (block ++ [.stmt k]) x := ⟨value, hn⟩
    refine ⟨block, .block (Program.letAt_lower_iff.mpr hd), hblock, fun b' scope' hs' hin' ↦ ?_⟩
    cases hs' with
    | loop hl' =>
      have hl' := Program.loopAt_lower_iff.mp hl'
      exact absurd (hbody hl' hin') (hno _ hl')
    | @block _ m hd' =>
      have hd' := Program.letAt_lower_iff.mp hd'
      -- A block further in comes after the declaration, and what it declares would see it.
      rcases List.prefix_or_prefix_of_prefix hin' hblock with h | ⟨tail, rfl⟩
      · exact h
      cases tail with
      | nil => simp
      | cons u tail =>
        rw [List.append_assoc, List.cons_append] at hd'
        obtain ⟨value', hn'⟩ := hd'
        obtain ⟨part, hpart, -⟩ := p.exists_child hbl hn'
        obtain ⟨j, -, rfl⟩ := Node.child_block_eq_some hpart
        have hlt : k < j := by
          obtain ⟨more, rfl⟩ := hin'
          have hb := hh.before
          rw [List.append_assoc, before_append_left] at hb
          exact hb.resolve_right fun hb ↦ hb.2
        exact absurd (holds_in_block hlt) (not_holds_of_fresh hfresh hd ⟨value', hn'⟩)

end Fresh

/-- In a bound of a counting loop, the name of the loop refers to the loop. -/
theorem LoopAt.refers_of_inBounds {r : Place} (hl : LoopAt p r x) (hin : InBounds r pos) :
    p.lower.Refers pos x r := by
  obtain ⟨u, a, hu, hat⟩ : ∃ u a, r ++ [u] <+: pos ∧ p.at? (r ++ [u]) = some (.expr a) := by
    obtain ⟨start, stop, body, hl⟩ := hl
    rcases hin with h | h
    · exact ⟨.start, start, h, p.at?_child hl .start⟩
    · exact ⟨.stop, stop, h, p.at?_child hl .stop⟩
  have hr : r <+: pos := (List.prefix_append _ _).trans hu
  refine ⟨r, .loop (Program.loopAt_lower_iff.mpr hl), hr, fun b' scope' hs' hin' ↦ ?_⟩
  -- Further in there are only expressions, and a scope is none.
  rcases List.prefix_or_prefix_of_prefix hin' hr with h | ⟨tail, rfl⟩
  · exact h
  cases tail with
  | nil => simp
  | cons v tail =>
    have huv : r ++ [u] <+: r ++ v :: tail := List.prefix_of_prefix_length_le hu hin' (by simp)
    cases hs' with
    | loop hl' =>
      obtain ⟨start, stop, body, hl'⟩ := Program.loopAt_lower_iff.mp hl'
      obtain ⟨more, hmore⟩ := huv
      rw [← hmore, p.at?_append hat] at hl'
      obtain ⟨c, hc⟩ := Node.exists_expr_of_at? hl'
      cases hc
    | block hd' =>
      have hd' := Program.letAt_lower_iff.mp hd'
      exact absurd hd' ((Node.quiet_expr a).not_declaredAt hat (huv.trans (List.prefix_append _ _)))

/-! ## The binding that the script finds -/

theorem LoopAt.ne_of_inBounds {r : Place} (hl : LoopAt p r x) (hin : InBounds r pos)
    (hv : Visible p pos x b) : r ≠ b := by
  rintro rfl
  cases hv with
  | counter _ hbody _ =>
    obtain ⟨tail, rfl⟩ := hbody
    rcases hin with h | h
    · rw [List.append_assoc, List.prefix_append_right_inj] at h
      cases (List.cons_prefix_cons.mp h).1
    · rw [List.append_assoc, List.prefix_append_right_inj] at h
      cases (List.cons_prefix_cons.mp h).1
  | declared _ hd _ => exact hd.not_loopAt hl

/-- **What a name refers to is kept, but for the bounds of a loop over the same name.** In a program
that passes the check, take a name and the binding it refers to, in a block that encloses the name.
The name is mentioned at the same place of the script, and there it refers to the same binding and
no other exactly when it is in no bound of a counting loop over the name itself. In such a bound it
refers to the loop. -/
theorem Program.refers_lower_iff (hcheck : p.check = .ok ()) (hm : MentionedAt p pos x)
    (hv : Visible p pos x b) (hblock : b.dropLast <+: pos) :
    p.lower.MentionedAt pos x ∧
      ((∀ b', p.lower.Refers pos x b' ↔ b' = b) ↔ ∀ r, LoopAt p r x → ¬InBounds r pos) ∧
      ∀ r, LoopAt p r x → InBounds r pos → ∀ b', p.lower.Refers pos x b' ↔ b' = r := by
  obtain ⟨-, hfresh, -⟩ := rulesIn_nil_iff.mp (check_eq_ok_iff_rulesIn.mp hcheck)
  have hunique {c : Place} (hc : p.lower.Refers pos x c) (b' : Place) :
      p.lower.Refers pos x b' ↔ b' = c :=
    ⟨fun h ↦ Script.Refers.eq hfresh h hc, fun h ↦ h ▸ hc⟩
  refine ⟨hm.lower, ⟨fun h r hl hin ↦ ?_, fun h ↦ ?_⟩, fun r hl hin ↦ ?_⟩
  · exact hl.ne_of_inBounds hin hv ((h r).mp (hl.refers_of_inBounds hin))
  · exact hunique (hv.refers hfresh hm hblock h)
  · exact hunique (hl.refers_of_inBounds hin)

/-! ### A bound that mentions its loop's own name -/

/-- The program `ye i = 5 ke liye i = 0 tak i { bol i }`. -/
def Program.ownBound : Program :=
  ⟨[.declare "i" (some (.number "5")),
    .forLoop "i" (.number "0") (.ident "i") [.print (.ident "i")]]⟩

/-- In the body of the loop the program and the script agree. -/
theorem Program.refers_ownBound_body :
    ownBound.check = .ok () ∧ MentionedAt ownBound [.stmt 1, .body, .stmt 0, .value] "i" ∧
      Visible ownBound [.stmt 1, .body, .stmt 0, .value] "i" [.stmt 1] ∧
      ∀ b, ownBound.lower.Refers [.stmt 1, .body, .stmt 0, .value] "i" b ↔ b = [.stmt 1] := by
  have hm : MentionedAt ownBound [.stmt 1, .body, .stmt 0, .value] "i" := .inl rfl
  have hv : Visible ownBound [.stmt 1, .body, .stmt 0, .value] "i" [.stmt 1] := by
    refine .counter ⟨_, _, _, rfl⟩ ⟨[.stmt 0, .value], rfl⟩ fun r hl hin ↦ ?_
    obtain ⟨tail, ht⟩ := hin
    rcases r with _ | ⟨a, _ | ⟨b, _ | ⟨c, _ | ⟨d, r⟩⟩⟩⟩ <;> simp_all
  refine ⟨rfl, hm, hv, (refers_lower_iff rfl hm hv ⟨_, rfl⟩).2.1.mpr ?_⟩
  rintro r - (h | h)
  · exact absurd (h.subset (List.mem_append_right r List.mem_cons_self)) (by decide)
  · exact absurd (h.subset (List.mem_append_right r List.mem_cons_self)) (by decide)

/-- In the bound they do not: the program refers to the declaration, the script to the loop. -/
theorem Program.refers_ownBound_stop :
    ownBound.check = .ok () ∧ MentionedAt ownBound [.stmt 1, .stop] "i" ∧
      Visible ownBound [.stmt 1, .stop] "i" [.stmt 0] ∧
      ([.stmt 0] : Place).dropLast <+: [.stmt 1, .stop] ∧
      ¬ownBound.lower.Refers [.stmt 1, .stop] "i" [.stmt 0] ∧
      ownBound.lower.Refers [.stmt 1, .stop] "i" [.stmt 1] := by
  have hcheck : ownBound.check = .ok () := rfl
  have hv : Visible ownBound [.stmt 1, .stop] "i" [.stmt 0] := by
    refine .declared (fun r _ hin ↦ ?_) ⟨_, rfl⟩ ⟨.inl (by decide), fun _ hin ↦ ?_⟩
    · exact absurd (hin.subset (List.mem_append_right r List.mem_cons_self)) (by decide)
    · cases (inBody_singleton_iff.mp hin).2
  have hl : LoopAt ownBound [.stmt 1] "i" := ⟨_, _, _, rfl⟩
  have hloop : ownBound.lower.Refers [.stmt 1, .stop] "i" [.stmt 1] :=
    hl.refers_of_inBounds (.inr (List.prefix_refl _))
  obtain ⟨-, hfresh, -⟩ := rulesIn_nil_iff.mp (check_eq_ok_iff_rulesIn.mp hcheck)
  refine ⟨hcheck, .inl rfl, hv, ⟨_, rfl⟩, fun h ↦ ?_, hloop⟩
  cases Script.Refers.eq hfresh h hloop

end JPlusPlus
