import JPlusPlus.Program.Basic

/-!
# Places in a program

A place is a way down from the whole program: statement number `k` of a body, the body of a loop,
the left side of a condition. Everything said here about a program is said by places alone: what
stands at a place, which place encloses which, and which stands before which in the text.

Places exist apart from programs. There may be nothing at a place, and a place where nothing is,
such as that of the statement after the last one of a body, still stands before and after others.
This is what lets a place serve as a point in the text.
-/

namespace JPlusPlus

/-! ## Parts and places -/

/-- A part of a node, by its role. -/
inductive Part where
  /-- The statement of the given number, counted from 0, of a body. -/
  | stmt (k : Nat)
  /-- The value that a statement declares, assigns or prints. -/
  | value
  /-- The condition of a conditional or of a loop. -/
  | test
  /-- The lower bound of a counting loop. -/
  | start
  /-- The upper bound of a counting loop. -/
  | stop
  /-- The body of a conditional or of a loop. -/
  | body
  /-- What a conditional does when its condition fails. -/
  | orElse
  /-- The left side of a condition or an operation. -/
  | left
  /-- The right side of a condition or an operation. -/
  | right
  deriving DecidableEq, Repr

/-- The parts of a node stand in the text in the order of their ranks. -/
def Part.rank : Part → Nat
  | stmt k => k
  | value | test | start | left => 0
  | stop | right => 1
  | body => 2
  | orElse => 3

/-- What holds of every part holds of each. -/
theorem Part.forall_iff {motive : Part → Prop} :
    (∀ s, motive s) ↔ (∀ k, motive (.stmt k)) ∧ motive .value ∧ motive .test ∧ motive .start ∧
      motive .stop ∧ motive .body ∧ motive .orElse ∧ motive .left ∧ motive .right := by
  refine ⟨fun h ↦ ⟨fun k ↦ h _, h _, h _, h _, h _, h _, h _, h _, h _⟩, ?_⟩
  rintro ⟨hstmt, hvalue, htest, hstart, hstop, hbody, horElse, hleft, hright⟩ s
  cases s with
  | stmt k => exact hstmt k
  | value => exact hvalue
  | test => exact htest
  | start => exact hstart
  | stop => exact hstop
  | body => exact hbody
  | orElse => exact horElse
  | left => exact hleft
  | right => exact hright

/-- A way down from the whole program, from part to part. -/
abbrev Place := List Part

/-- Everything at the first place stands before everything at the second one. -/
def Before : Place → Place → Prop
  | s :: a, t :: b => s.rank < t.rank ∨ s = t ∧ Before a b
  | _, _ => False

/-- The place `pos` lies in the body of what stands at `r`. -/
def InBody (r pos : Place) : Prop := r ++ [.body] <+: pos

theorem before_append_left (r a b : Place) : Before (r ++ a) (r ++ b) ↔ Before a b := by
  induction r with
  | nil => rfl
  | cons s r ih => simp [Before, ih]

theorem Before.append_right {a b : Place} (h : Before a b) (tail : Place) :
    Before a (b ++ tail) := by
  induction b generalizing a with
  | nil => cases a <;> exact h.elim
  | cons t b ih =>
    cases a with
    | nil => exact h.elim
    | cons s a =>
      rcases h with h | ⟨rfl, h⟩
      · exact .inl h
      · exact .inr ⟨rfl, ih h⟩

/-- A place stands before one inside of `pos` when it stands before `pos`, or inside of `pos` and
there before the other. -/
theorem before_append_iff {q pos tail : Place} :
    Before q (pos ++ tail) ↔ Before q pos ∨ ∃ q', q = pos ++ q' ∧ Before q' tail := by
  constructor
  · intro h
    induction pos generalizing q with
    | nil => exact .inr ⟨q, rfl, h⟩
    | cons s pos ih =>
      cases q with
      | nil => exact .inl h
      | cons t q =>
        rcases h with h | ⟨rfl, h⟩
        · exact .inl (.inl h)
        · rcases ih h with hb | ⟨q', rfl, hb⟩
          · exact .inl (.inr ⟨rfl, hb⟩)
          · exact .inr ⟨q', rfl, hb⟩
  · rintro (h | ⟨q', rfl, h⟩)
    · exact h.append_right tail
    · rwa [before_append_left]

theorem before_singleton_iff {q : Place} {s : Part} :
    Before q [s] ↔ ∃ t q', q = t :: q' ∧ t.rank < s.rank := by
  cases q with
  | nil => simp [Before]
  | cons t q => cases q <;> simp [Before]

theorem inBody_append_iff {r pos tail : Place} :
    InBody r (pos ++ tail) ↔ InBody r pos ∨ ∃ r', r = pos ++ r' ∧ InBody r' tail := by
  constructor
  · intro h
    rcases List.prefix_or_prefix_of_prefix h (List.prefix_append pos tail) with hp | hp
    · exact .inl hp
    rcases List.prefix_concat_iff.mp hp with rfl | ⟨r', rfl⟩
    · exact .inl (List.prefix_refl _)
    · rw [InBody, List.append_assoc, List.prefix_append_right_inj] at h
      exact .inr ⟨r', rfl, h⟩
  · rintro (h | ⟨r', rfl, h⟩)
    · exact h.trans (List.prefix_append _ _)
    · rw [InBody, List.append_assoc]
      exact (List.prefix_append_right_inj _).mpr h

theorem inBody_singleton_iff {r : Place} {s : Part} : InBody r [s] ↔ r = [] ∧ s = .body := by
  cases r with
  | nil => simp [InBody, List.cons_prefix_cons, eq_comm]
  | cons t r => simp [InBody, List.cons_prefix_cons]

/-! ## What stands at a place -/

/-- What a way down leads to, where `child` gives the parts of things. -/
def walk {α : Type} (child : α → Part → Option α) : α → Place → Option α
  | a, [] => some a
  | a, s :: pos => (child a s).bind fun part ↦ walk child part pos

theorem walk_append {α : Type} (child : α → Part → Option α) (a : α) (pos tail : Place) :
    walk child a (pos ++ tail) = (walk child a pos).bind fun part ↦ walk child part tail := by
  induction pos generalizing a with
  | nil => rfl
  | cons s pos ih =>
    rw [List.cons_append, walk, walk, Option.bind_assoc]
    exact Option.bind_congr fun part _ ↦ ih part

/-- The parts that a program is made of. -/
inductive Node where
  /-- The statements of a body. -/
  | block (body : List Stmt)
  /-- A statement. -/
  | stmt (stmt : Stmt)
  /-- What a conditional does when its condition fails. -/
  | chain (chain : ElseChain)
  /-- A condition. -/
  | condition (condition : Condition)
  /-- An expression. -/
  | expr (e : Expr)

namespace Node

/-- The part of a node in the given role, if the node has one. -/
def child : Node → Part → Option Node
  | block body, .stmt k => body[k]?.map stmt
  | stmt (.declare _ (some e)), .value => some (expr e)
  | stmt (.assign _ e), .value => some (expr e)
  | stmt (.print e), .value => some (expr e)
  | stmt (.branch c _ _), .test => some (condition c)
  | stmt (.branch _ body _), .body => some (block body)
  | stmt (.branch _ _ orElse), .orElse => some (chain orElse)
  | stmt (.whileLoop c _), .test => some (condition c)
  | stmt (.whileLoop _ body), .body => some (block body)
  | stmt (.forLoop _ e _ _), .start => some (expr e)
  | stmt (.forLoop _ _ e _), .stop => some (expr e)
  | stmt (.forLoop _ _ _ body), .body => some (block body)
  | chain (.otherwise body), .body => some (block body)
  | chain (.elseIf c _ _), .test => some (condition c)
  | chain (.elseIf _ body _), .body => some (block body)
  | chain (.elseIf _ _ orElse), .orElse => some (chain orElse)
  | condition c, .left => some (expr c.left)
  | condition c, .right => some (expr c.right)
  | expr (.binary _ e _), .left => some (expr e)
  | expr (.binary _ _ e), .right => some (expr e)
  | expr (.concat e _), .left => some (expr e)
  | expr (.concat _ e), .right => some (expr e)
  | _, _ => none

/-- What stands at a place inside of a node. -/
def at? : Node → Place → Option Node := walk child

@[simp] theorem at?_nil (node : Node) : node.at? [] = some node := rfl

theorem at?_cons (node : Node) (s : Part) (pos : Place) :
    node.at? (s :: pos) = (node.child s).bind fun part ↦ part.at? pos := rfl

theorem at?_append (node : Node) (a b : Place) :
    node.at? (a ++ b) = (node.at? a).bind fun part ↦ part.at? b := walk_append child node a b

/-- Inside of an expression there are only expressions. -/
theorem exists_expr_of_at? {a : Expr} {pos : Place} {node : Node}
    (h : (expr a).at? pos = some node) : ∃ b, node = expr b := by
  induction pos generalizing a with
  | nil => exact ⟨a, (Option.some.inj h).symm⟩
  | cons s pos ih =>
    obtain ⟨part, hpart, htail⟩ := Option.bind_eq_some_iff.mp h
    obtain ⟨b, rfl⟩ : ∃ b, part = expr b := by
      cases a <;> cases s <;> cases hpart <;> exact ⟨_, rfl⟩
    exact ih htail

end Node

/-- What stands at a place of a program. -/
def Program.at? (program : Program) (pos : Place) : Option Node :=
  (Node.block program.body).at? pos

theorem Program.at?_append {p : Program} {pos : Place} {node : Node}
    (h : p.at? pos = some node) (tail : Place) : p.at? (pos ++ tail) = node.at? tail := by
  rw [Program.at?, Node.at?_append, ← Program.at?, h]
  rfl

theorem Program.at?_child {p : Program} {pos : Place} {node : Node}
    (h : p.at? pos = some node) (s : Part) : p.at? (pos ++ [s]) = node.child s := by
  rw [p.at?_append h, Node.at?_cons]
  cases node.child s <;> rfl

end JPlusPlus
