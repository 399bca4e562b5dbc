import JPlusPlus.Proofs.Scope.Place
import JPlusPlus.Proofs.Typing.Declared

/-!
# The table at a point

A run goes from point to point, and the check has a table at each of them. A point is a place read
from its end, so that going up is taking a part off: the last statement of a loop, then the body it
stands in, then the loop.

Every point lies in a scope: that of the whole program, or that of the body of a counting loop,
which lies in another scope in turn. What the table of a point says of a variable is what is known
of it at the end of the innermost scope that declares the variable. This is what a run can rely on.
It may come to a point of a loop for a second time, with variables set that the table at the point
does not know yet, but never with one set in another type than the one it has at the end.

## Main statements

* `Program.exists_check`: where a program is accepted, the check of every part of it goes through.
* `Program.typeIn_scopes`: the table at a point agrees with the scopes around it.
-/

namespace JPlusPlus

/-! ## Points -/

/-- A place, from its last part to its first. -/
abbrev Point := List Part

/-- What stands at a point. -/
def Program.nodeAt? (p : Program) (point : Point) : Option Node := p.at? point.reverse

theorem Program.nodeAt?_cons {p : Program} {q : Point} {node : Node}
    (h : p.nodeAt? q = some node) (s : Part) : p.nodeAt? (s :: q) = node.child s := by
  rw [nodeAt?, List.reverse_cons]
  exact p.at?_child h s

theorem Program.nodeAt?_tail {p : Program} {s : Part} {q : Point} {child : Node}
    (h : p.nodeAt? (s :: q) = some child) :
    ∃ node, p.nodeAt? q = some node ∧ node.child s = some child := by
  rw [nodeAt?, List.reverse_cons, Program.at?, Node.at?_append] at h
  obtain ⟨node, hnode, hchild⟩ := Option.bind_eq_some_iff.mp h
  refine ⟨node, hnode, ?_⟩
  rwa [← p.nodeAt?_cons hnode, nodeAt?, List.reverse_cons, p.at?_append hnode]

/-! ## Checks and tables of nodes -/

namespace Node

/-- The check of the statements of a node. What is no statement is checked as a part of one. -/
def check : Node → Checker Unit
  | block body => Stmt.checkAll body
  | stmt s => s.check
  | chain c => c.check
  | condition _ | expr _ => pure ()

/-- The variables that a node declares for what follows it. -/
def declared : Node → List String
  | block body => Stmt.declaredAll body
  | stmt s => s.declared
  | chain c => c.declared
  | condition _ | expr _ => []

/-- The table with which the check comes to a part of a node, when it comes to the node with the
given one. -/
def tableBefore (table : SymbolTable) : Node → Part → SymbolTable
  | block body, .stmt k => Checker.leaves (Stmt.checkAll (body.take k)) table
  | stmt (.branch _ body _), .orElse => Checker.leaves (Stmt.checkAll body) table
  | chain (.elseIf _ body _), .orElse => Checker.leaves (Stmt.checkAll body) table
  | stmt (.forLoop counter _ _ _), .body => table.insert counter .number
  | _, _ => table

end Node

/-- The table with which the check comes to a point. -/
def Program.tableAt (p : Program) : Point → SymbolTable
  | [] => .empty
  | s :: q =>
    match p.nodeAt? q with
    | some node => node.tableBefore (p.tableAt q) s
    | none => p.tableAt q

/-! ## Scopes -/

/-- The variables of a scope, and their types at its end. -/
structure Scope where
  /-- The variables. -/
  names : List String
  /-- The table with which the check comes to the end of the scope. -/
  table : SymbolTable

/-- The scope of statements that are checked from the given table, with further variables. -/
def Scope.ofBody (names : List String) (body : List Stmt) (table : SymbolTable) : Scope :=
  ⟨names ++ Stmt.declaredAll body, Checker.leaves (Stmt.checkAll body) table⟩

/-- The scope that a part of a node opens: only the body of a counting loop opens one. -/
def Node.scope? (table : SymbolTable) : Node → Part → Option Scope
  | stmt (.forLoop counter _ _ body), .body =>
    some (.ofBody [counter] body (table.insert counter .number))
  | _, _ => none

/-- The scopes around a point, the innermost one first. -/
def Program.scopes (p : Program) : Point → List Scope
  | [] => [.ofBody [] p.body .empty]
  | s :: q => ((p.nodeAt? q).bind fun node ↦ node.scope? (p.tableAt q) s).toList ++ p.scopes q

/-- The type of a variable at the end of the innermost scope that has it. -/
def typeIn : List Scope → String → Option Ty
  | [], _ => none
  | scope :: outer, x => if x ∈ scope.names then scope.table.lookup x else typeIn outer x

/-! ## Parts of bodies -/

theorem Stmt.declared_subset_declaredAll {body : List Stmt} {s : Stmt} (h : s ∈ body) :
    s.declared ⊆ Stmt.declaredAll body := by
  induction body with
  | nil => cases h
  | cons t body ih =>
    rw [Stmt.declaredAll]
    rcases List.mem_cons.mp h with rfl | h
    · exact List.subset_append_left _ _
    · exact fun x hx ↦ List.mem_append_right _ (ih h hx)

theorem Stmt.declaredAll_take_subset (body : List Stmt) (k : Nat) :
    Stmt.declaredAll (body.take k) ⊆ Stmt.declaredAll body := by
  induction body generalizing k with
  | nil => simp
  | cons s body ih =>
    cases k with
    | zero => simp [Stmt.declaredAll]
    | succ k =>
      rw [List.take_succ_cons, Stmt.declaredAll, Stmt.declaredAll]
      intro x hx
      rw [List.mem_append] at hx ⊢
      exact hx.imp_right fun hx ↦ ih k hx

/-- Where the statements of a body go through, those before a statement do, and from there on the
statement and those after it. -/
theorem Stmt.checkAll_take {body : List Stmt} {table table' : SymbolTable}
    (h : Stmt.checkAll body table = .ok () table') (k : Nat) :
    ∃ table₁, Stmt.checkAll (body.take k) table = .ok () table₁ ∧
      Stmt.checkAll (body.drop k) table₁ = .ok () table' := by
  rw [← List.take_append_drop k body] at h
  exact Stmt.checkAll_append_eq_ok.mp h

/-! ## From a node to its parts -/

variable {node part : Node} {s : Part} {table table' : SymbolTable}

theorem Node.grows_check (node : Node) : Checker.Grows node.check node.declared := by
  cases node with
  | block body => exact Stmt.grows_checkAll body
  | stmt s => exact s.grows_check
  | chain c => exact c.grows_check
  | condition | expr => exact .pure ()

/-- On the way through a node, the table grows by what the node declares. -/
theorem Node.extends_tableBefore (h : node.check table = .ok () table')
    (hs : node.scope? table s = none) :
    Extends table (node.tableBefore table s) node.declared ∧ node.tableBefore table s ≤ table' := by
  unfold tableBefore
  split
  · next body k =>
    obtain ⟨table₁, htake, hdrop⟩ := Stmt.checkAll_take h k
    rw [Checker.leaves_of_ok htake]
    exact ⟨((Stmt.grows_checkAll _).extends htake).mono (Stmt.declaredAll_take_subset body k),
      ((Stmt.grows_checkAll _).extends hdrop).keeps⟩
  · next c body orElse =>
    obtain ⟨-, table₁, hbody, horElse⟩ := Stmt.check_branch_eq_ok.mp h
    rw [Checker.leaves_of_ok hbody, declared, Stmt.declared]
    exact ⟨((Stmt.grows_checkAll body).extends hbody).mono (List.subset_append_left _ _),
      (orElse.grows_check.extends horElse).keeps⟩
  · next c body orElse =>
    obtain ⟨-, table₁, hbody, horElse⟩ := ElseChain.check_elseIf_eq_ok.mp h
    rw [Checker.leaves_of_ok hbody, declared, ElseChain.declared]
    exact ⟨((Stmt.grows_checkAll body).extends hbody).mono (List.subset_append_left _ _),
      (orElse.grows_check.extends horElse).keeps⟩
  · cases hs
  · exact ⟨.refl table _, (node.grows_check.extends h).keeps⟩

/-- The node has the body. -/
inductive Node.HasBody (body : List Stmt) : Node → Prop where
  | branch (c : Condition) (orElse : ElseChain) : HasBody body (.stmt (.branch c body orElse))
  | whileLoop (c : Condition) : HasBody body (.stmt (.whileLoop c body))
  | forLoop (x : String) (start stop : Expr) : HasBody body (.stmt (.forLoop x start stop body))
  | otherwise : HasBody body (.chain (.otherwise body))
  | elseIf (c : Condition) (orElse : ElseChain) : HasBody body (.chain (.elseIf c body orElse))

/-- The node goes on with the chain when its condition fails. -/
inductive Node.HasChain (chain : ElseChain) : Node → Prop where
  | branch (c : Condition) (body : List Stmt) : HasChain chain (.stmt (.branch c body chain))
  | elseIf (c : Condition) (body : List Stmt) : HasChain chain (.chain (.elseIf c body chain))

theorem Node.child_eq_stmt {t : Stmt} (h : node.child s = some (.stmt t)) :
    ∃ body k, node = .block body ∧ s = .stmt k ∧ body[k]? = some t := by
  unfold child at h
  split at h
  · next body k =>
    obtain ⟨t', hk, ht⟩ := Option.map_eq_some_iff.mp h
    cases ht
    exact ⟨body, k, rfl, rfl, hk⟩
  all_goals cases h

theorem Node.child_eq_block {body : List Stmt} (h : node.child s = some (.block body)) :
    s = .body ∧ node.HasBody body := by
  unfold child at h
  split at h
  · obtain ⟨t, -, ht⟩ := Option.map_eq_some_iff.mp h
    cases ht
  all_goals cases h
  · exact ⟨rfl, .branch _ _⟩
  · exact ⟨rfl, .whileLoop _⟩
  · exact ⟨rfl, .forLoop _ _ _⟩
  · exact ⟨rfl, .otherwise⟩
  · exact ⟨rfl, .elseIf _ _⟩

theorem Node.child_eq_chain {chain : ElseChain} (h : node.child s = some (.chain chain)) :
    s = .orElse ∧ node.HasChain chain := by
  unfold child at h
  split at h
  · obtain ⟨t, -, ht⟩ := Option.map_eq_some_iff.mp h
    cases ht
  all_goals cases h
  · exact ⟨rfl, .branch _ _⟩
  · exact ⟨rfl, .elseIf _ _⟩

theorem Node.hasBody_of_child (h : node.child .body = some part) : ∃ body, node.HasBody body := by
  cases part with
  | block body => exact ⟨body, (child_eq_block h).2⟩
  | stmt t =>
    obtain ⟨body, k, -, hs, -⟩ := child_eq_stmt h
    cases hs
  | chain c => cases (child_eq_chain h).1
  | condition | expr =>
    unfold child at h
    split at h
    all_goals first | contradiction | cases h

theorem Node.scope?_eq_some {scope : Scope} (h : node.scope? table s = some scope) :
    ∃ x start stop body, node = .stmt (.forLoop x start stop body) ∧ s = .body ∧
      scope = .ofBody [x] body (table.insert x .number) := by
  unfold scope? at h
  split at h
  · next x start stop body =>
    cases h
    exact ⟨x, start, stop, body, rfl, rfl, rfl⟩
  · cases h

/-- What is known of a node by the innermost scope around it. -/
structure Node.CheckedIn (node : Node) (table : SymbolTable) (scope : Scope) : Prop where
  /-- The check of the node goes through, with nothing but what holds at the end of the scope. -/
  check : ∃ table', node.check table = .ok () table' ∧ table' ≤ scope.table
  /-- What the node declares are variables of the scope. -/
  declared : node.declared ⊆ scope.names

/-- A part of a node that opens no scope lies in the scope of the node. -/
theorem Node.CheckedIn.of_le {scope : Scope} {table₁ table₂ : SymbolTable}
    (hle : table' ≤ scope.table) (hdeclared : node.declared ⊆ scope.names)
    (hcheck : part.check table₁ = .ok () table₂) (hle₂ : table₂ ≤ table')
    (hsub : part.declared ⊆ node.declared) : part.CheckedIn table₁ scope :=
  ⟨⟨table₂, hcheck, SymbolTable.le_trans hle₂ hle⟩, fun _ hx ↦ hdeclared (hsub hx)⟩

/-- Where the check of a node goes through, so does that of its parts, each from its own table and
in its own scope. -/
theorem Node.CheckedIn.child {scope : Scope} (h : node.CheckedIn table scope)
    (hchild : node.child s = some part) :
    part.CheckedIn (node.tableBefore table s) ((node.scope? table s).getD scope) := by
  obtain ⟨⟨table', h, hle⟩, hdeclared⟩ := h
  cases part with
  | block body =>
    obtain ⟨rfl, hbody⟩ := Node.child_eq_block hchild
    cases hbody with
    | branch c orElse =>
      obtain ⟨-, table₁, hcheck, horElse⟩ := Stmt.check_branch_eq_ok.mp h
      refine .of_le hle hdeclared hcheck (orElse.grows_check.extends horElse).keeps ?_
      rw [Node.declared, Node.declared, Stmt.declared]
      exact List.subset_append_left _ _
    | whileLoop c =>
      obtain ⟨-, hcheck⟩ := Stmt.check_whileLoop_eq_ok.mp h
      refine .of_le hle hdeclared hcheck table'.le_refl ?_
      rw [Node.declared, Node.declared, Stmt.declared]
      exact List.Subset.refl _
    | forLoop x start stop =>
      obtain ⟨⟨-, -, inner, -, -, hcheck⟩, -⟩ := Stmt.check_forLoop_eq_ok.mp h
      refine ⟨⟨inner, hcheck, ?_⟩, List.subset_append_right _ _⟩
      rw [Node.scope?, Option.getD_some, Scope.ofBody, Checker.leaves_of_ok hcheck]
      exact inner.le_refl
    | otherwise =>
      rw [Node.check, ElseChain.check] at h
      refine .of_le hle hdeclared h table'.le_refl ?_
      rw [Node.declared, Node.declared, ElseChain.declared]
      exact List.Subset.refl _
    | elseIf c orElse =>
      obtain ⟨-, table₁, hcheck, horElse⟩ := ElseChain.check_elseIf_eq_ok.mp h
      refine .of_le hle hdeclared hcheck (orElse.grows_check.extends horElse).keeps ?_
      rw [Node.declared, Node.declared, ElseChain.declared]
      exact List.subset_append_left _ _
  | stmt t =>
    obtain ⟨body, k, rfl, rfl, hk⟩ := Node.child_eq_stmt hchild
    obtain ⟨table₁, htake, hdrop⟩ := Stmt.checkAll_take h k
    obtain ⟨hlt, rfl⟩ := List.getElem?_eq_some_iff.mp hk
    rw [List.drop_eq_getElem_cons hlt, Stmt.checkAll, Checker.seq_eq_ok] at hdrop
    obtain ⟨table₂, ht, hmore⟩ := hdrop
    rw [tableBefore, Checker.leaves_of_ok htake]
    exact .of_le hle hdeclared ht ((Stmt.grows_checkAll _).extends hmore).keeps
      (Stmt.declared_subset_declaredAll (List.getElem_mem hlt))
  | chain c =>
    obtain ⟨rfl, hchain⟩ := Node.child_eq_chain hchild
    cases hchain with
    | branch d body =>
      obtain ⟨-, table₁, hbody, hcheck⟩ := Stmt.check_branch_eq_ok.mp h
      rw [tableBefore, Checker.leaves_of_ok hbody]
      refine .of_le hle hdeclared hcheck table'.le_refl ?_
      rw [Node.declared, Node.declared, Stmt.declared]
      exact List.subset_append_right _ _
    | elseIf d body =>
      obtain ⟨-, table₁, hbody, hcheck⟩ := ElseChain.check_elseIf_eq_ok.mp h
      rw [tableBefore, Checker.leaves_of_ok hbody]
      refine .of_le hle hdeclared hcheck table'.le_refl ?_
      rw [Node.declared, Node.declared, ElseChain.declared]
      exact List.subset_append_right _ _
  | condition | expr =>
    -- Neither is a body, so no scope is opened.
    have hnone : node.scope? table s = none := by
      cases hopens : node.scope? table s with
      | none => rfl
      | some inner =>
        obtain ⟨x, start, stop, body, rfl, rfl, -⟩ := Node.scope?_eq_some hopens
        cases hchild
    rw [hnone]
    exact .of_le hle hdeclared rfl (Node.extends_tableBefore h hnone).2 (List.nil_subset _)

/-! ## Points of an accepted program -/

variable {p : Program} {q : Point}

theorem Program.tableAt_cons (hq : p.nodeAt? q = some node) (s : Part) :
    p.tableAt (s :: q) = node.tableBefore (p.tableAt q) s := by
  rw [tableAt, hq]

theorem Program.scopes_cons (hq : p.nodeAt? q = some node) (s : Part) :
    p.scopes (s :: q) = (node.scope? (p.tableAt q) s).toList ++ p.scopes q := by
  rw [scopes, hq, Option.bind_some]

/-- In an accepted program the check of every node goes through, from the table of its point. -/
theorem Program.exists_check (h : p.check = .ok ()) (hq : p.nodeAt? q = some node) :
    ∃ scope outer, p.scopes q = scope :: outer ∧ node.CheckedIn (p.tableAt q) scope := by
  induction q generalizing node with
  | nil =>
    cases hq
    obtain ⟨table', hc⟩ := Program.check_eq_ok.mp h
    refine ⟨.ofBody [] p.body .empty, [], rfl, ⟨table', hc, ?_⟩, List.Subset.refl _⟩
    rw [Scope.ofBody, Checker.leaves_of_ok hc]
    exact table'.le_refl
  | cons s q ih =>
    obtain ⟨parent, hparent, hchild⟩ := Program.nodeAt?_tail hq
    obtain ⟨scope, outer, hscopes, hchecked⟩ := ih hparent
    rw [Program.tableAt_cons hparent, Program.scopes_cons hparent, hscopes]
    have hchild := hchecked.child hchild
    cases hopens : parent.scope? (p.tableAt q) s with
    | none =>
      rw [hopens] at hchild
      exact ⟨scope, outer, rfl, hchild⟩
    | some inner =>
      rw [hopens] at hchild
      exact ⟨inner, scope :: outer, rfl, hchild⟩

theorem Program.exists_check_ok (h : p.check = .ok ()) (hq : p.nodeAt? q = some node) :
    ∃ table', node.check (p.tableAt q) = .ok () table' := by
  obtain ⟨scope, outer, -, ⟨table', hcheck, -⟩, -⟩ := exists_check h hq
  exact ⟨table', hcheck⟩

theorem typeIn_cons_of_mem {scope : Scope} {outer : List Scope} {x : String}
    (h : x ∈ scope.names) : typeIn (scope :: outer) x = scope.table.lookup x := if_pos h

theorem typeIn_cons_of_not_mem {scope : Scope} {outer : List Scope} {x : String}
    (h : x ∉ scope.names) : typeIn (scope :: outer) x = typeIn outer x := if_neg h

/-- From the point of a node to that of a part, what is said of variables stays in accord with the
scopes. -/
theorem Program.typeIn_scopes_cons (h : p.check = .ok ()) (hq : p.nodeAt? q = some node)
    (hnode : ∀ {x ty}, (p.tableAt q).lookup x = some ty → typeIn (p.scopes q) x = some ty)
    {x : String} {ty : Ty} (hx : (p.tableAt (s :: q)).lookup x = some ty) :
    typeIn (p.scopes (s :: q)) x = some ty := by
  rw [tableAt_cons hq] at hx
  rw [scopes_cons hq]
  cases hopens : node.scope? (p.tableAt q) s with
  | none =>
    obtain ⟨scope, outer, hscopes, ⟨table', hcheck, hle⟩, hdeclared⟩ := exists_check h hq
    obtain ⟨hextends, hle'⟩ := Node.extends_tableBefore hcheck hopens
    rcases hextends.adds hx with hold | hmem
    · exact hnode hold
    · -- A new entry is of a variable that the node declares, in the innermost scope.
      rw [hscopes]
      exact (typeIn_cons_of_mem (hdeclared hmem)).trans (hle (hle' hx))
  | some inner =>
    obtain ⟨counter, start, stop, body, rfl, rfl, rfl⟩ := Node.scope?_eq_some hopens
    by_cases hmem : x ∈ (Scope.ofBody [counter] body ((p.tableAt q).insert counter .number)).names
    · exact (typeIn_cons_of_mem hmem).trans ((Stmt.grows_checkAll body _).keeps hx)
    · have hne : x ≠ counter := fun he ↦ hmem (List.mem_append_left _ (List.mem_singleton.mpr he))
      rw [Node.tableBefore, SymbolTable.lookup_insert, if_neg hne] at hx
      exact (typeIn_cons_of_not_mem hmem).trans (hnode hx)

/-- What the table at a point says of a variable holds at the end of the innermost scope that has
the variable. -/
theorem Program.typeIn_scopes (h : p.check = .ok ()) (hq : p.nodeAt? q = some node)
    {x : String} {ty : Ty} (hx : (p.tableAt (s :: q)).lookup x = some ty) :
    typeIn (p.scopes (s :: q)) x = some ty := by
  induction q generalizing s node x ty with
  | nil =>
    refine typeIn_scopes_cons h hq (fun hnone ↦ ?_) hx
    rw [tableAt, SymbolTable.lookup_empty] at hnone
    cases hnone
  | cons s' q ih =>
    obtain ⟨parent, hparent, -⟩ := nodeAt?_tail hq
    exact typeIn_scopes_cons h hq (fun hx ↦ ih hparent hx) hx

end JPlusPlus
