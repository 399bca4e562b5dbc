import JPlusPlus.Proofs.Run.Machine

/-!
# Runs of accepted programs

In a run of an accepted program every variable that is set holds a value of the type that the check
has for it, and no operator is applied to an operand of another type, as long as every counting loop
that the run comes to starts at a number. The check does not see to this last point. It records the
counter of a loop as a number whatever the type of its first value is, and where that is a string
the counter holds a string.

What a step preserves is that the variables fit the scopes around the point. That they fit the table
at the point follows. The other way round would not do: in a second round of a loop variables may be
set that the table at the point does not have.

## Main statements

* `Program.sound_step`: what one step preserves.
* `Program.Reaches.fitsAt`: what holds in all states of a run.
-/

namespace JPlusPlus

variable {N : Type} {machine : Machine N} {p : Program}

/-! ## Stores that fit their scopes -/

/-- The variables are those of the scope, and those that are set have the types of the scope. -/
structure Frame.Fits (frame : Frame N) (scope : Scope) : Prop where
  /-- The variables are the same. -/
  names : frame.names = scope.names
  /-- A variable that is set has its type. -/
  typed : ∀ {x v}, frame.value x = some v → scope.table.lookup x = some v.ty

/-- The variables fit the scopes, one by one. -/
inductive StoreFits : List Scope → Store N → Prop where
  | nil : StoreFits [] []
  | cons {scope : Scope} {scopes : List Scope} {frame : Frame N} {store : Store N} :
      frame.Fits scope → StoreFits scopes store → StoreFits (scope :: scopes) (frame :: store)

theorem Frame.fits_ofBody (names : List String) (body : List Stmt) (table : SymbolTable) :
    (Frame.ofBody names body : Frame N).Fits (.ofBody names body table) :=
  ⟨rfl, fun hx ↦ nomatch hx⟩

theorem Frame.Fits.set {frame : Frame N} {scope : Scope} (h : frame.Fits scope) {x : String}
    {v : Value N} (hx : scope.table.lookup x = some v.ty) : (frame.set x v).Fits scope where
  names := h.names
  typed {y w} hy := by
    rw [Frame.set] at hy
    dsimp only at hy
    by_cases hyx : y = x
    · rw [if_pos hyx] at hy
      cases hy
      rwa [hyx]
    · rw [if_neg hyx] at hy
      exact h.typed hy

/-- A value that is read is of the type that its scope gives the variable. -/
theorem StoreFits.typeIn_of_read {scopes : List Scope} {store : Store N}
    (h : StoreFits scopes store) {x : String} {v : Value N} (hx : Store.read store x = some v) :
    typeIn scopes x = some v.ty := by
  induction h with
  | nil => cases hx
  | @cons scope scopes frame store hframe _ ih =>
    rw [Store.read, hframe.names] at hx
    by_cases hmem : x ∈ scope.names
    · rw [if_pos hmem] at hx
      exact (typeIn_cons_of_mem hmem).trans (hframe.typed hx)
    · rw [if_neg hmem] at hx
      exact (typeIn_cons_of_not_mem hmem).trans (ih hx)

/-- Setting a variable to a value of its type keeps the fit. -/
theorem StoreFits.set {scopes : List Scope} {store : Store N} (h : StoreFits scopes store)
    {x : String} {v : Value N} (hx : typeIn scopes x = some v.ty) :
    StoreFits scopes (Store.set store x v) := by
  induction h with
  | nil => cases hx
  | @cons scope scopes frame store hframe hstore ih =>
    rw [Store.set, hframe.names]
    by_cases hmem : x ∈ scope.names
    · rw [if_pos hmem]
      rw [typeIn_cons_of_mem hmem] at hx
      exact .cons (hframe.set hx) hstore
    · rw [if_neg hmem]
      rw [typeIn_cons_of_not_mem hmem] at hx
      exact .cons hframe (ih hx)

/-! ## Points that a run can come to -/

/-- The point is one in something: a part that is there, or the end of a body. -/
def Program.Inside (p : Program) (point : Point) : Prop :=
  ∃ s q node, point = s :: q ∧ p.nodeAt? q = some node

/-- The point is one in the program, and the variables fit the scopes around it. -/
structure Program.FitsAt (p : Program) (point : Point) (store : Store N) : Prop where
  /-- The point is one in the program. -/
  inside : p.Inside point
  /-- The variables fit the scopes. -/
  fits : StoreFits (p.scopes point) store

theorem Program.inside_cons {q : Point} {node : Node} (hq : p.nodeAt? q = some node) (s : Part) :
    p.Inside (s :: q) :=
  ⟨s, q, node, rfl, hq⟩

theorem Program.inside_of_stmt {q : Point} {t : Stmt} (hq : p.nodeAt? q = some (.stmt t)) :
    p.Inside q := by
  cases q with
  | nil => cases hq
  | cons s q =>
    obtain ⟨parent, hparent, -⟩ := nodeAt?_tail hq
    exact inside_cons hparent s

theorem Program.Inside.typeIn_scopes (h : p.check = .ok ()) {point : Point} (hin : p.Inside point)
    {x : String} {ty : Ty} (hx : (p.tableAt point).lookup x = some ty) :
    typeIn (p.scopes point) x = some ty := by
  obtain ⟨s, q, node, rfl, hq⟩ := hin
  exact p.typeIn_scopes h hq hx

/-- The table at a point fits what is read there. -/
theorem Program.FitsAt.fits_tableAt (h : p.check = .ok ()) {point : Point} {store : Store N}
    (hs : p.FitsAt point store) : Fits (p.tableAt point) (Store.read store) := by
  intro x ty v hx hv
  have hread := hs.fits.typeIn_of_read hv
  exact Option.some.inj (hread.symm.trans (hs.inside.typeIn_scopes h hx))

section Moves

variable {s : Part} {q : Point} {node : Node} {store : Store N}

/-- A part that opens no scope lies in the scopes of its node. -/
theorem Program.scopes_of_scope?_eq_none (hq : p.nodeAt? q = some node)
    (hs : node.scope? (p.tableAt q) s = none) : p.scopes (s :: q) = p.scopes q := by
  rw [scopes_cons hq, hs]
  rfl

/-- To a part that opens no scope. -/
theorem Program.fits_part (hq : p.nodeAt? q = some node)
    (hs : node.scope? (p.tableAt q) s = none) (hstore : StoreFits (p.scopes q) store) :
    p.FitsAt (s :: q) store := by
  refine ⟨inside_cons hq s, ?_⟩
  rwa [scopes_of_scope?_eq_none hq hs]

/-- To the first statement of a body that opens no scope. -/
theorem Program.fits_body {body : List Stmt} (hq : p.nodeAt? q = some node)
    (hchild : node.child .body = some (.block body))
    (hs : node.scope? (p.tableAt q) .body = none) (hstore : StoreFits (p.scopes q) store) :
    p.FitsAt (.stmt 0 :: .body :: q) store := by
  have hbody : p.nodeAt? (.body :: q) = some (.block body) := by rw [nodeAt?_cons hq, hchild]
  exact fits_part hbody rfl (fits_part hq hs hstore).fits

/-- To what follows a statement. -/
theorem Program.fits_afterStmt {t : Stmt} (hq : p.nodeAt? q = some (.stmt t))
    (hstore : StoreFits (p.scopes q) store) : p.FitsAt (afterStmt q) store := by
  cases q with
  | nil => cases hq
  | cons s q =>
    obtain ⟨parent, hparent, hchild⟩ := nodeAt?_tail hq
    obtain ⟨body, k, rfl, rfl, -⟩ := Node.child_eq_stmt hchild
    rw [scopes_of_scope?_eq_none hparent rfl] at hstore
    exact fits_part hparent rfl hstore

/-- To what follows the conditional that a branch belongs to. -/
theorem Program.fits_afterStmt_chain {chain : ElseChain} (hq : p.nodeAt? q = some (.chain chain))
    (hstore : StoreFits (p.scopes q) store) : p.FitsAt (afterStmt q) store := by
  induction q generalizing chain with
  | nil => cases hq
  | cons s q ih =>
    obtain ⟨parent, hparent, hchild⟩ := nodeAt?_tail hq
    obtain ⟨rfl, hchain⟩ := Node.child_eq_chain hchild
    rw [afterStmt]
    cases hchain with
    | branch c body =>
      rw [scopes_of_scope?_eq_none hparent rfl] at hstore
      exact fits_afterStmt hparent hstore
    | elseIf c body =>
      rw [scopes_of_scope?_eq_none hparent rfl] at hstore
      exact ih hparent hstore

end Moves

/-! ## Results of steps -/

/-- An evaluation comes to a result of this kind, or to a variable that is not set. -/
def Yields {α : Type} (kind : α → Prop) (result : Except Halt α) : Prop :=
  (∃ a, result = .ok a ∧ kind a) ∨ ∃ x, result = .error (.unset x)

/-- The run goes on with variables that fit their scopes, or it ends, but not because an operator
was applied to an operand of another type. -/
def Program.Sound (p : Program) : Except Halt (Option (State N)) → Prop
  | .ok (some s) => p.FitsAt s.point s.store
  | .ok none => True
  | .error halt => halt ≠ .misapplied

theorem Program.Sound.bind {α : Type} {kind : α → Prop} {first : Except Halt α}
    {next : α → Except Halt (Option (State N))} (hfirst : Yields kind first)
    (hnext : ∀ a, kind a → p.Sound (next a)) : p.Sound (first >>= next) := by
  rcases hfirst with ⟨a, rfl, ha⟩ | ⟨x, rfl⟩
  · exact hnext a ha
  · exact fun he ↦ nomatch he

theorem yields_eval {table : SymbolTable} {read : String → Option (Value N)} {e : Expr} {ty : Ty}
    (numbers : Numbers N) (hfits : Fits table read) (htype : e.infer table = .ok ty) :
    Yields (·.ty = ty) (e.eval numbers read) :=
  (e.eval_of_infer numbers hfits htype).imp_right fun ⟨x, hx, _⟩ ↦ ⟨x, hx⟩

theorem yields_firstValue {table : SymbolTable} {read : String → Option (Value N)}
    {value : Option Expr} {ty : Ty} (hfits : Fits table read) (htype : FirstType table ty value) :
    Yields (·.ty = ty) (firstValue machine read value) := by
  cases value with
  | none =>
    cases htype
    exact .inl ⟨_, rfl, rfl⟩
  | some e => exact yields_eval machine.toNumbers hfits htype

theorem yields_holds {table : SymbolTable} {read : String → Option (Value N)} {c : Condition}
    (hfits : Fits table read)
    (htypes : ∃ l r, c.left.infer table = .ok l ∧ c.right.infer table = .ok r) :
    Yields (fun _ ↦ True) (c.holds machine read) := by
  obtain ⟨l, r, hl, hr⟩ := htypes
  rw [Condition.holds]
  rcases yields_eval machine.toNumbers hfits hl with ⟨v, hv, -⟩ | ⟨x, hx⟩
  · rcases yields_eval machine.toNumbers hfits hr with ⟨w, hw, -⟩ | ⟨x, hx⟩
    · rw [hv, hw]
      exact .inl ⟨_, rfl, trivial⟩
    · rw [hv, hx]
      exact .inr ⟨x, rfl⟩
  · rw [hx]
    exact .inr ⟨x, rfl⟩

theorem Scope.lookup_counter (counter : String) (body : List Stmt) (table : SymbolTable) :
    (Scope.ofBody [counter] body (table.insert counter .number)).table.lookup counter =
      some .number := by
  refine (Stmt.grows_checkAll body _).keeps ?_
  rw [SymbolTable.lookup_insert, if_pos rfl]

/-- The counter of a loop is a number when it is set. -/
theorem yields_counter {frame : Frame N} {counter : String} {body : List Stmt} {table : SymbolTable}
    (h : frame.Fits (.ofBody [counter] body (table.insert counter .number))) :
    Yields (·.ty = .number) (readValue frame.value counter) := by
  rw [readValue]
  cases hv : frame.value counter with
  | none => exact .inr ⟨counter, rfl⟩
  | some v =>
    have hty := (h.typed hv).symm.trans (Scope.lookup_counter counter body table)
    exact .inl ⟨v, rfl, Option.some.inj hty⟩

theorem yields_operate {op : ArithOp} {v w : Value N} (numbers : Numbers N) (hv : v.ty = .number)
    (hw : w.ty = .number) : Yields (·.ty = .number) (numbers.operate op v w) := by
  obtain ⟨a, rfl⟩ := Value.eq_number hv
  obtain ⟨b, rfl⟩ := Value.eq_number hw
  exact .inl ⟨_, rfl, rfl⟩

/-! ## Loops -/

theorem Node.eq_body_of_isLoopBody {node : Node} {s : Part} (h : node.isLoopBody s = true) :
    s = .body := by
  unfold isLoopBody at h
  split at h
  · rfl
  · rfl
  · cases h

theorem Node.child_of_isLoopBody {node : Node} (h : node.isLoopBody .body = true) :
    ∃ part, node.child .body = some part := by
  unfold isLoopBody at h
  split at h
  · exact ⟨_, rfl⟩
  · exact ⟨_, rfl⟩
  · cases h

theorem Node.scope?_stmt (node : Node) (table : SymbolTable) (k : Nat) :
    node.scope? table (.stmt k) = none := by
  unfold scope?
  split
  · next hs => cases hs
  · rfl

theorem Node.scope?_eq_none_of_not_isLoopBody {node : Node} {s : Part} {table : SymbolTable}
    (h : ¬node.isLoopBody s = true) : node.scope? table s = none := by
  cases hopens : node.scope? table s with
  | none => rfl
  | some scope =>
    obtain ⟨x, start, stop, body, rfl, rfl, -⟩ := Node.scope?_eq_some hopens
    exact absurd rfl h

section Loops

variable {q : Point} {store : Store N} {x : String} {start stop : Expr} {body : List Stmt}

theorem Program.scopes_forLoop (hq : p.nodeAt? q = some (.stmt (.forLoop x start stop body))) :
    p.scopes (.body :: q) =
      .ofBody [x] body ((p.tableAt q).insert x .number) :: p.scopes q := by
  rw [scopes_cons hq]
  rfl

/-- To a round of a counting loop with a number for its counter. -/
theorem Program.fits_round (hq : p.nodeAt? q = some (.stmt (.forLoop x start stop body)))
    (hstore : StoreFits (p.scopes q) store) {v : Value N} (hv : v.ty = .number) :
    p.FitsAt (.body :: q) ((Frame.ofBody [x] body).set x v :: store) := by
  refine ⟨inside_cons hq .body, ?_⟩
  rw [scopes_forLoop hq]
  refine .cons ((Frame.fits_ofBody _ _ _).set ?_) hstore
  rw [hv]
  exact Scope.lookup_counter x body _

theorem Program.sound_again_forLoop
    (hq : p.nodeAt? q = some (.stmt (.forLoop x start stop body)))
    (hstore : StoreFits (p.scopes (.body :: q)) store) : p.Sound (p.again machine q store) := by
  rw [scopes_forLoop hq] at hstore
  cases hstore with
  | @cons _ _ frame outer hframe houter =>
    simp only [again, hq]
    refine .bind (yields_counter hframe) fun v hv ↦ ?_
    refine .bind (yields_operate machine.toNumbers hv rfl) fun w hw ↦ ?_
    exact fits_round hq houter hw

/-- At the end of a body. -/
theorem Program.sound_again {node part : Node} (hq : p.nodeAt? q = some node)
    (hchild : node.child .body = some part) (hstore : StoreFits (p.scopes (.body :: q)) store) :
    p.Sound (p.again machine q store) := by
  obtain ⟨body, hbody⟩ := Node.hasBody_of_child hchild
  cases hbody with
  | branch c orElse =>
    rw [scopes_of_scope?_eq_none hq rfl] at hstore
    simp only [again, hq]
    exact fits_afterStmt hq hstore
  | whileLoop c =>
    rw [scopes_of_scope?_eq_none hq rfl] at hstore
    simp only [again, hq]
    exact ⟨inside_of_stmt hq, hstore⟩
  | forLoop x start stop => exact sound_again_forLoop hq hstore
  | otherwise =>
    rw [scopes_of_scope?_eq_none hq rfl] at hstore
    simp only [again, hq]
    exact fits_afterStmt_chain hq hstore
  | elseIf c orElse =>
    rw [scopes_of_scope?_eq_none hq rfl] at hstore
    simp only [again, hq]
    exact fits_afterStmt_chain hq hstore

/-- The innermost loop around a point has the scopes of the point in its body. -/
theorem Program.scopes_of_loop? {point : Point} (h : p.loop? point = some q) :
    (∃ node, p.nodeAt? q = some node ∧ node.isLoopBody .body = true) ∧
      p.scopes point = p.scopes (.body :: q) := by
  induction point with
  | nil => cases h
  | cons s r ih =>
    rw [loop?] at h
    cases hr : p.nodeAt? r with
    | none =>
      rw [hr, if_neg (by simp)] at h
      rw [scopes, hr]
      exact ih h
    | some node =>
      by_cases hs : node.isLoopBody s = true
      · rw [hr, if_pos (by simpa using hs)] at h
        cases h
        obtain rfl := Node.eq_body_of_isLoopBody hs
        exact ⟨⟨node, hr, hs⟩, rfl⟩
      · rw [hr, if_neg (by simpa using hs)] at h
        rw [scopes_of_scope?_eq_none hr (Node.scope?_eq_none_of_not_isLoopBody hs)]
        exact ih h

theorem Program.sound_round (h : p.check = .ok ())
    (hstore : StoreFits (p.scopes (.body :: q)) store) : p.Sound (p.round machine q store) := by
  unfold round
  split
  · next x start stop body frame outer hq =>
    rw [scopes_forLoop hq] at hstore
    cases hstore with
    | cons hframe houter =>
      obtain ⟨scope, -, -, ⟨table', hcheck, -⟩, -⟩ := p.exists_check h hq
      obtain ⟨⟨a, b, inner, -, hstop, -⟩, -⟩ := Stmt.check_forLoop_eq_ok.mp hcheck
      -- The bound is found with the variables around the loop, as it was checked.
      have hfits : Fits (p.tableAt q) (Store.read outer) :=
        Program.FitsAt.fits_tableAt h ⟨inside_of_stmt hq, houter⟩
      refine .bind (yields_counter hframe) fun v hv ↦ ?_
      refine .bind (yields_eval machine.toNumbers hfits hstop) fun w hw ↦ ?_
      by_cases hless : machine.compare .less v w = true
      · rw [if_pos hless]
        have hbody : p.nodeAt? (.body :: q) = some (.block body) := nodeAt?_cons hq .body
        refine fits_part hbody rfl ?_
        rw [scopes_forLoop hq]
        exact .cons hframe houter
      · rw [if_neg hless]
        exact fits_afterStmt hq houter
  · trivial

theorem Program.sound_leave (h : ∃ node, p.nodeAt? q = some node ∧ node.isLoopBody .body = true)
    (hstore : StoreFits (p.scopes (.body :: q)) store) :
    p.FitsAt (p.leave q store).point (p.leave q store).store := by
  obtain ⟨node, hq, hloop⟩ := h
  unfold Node.isLoopBody at hloop
  split at hloop
  · rw [scopes_of_scope?_eq_none hq rfl] at hstore
    simp only [leave, hq]
    exact fits_afterStmt hq hstore
  · rw [scopes_forLoop hq] at hstore
    simp only [leave, hq]
    cases hstore with
    | cons hframe houter => exact fits_afterStmt hq houter
  · cases hloop

end Loops

/-! ## Steps -/

section Steps

variable {s : State N}

/-- A counting loop that starts in this state starts at a number. -/
def Program.StartsAtNumber (p : Program) (machine : Machine N) (s : State N) : Prop :=
  ∀ x start stop body v, p.nodeAt? s.point = some (.stmt (.forLoop x start stop body)) →
    start.eval machine.toNumbers (Store.read s.store) = .ok v → v.ty = .number

/-- A declaration sets a variable of the innermost scope. -/
theorem Program.sound_declare (h : p.check = .ok ()) (hs : p.FitsAt s.point s.store) {x : String}
    {value : Option Expr} (hnode : p.nodeAt? s.point = some (.stmt (.declare x value))) :
    p.Sound (do
      let v ← firstValue machine (Store.read s.store) value
      return some ⟨afterStmt s.point, Store.set s.store x v⟩) := by
  obtain ⟨scope, outer, hscopes, ⟨table', hcheck, hle⟩, hdeclared⟩ := p.exists_check h hnode
  rw [Node.check, Stmt.check, Checker.declare_eq_ok] at hcheck
  obtain ⟨ty, hty, -, rfl⟩ := hcheck
  refine .bind (yields_firstValue (hs.fits_tableAt h) hty) fun v hv ↦ ?_
  refine fits_afterStmt hnode (hs.fits.set ?_)
  have hmem : x ∈ scope.names := hdeclared (by simp [Node.declared, Stmt.declared])
  rw [hscopes, typeIn_cons_of_mem hmem, hv]
  exact hle (by rw [SymbolTable.lookup_insert, if_pos rfl])

/-- A condition is tested, and the run goes on at one of two points. -/
theorem Program.sound_test {table : SymbolTable} {c : Condition} {store : Store N}
    {yes no : Point} (hfits : Fits table (Store.read store))
    (htypes : ∃ l r, c.left.infer table = .ok l ∧ c.right.infer table = .ok r)
    (hyes : p.FitsAt yes store) (hno : p.FitsAt no store) :
    p.Sound (do
      let holds ← c.holds machine (Store.read store)
      return some ⟨if holds then yes else no, store⟩) := by
  refine .bind (yields_holds hfits htypes) fun holds _ ↦ ?_
  cases holds with
  | false => exact hno
  | true => exact hyes

/-- A counting loop starts, at a number. -/
theorem Program.sound_start (h : p.check = .ok ()) (hs : p.FitsAt s.point s.store)
    (hstart : p.StartsAtNumber machine s) {x : String} {start stop : Expr} {body : List Stmt}
    (hnode : p.nodeAt? s.point = some (.stmt (.forLoop x start stop body))) :
    p.Sound (do
      let v ← start.eval machine.toNumbers (Store.read s.store)
      return some ⟨.body :: s.point, (Frame.ofBody [x] body).set x v :: s.store⟩) := by
  obtain ⟨table', hcheck⟩ := p.exists_check_ok h hnode
  obtain ⟨⟨a, b, inner, hty, -⟩, -⟩ := Stmt.check_forLoop_eq_ok.mp hcheck
  have hyields : Yields (·.ty = .number) (start.eval machine.toNumbers (Store.read s.store)) := by
    rcases yields_eval machine.toNumbers (hs.fits_tableAt h) hty with ⟨v, hv, -⟩ | hunset
    · exact .inl ⟨v, hv, hstart x start stop body v hnode hv⟩
    · exact .inr hunset
  exact .bind hyields fun v hv ↦ fits_round hnode hs.fits hv

theorem Program.sound_resume (h : p.check = .ok ()) (hs : p.FitsAt s.point s.store) :
    p.Sound (p.resume machine s) := by
  obtain ⟨hinside, hstore⟩ := hs
  unfold resume
  split
  · next k q hpoint =>
    rw [hpoint] at hinside hstore
    obtain ⟨s', q', node, hin, hq'⟩ := hinside
    cases hin
    rw [scopes_of_scope?_eq_none hq' (node.scope?_stmt _ k)] at hstore
    obtain ⟨parent, hq, hchild⟩ := nodeAt?_tail hq'
    exact sound_again hq hchild hstore
  · next q hpoint =>
    rw [hpoint] at hstore
    exact sound_round h hstore
  · trivial

/-- A step from variables that fit their scopes leads to such variables again, where no counting
loop starts at a string. -/
theorem Program.sound_step (h : p.check = .ok ()) (hs : p.FitsAt s.point s.store)
    (hstart : p.StartsAtNumber machine s) : p.Sound (p.step machine s) := by
  have hfits := hs.fits_tableAt h
  unfold step
  split
  · next x value hnode => exact sound_declare h hs hnode
  · next x e hnode =>
    obtain ⟨table', hcheck⟩ := p.exists_check_ok h hnode
    rw [Node.check, Stmt.check, Checker.assign_eq_ok] at hcheck
    obtain ⟨⟨ty, hx, hty⟩, -⟩ := hcheck
    refine .bind (yields_eval machine.toNumbers hfits hty) fun v hv ↦ ?_
    -- The scope of the variable may be further out, and has the type of the point for it.
    refine fits_afterStmt hnode (hs.fits.set ?_)
    rw [hv]
    exact hs.inside.typeIn_scopes h hx
  · next e hnode =>
    obtain ⟨table', hcheck⟩ := p.exists_check_ok h hnode
    obtain ⟨⟨ty, hty⟩, -⟩ := Stmt.check_print_eq_ok.mp hcheck
    refine .bind (yields_eval machine.toNumbers hfits hty) fun v _ ↦ ?_
    exact fits_afterStmt hnode hs.fits
  · next c body orElse hnode =>
    obtain ⟨table', hcheck⟩ := p.exists_check_ok h hnode
    obtain ⟨htypes, -⟩ := Stmt.check_branch_eq_ok.mp hcheck
    exact sound_test hfits htypes (fits_body hnode rfl rfl hs.fits) (fits_part hnode rfl hs.fits)
  · next c body orElse hnode =>
    obtain ⟨table', hcheck⟩ := p.exists_check_ok h hnode
    obtain ⟨htypes, -⟩ := ElseChain.check_elseIf_eq_ok.mp hcheck
    exact sound_test hfits htypes (fits_body hnode rfl rfl hs.fits) (fits_part hnode rfl hs.fits)
  · next c body hnode =>
    obtain ⟨table', hcheck⟩ := p.exists_check_ok h hnode
    obtain ⟨htypes, -⟩ := Stmt.check_whileLoop_eq_ok.mp hcheck
    exact sound_test hfits htypes (fits_body hnode rfl rfl hs.fits) (fits_afterStmt hnode hs.fits)
  · next x start stop body hnode => exact sound_start h hs hstart hnode
  · next hnode =>
    cases hloop : p.loop? s.point with
    | none => trivial
    | some q =>
      obtain ⟨hq, hscopes⟩ := scopes_of_loop? hloop
      exact sound_leave hq (hscopes ▸ hs.fits)
  · next hnode =>
    split
    · next q hloop =>
      obtain ⟨⟨node, hq, hbody⟩, hscopes⟩ := scopes_of_loop? hloop
      obtain ⟨part, hpart⟩ := Node.child_of_isLoopBody hbody
      exact sound_again hq hpart (hscopes ▸ hs.fits)
    · trivial
  · next hnode => exact fits_afterStmt_chain hnode hs.fits
  · next body hnode => exact fits_body hnode rfl rfl hs.fits
  · exact sound_resume h hs

end Steps

/-! ## Runs -/

theorem Program.fits_initial (p : Program) :
    p.FitsAt (p.initial : State N).point (p.initial : State N).store := by
  have hroot : p.nodeAt? [] = some (.block p.body) := rfl
  refine ⟨inside_cons hroot _, ?_⟩
  rw [initial, scopes_of_scope?_eq_none hroot rfl]
  exact .cons (Frame.fits_ofBody [] p.body .empty) .nil

/-- In all states of a run the variables fit their scopes, when no counting loop starts at a string
in a state in which they do. -/
theorem Program.Reaches.fitsAt (h : p.check = .ok ())
    (hstart : ∀ s, p.Reaches machine s → p.FitsAt s.point s.store → p.StartsAtNumber machine s)
    {s : State N} (hs : p.Reaches machine s) : p.FitsAt s.point s.store := by
  induction hs with
  | start => exact p.fits_initial
  | @next s s' hs hstep ih =>
    have hsound := sound_step h ih (hstart s hs ih)
    rw [hstep] at hsound
    exact hsound

/-- Every variable that is set holds a value of the type that the check has for it. -/
structure Program.WellTyped (p : Program) (s : State N) : Prop where
  /-- A variable that can be read has the type that is recorded at the point. -/
  visible : ∀ x ty v, (p.tableAt s.point).lookup x = some ty → Store.read s.store x = some v →
    v.ty = ty
  /-- Every variable of every scope, hidden or not, has the type that is recorded at the end of its
  scope. -/
  scopes : StoreFits (p.scopes s.point) s.store

/-- The run is sound: in every state the variables are of their types, and the step from there
applies no operator to an operand of another type. -/
def Program.RunsSound (p : Program) (machine : Machine N) : Prop :=
  ∀ s, p.Reaches machine s → p.WellTyped s ∧ p.step machine s ≠ .error .misapplied

theorem Program.runsSound_of_startsAtNumber (h : p.check = .ok ())
    (hstart : ∀ s, p.Reaches machine s → p.FitsAt s.point s.store → p.StartsAtNumber machine s) :
    p.RunsSound machine := by
  intro s hs
  have hfits := hs.fitsAt h hstart
  refine ⟨⟨hfits.fits_tableAt h, hfits.fits⟩, fun hstep ↦ ?_⟩
  have hsound := sound_step h hfits (hstart s hs hfits)
  rw [hstep] at hsound
  exact hsound rfl

/-- In a sound run a counting loop starts at a number. -/
theorem Program.RunsSound.startsAtNumber (h : p.RunsSound machine) {s : State N}
    (hs : p.Reaches machine s) : p.StartsAtNumber machine s := by
  intro x start stop body v hnode hv
  have hstep : p.step machine s =
      .ok (some ⟨.body :: s.point, (Frame.ofBody [x] body).set x v :: s.store⟩) := by
    simp only [step, hnode, hv]
    rfl
  -- In the state after this one the counter holds the value and is recorded as a number.
  refine (h _ (hs.next hstep)).1.visible x .number v ?_ ?_
  · rw [tableAt_cons hnode, Node.tableBefore, SymbolTable.lookup_insert, if_pos rfl]
  · simp [Store.read, Frame.ofBody, Frame.set]

/-- The first value of every counting loop is a number by its type. -/
def Program.StartsTyped (p : Program) : Prop :=
  ∀ q x start stop body, p.nodeAt? q = some (.stmt (.forLoop x start stop body)) →
    start.infer (p.tableAt q) = .ok .number

/-- The runs of an accepted program are sound exactly when every counting loop that a run comes to
starts at a number, and so they are when the types of all first values say so. -/
theorem Program.runsSound_iff (machine : Machine N) (h : p.check = .ok ()) :
    (p.RunsSound machine ↔ ∀ s, p.Reaches machine s → p.StartsAtNumber machine s) ∧
      (p.StartsTyped → p.RunsSound machine) := by
  refine ⟨⟨fun hsound s hs ↦ hsound.startsAtNumber hs, fun hstart ↦ ?_⟩, fun htyped ↦ ?_⟩
  · exact runsSound_of_startsAtNumber h fun s hs _ ↦ hstart s hs
  · refine runsSound_of_startsAtNumber h fun s _ hfits x start stop body v hnode hv ↦ ?_
    have hty := htyped s.point x start stop body hnode
    rcases yields_eval machine.toNumbers (hfits.fits_tableAt h) hty with ⟨w, hw, hwty⟩ | ⟨y, hy⟩
    · rw [hv] at hw
      cases hw
      exact hwty
    · rw [hv] at hy
      cases hy

/-! ## A loop and its two starts -/

/-- Numbers in decimal, for which every comparison holds. -/
def Machine.decimal : Machine Nat where
  ofDigits digits := digits.toList.foldl (fun n c ↦ 10 * n + (c.toNat - '0'.toNat)) 0
  arith
    | .add, a, b => a + b
    | .sub, a, b => a - b
    | .mul, a, b => a * b
    | .div, a, b => a / b
  compare _ _ _ := true

theorem Node.no_stmt_in_expr {e : Expr} {place : Place} {t : Stmt}
    (h : (Node.expr e).at? place = some (.stmt t)) : False := by
  obtain ⟨b, hb⟩ := Node.exists_expr_of_at? h
  cases hb

/-- A program of one counting loop that prints has no other counting loop. -/
theorem Program.start_eq_of_forLoop_print {x y : String} {start start' stop stop' e : Expr}
    {body : List Stmt} {place : Place}
    (h : Program.at? ⟨[.forLoop x start stop [.print e]]⟩ place =
      some (.stmt (.forLoop y start' stop' body))) : start' = start := by
  -- Down from the program, every place but that of the loop has something else or nothing at all.
  rcases place with _ | ⟨s, place⟩
  · cases h
  obtain ⟨loop, hloop, h⟩ := Option.bind_eq_some_iff.mp h
  rcases s with (_ | k) | _ | _ | _ | _ | _ | _ | _ | _ <;> cases hloop
  rcases place with _ | ⟨s, place⟩
  · cases h
    rfl
  obtain ⟨part, hpart, h⟩ := Option.bind_eq_some_iff.mp h
  cases s <;> cases hpart
  · exact (Node.no_stmt_in_expr h).elim
  · exact (Node.no_stmt_in_expr h).elim
  rcases place with _ | ⟨s, place⟩
  · cases h
  obtain ⟨stmt, hstmt, h⟩ := Option.bind_eq_some_iff.mp h
  rcases s with (_ | k) | _ | _ | _ | _ | _ | _ | _ | _ <;> cases hstmt
  rcases place with _ | ⟨s, place⟩
  · cases h
  obtain ⟨value, hvalue, h⟩ := Option.bind_eq_some_iff.mp h
  cases s <;> cases hvalue
  exact (Node.no_stmt_in_expr h).elim

theorem Program.runsSound_numberStart :
    let p : Program := ⟨[.forLoop "i" (.number "1") (.number "5")
      [.print (.binary .add (.ident "i") (.number "1"))]]⟩
    p.check = .ok () ∧ p.RunsSound Machine.decimal := by
  intro p
  have hcheck : p.check = .ok () := rfl
  refine ⟨hcheck, (runsSound_iff Machine.decimal hcheck).2 fun q x start stop body hnode ↦ ?_⟩
  rw [start_eq_of_forLoop_print hnode]
  rfl

/-- A counting loop that starts at a string is accepted. Its counter is recorded as a number and
holds a string, to which the body adds a number. -/
theorem Program.not_runsSound_stringStart :
    let p : Program := ⟨[.forLoop "i" (.string "1") (.number "5")
      [.print (.binary .add (.ident "i") (.number "1"))]]⟩
    p.check = .ok () ∧ (∃ s, p.Reaches Machine.decimal s ∧ ¬p.WellTyped s) ∧
      ∃ s, p.Reaches Machine.decimal s ∧ p.step Machine.decimal s = .error .misapplied := by
  intro p
  have hstart : p.Reaches Machine.decimal ⟨[.body, .stmt 0],
      [(Frame.ofBody ["i"] [.print (.binary .add (.ident "i") (.number "1"))]).set "i"
        (.string "1"), Frame.ofBody [] p.body]⟩ := .next .start rfl
  refine ⟨rfl, ⟨_, hstart, fun hwell ↦ ?_⟩, _, .next hstart rfl, rfl⟩
  have hty := hwell.visible "i" .number (.string "1") rfl rfl
  cases hty

end JPlusPlus
