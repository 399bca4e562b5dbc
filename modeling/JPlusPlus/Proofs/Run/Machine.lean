import JPlusPlus.Proofs.Run.Point
import JPlusPlus.Proofs.Run.Value

/-!
# Runs

A run goes from point to point and keeps a value for each variable that has been set. The bodies of
conditionals and of loops under a condition share the variables around them. The body of a counting
loop has variables of its own, the counter and what is declared in it, and they are new in each
round. A declaration sets its variable, to 0 when it has no first value.

A name stands for the variable of the innermost scope that declares it, set or not. A variable that
is declared further out under the same name does not stand in for one whose declaration has not been
run; reading such a variable ends the run.

What numbers are and which comparisons hold is left open: a comparison may hold of any two values.
-/

namespace JPlusPlus

variable {N : Type}

/-! ## Stores -/

/-- The variables of a scope, and the values of those that have been set. -/
structure Frame (N : Type) where
  /-- The variables. -/
  names : List String
  /-- The value of a variable, if it has been set. -/
  value : String → Option (Value N)

/-- The variables of a body and the given further ones, none of them set. -/
def Frame.ofBody (names : List String) (body : List Stmt) : Frame N :=
  ⟨names ++ Stmt.declaredAll body, fun _ ↦ none⟩

/-- Sets a variable. -/
def Frame.set (frame : Frame N) (x : String) (v : Value N) : Frame N :=
  { frame with value := fun y ↦ if y = x then some v else frame.value y }

/-- The variables of all scopes around a point, the innermost scope first. -/
abbrev Store (N : Type) := List (Frame N)

/-- The value of a variable in the innermost scope that has it. -/
def Store.read : Store N → String → Option (Value N)
  | [], _ => none
  | frame :: outer, x => if x ∈ frame.names then frame.value x else Store.read outer x

/-- Sets a variable in the innermost scope that has it. -/
def Store.set : Store N → String → Value N → Store N
  | [], _, _ => []
  | frame :: outer, x, v =>
    if x ∈ frame.names then frame.set x v :: outer else frame :: Store.set outer x v

/-- How far a run has come. -/
structure State (N : Type) where
  /-- The point that the run has come to. -/
  point : Point
  /-- The variables around that point. -/
  store : Store N

/-! ## Machines -/

/-- What a run depends on beside the program. -/
structure Machine (N : Type) extends Numbers N where
  /-- Which comparisons hold. -/
  compare : CompareOp → Value N → Value N → Bool

variable (machine : Machine N)

/-- Whether a condition holds. -/
def Condition.holds (read : String → Option (Value N)) (c : Condition) : Except Halt Bool := do
  let l ← c.left.eval machine.toNumbers read
  let r ← c.right.eval machine.toNumbers read
  return machine.compare c.op l r

/-- The first value of a variable. -/
def firstValue (read : String → Option (Value N)) : Option Expr → Except Halt (Value N)
  | some e => e.eval machine.toNumbers read
  | none => .ok (.number (machine.ofDigits "0"))

/-- The point after the statement at a point, or after the conditional that a branch belongs to. -/
def afterStmt : Point → Point
  | .stmt k :: q => .stmt (k + 1) :: q
  | .orElse :: q => afterStmt q
  | q => q

namespace Node

/-- The part of the node is the body of a loop. -/
def isLoopBody : Node → Part → Bool
  | stmt (.whileLoop _ _), .body | stmt (.forLoop _ _ _ _), .body => true
  | _, _ => false

end Node

namespace Program

variable (p : Program)

/-- The innermost loop whose body a point lies in. -/
def loop? : Point → Option Point
  | [] => none
  | s :: q => if (p.nodeAt? q).any (·.isLoopBody s) then some q else loop? q

/-- Leaves the loop at a point, with the variables of its body. -/
def leave (q : Point) (store : Store N) : State N :=
  match p.nodeAt? q with
  | some (.stmt (.forLoop _ _ _ _)) => ⟨afterStmt q, store.tail⟩
  | _ => ⟨afterStmt q, store⟩

/-- Comes to the end of a body of what stands at a point, with the variables of the body. The next
round of a counting loop has the next number for its counter and no other variable set. -/
def again (q : Point) (store : Store N) : Except Halt (Option (State N)) :=
  match p.nodeAt? q, store with
  | some (.stmt (.forLoop counter _ _ body)), frame :: outer => do
    -- The body may have assigned to the counter.
    let v ← readValue frame.value counter
    let v ← machine.operate .add v (.number (machine.ofDigits "1"))
    return some ⟨.body :: q, (Frame.ofBody [counter] body).set counter v :: outer⟩
  | some (.stmt (.whileLoop _ _)), _ => return some ⟨q, store⟩
  | some _, _ => return some ⟨afterStmt q, store⟩
  | none, _ => return none

/-- Starts a round of the counting loop at a point, or leaves the loop. The bound is found each
time, with the variables around the loop. -/
def round (q : Point) (store : Store N) : Except Halt (Option (State N)) :=
  match p.nodeAt? q, store with
  | some (.stmt (.forLoop counter _ stop _)), frame :: outer => do
    let v ← readValue frame.value counter
    let w ← stop.eval machine.toNumbers (Store.read outer)
    return some (if machine.compare .less v w then ⟨.stmt 0 :: .body :: q, store⟩
      else ⟨afterStmt q, outer⟩)
  | _, _ => return none

/-- Goes on where no statement stands: at the end of a body, and before a round of a counting loop.
At the end of the program the run is over. -/
def resume (s : State N) : Except Halt (Option (State N)) :=
  match s.point with
  | .stmt _ :: .body :: q => p.again machine q s.store
  | .body :: q => p.round machine q s.store
  | _ => return none

/-- One step of a run. Outside of loops a `break` or a `continue` ends the run. -/
def step (s : State N) : Except Halt (Option (State N)) :=
  match p.nodeAt? s.point with
  | some (.stmt (.declare x value)) => do
    let v ← firstValue machine (Store.read s.store) value
    return some ⟨afterStmt s.point, Store.set s.store x v⟩
  | some (.stmt (.assign x e)) => do
    let v ← e.eval machine.toNumbers (Store.read s.store)
    return some ⟨afterStmt s.point, Store.set s.store x v⟩
  | some (.stmt (.print e)) => do
    let _ ← e.eval machine.toNumbers (Store.read s.store)
    return some ⟨afterStmt s.point, s.store⟩
  | some (.stmt (.branch c _ _)) | some (.chain (.elseIf c _ _)) => do
    let holds ← c.holds machine (Store.read s.store)
    return some ⟨if holds then .stmt 0 :: .body :: s.point else .orElse :: s.point, s.store⟩
  | some (.stmt (.whileLoop c _)) => do
    let holds ← c.holds machine (Store.read s.store)
    return some ⟨if holds then .stmt 0 :: .body :: s.point else afterStmt s.point, s.store⟩
  | some (.stmt (.forLoop counter start _ body)) => do
    let v ← start.eval machine.toNumbers (Store.read s.store)
    return some ⟨.body :: s.point, (Frame.ofBody [counter] body).set counter v :: s.store⟩
  | some (.stmt .break) => return (p.loop? s.point).map fun q ↦ p.leave q s.store
  | some (.stmt .continue) =>
    match p.loop? s.point with
    | some q => p.again machine q s.store
    | none => return none
  | some (.chain .nothing) => return some ⟨afterStmt s.point, s.store⟩
  | some (.chain (.otherwise _)) => return some ⟨.stmt 0 :: .body :: s.point, s.store⟩
  | _ => p.resume machine s

/-- The state that a run starts from. -/
def initial : State N := ⟨[.stmt 0], [Frame.ofBody [] p.body]⟩

/-- The states that a run comes to. -/
inductive Reaches : State N → Prop where
  /-- The run starts there. -/
  | start : Reaches p.initial
  /-- One more step. -/
  | next {s s' : State N} : Reaches s → p.step machine s = .ok (some s') → Reaches s'

end Program

end JPlusPlus
