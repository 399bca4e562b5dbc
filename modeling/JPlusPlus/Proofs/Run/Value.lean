import JPlusPlus.Program.Lower
import JPlusPlus.Proofs.Script.Unique
import JPlusPlus.Proofs.Typing.Success

/-!
# Values

What expressions evaluate to, in programs and in scripts. In a program an operator has a value for
operands of its own type only. In a script every operator has a value for any operands: `+` adds two
numbers and concatenates two strings, and operands that do not fit are turned into numbers or into
strings first.

What numbers are is left open. Nothing here depends on how they are computed with, nor on what
becomes of an operand that is turned into another type: where an expression has a value in a
program, its script gets to that value without turning anything.

## Main statements

* `Expr.eval_of_infer`: an expression of a type has a value of that type, unless a name is unset.
* `Expr.eval_lower_of_eval`: the script of an expression has its value.

The two together, down to the text of the script, are the last statement.
-/

namespace JPlusPlus

/-! ## Values and numbers -/

/-- Values, over numbers of any kind. -/
inductive Value (N : Type) where
  /-- A number. -/
  | number (n : N)
  /-- A string. -/
  | string (text : String)
  deriving DecidableEq, Repr

/-- The type of a value. -/
def Value.ty {N : Type} : Value N → Ty
  | number _ => .number
  | string _ => .string

/-- A kind of numbers. -/
structure Numbers (N : Type) where
  /-- The number that digits stand for. -/
  ofDigits : String → N
  /-- What the arithmetic operators do. -/
  arith : ArithOp → N → N → N

/-- How a script turns values of one type into the other. -/
structure Coercions (N : Type) where
  /-- The text that stands for a number. -/
  toText : N → String
  /-- The number that a text stands for. -/
  toNumber : String → N

variable {N : Type} (numbers : Numbers N) (coercions : Coercions N)

/-! ## Evaluation in programs -/

/-- Why there is no value. -/
inductive Halt where
  /-- A variable is read that has no value. -/
  | unset (name : String)
  /-- An operator is applied to an operand of a type that is not its own. -/
  | misapplied
  deriving DecidableEq, Repr

/-- The value of an arithmetic operation, which is for numbers. -/
def Numbers.operate (op : ArithOp) : Value N → Value N → Except Halt (Value N)
  | .number a, .number b => .ok (.number (numbers.arith op a b))
  | _, _ => .error .misapplied

/-- The value of a concatenation, which is for strings. -/
def Value.join : Value N → Value N → Except Halt (Value N)
  | .string a, .string b => .ok (.string (a ++ b))
  | _, _ => .error .misapplied

/-- The value of a variable. -/
def readValue (read : String → Option (Value N)) (name : String) : Except Halt (Value N) :=
  match read name with
  | some v => .ok v
  | none => .error (.unset name)

/-- The value of an expression, with the values that variables have. -/
def Expr.eval (read : String → Option (Value N)) : Expr → Except Halt (Value N)
  | number digits => .ok (.number (numbers.ofDigits digits))
  | string value => .ok (.string value)
  | ident name => readValue read name
  | binary op left right => do
    let l ← left.eval read
    let r ← right.eval read
    numbers.operate op l r
  | concat left right => do
    let l ← left.eval read
    let r ← right.eval read
    l.join r

/-! ## Evaluation in scripts -/

namespace Script

/-- The number that a value is turned into where a number is needed. -/
def asNumber : Value N → N
  | .number n => n
  | .string text => coercions.toNumber text

/-- The text that a value is turned into where a string is needed. -/
def asText : Value N → String
  | .number n => coercions.toText n
  | .string text => text

/-- The value of an operation. A `+` with a string on one side is a concatenation; all other
operations are arithmetic. -/
def operate : ArithOp → Value N → Value N → Value N
  | .add, .number a, .number b => .number (numbers.arith .add a b)
  | .add, v, w => .string (asText coercions v ++ asText coercions w)
  | op, v, w => .number (numbers.arith op (asNumber coercions v) (asNumber coercions w))

/-- An operand is turned into another type: a `+` has one of each type, or another operator has a
string. -/
def Turns (op : ArithOp) (v w : Value N) : Prop :=
  if op = .add then v.ty ≠ w.ty else ¬(v.ty = .number ∧ w.ty = .number)

/-- The value of an expression, with the values that variables have. -/
def Expr.eval (read : String → Option (Value N)) : Expr → Except Halt (Value N)
  | number digits => .ok (.number (numbers.ofDigits digits))
  | string value => .ok (.string value)
  | ident name => readValue read name
  | binary op left right => do
    let l ← left.eval read
    let r ← right.eval read
    return operate numbers coercions op l r

/-- Somewhere in the expression an operand is turned into another type. -/
def Expr.Coerces (read : String → Option (Value N)) : Expr → Prop
  | number _ | string _ | ident _ => False
  | binary op left right => left.Coerces read ∨ right.Coerces read ∨
    ∃ v w, left.eval numbers coercions read = .ok v ∧
      right.eval numbers coercions read = .ok w ∧ Turns op v w

end Script

/-! ## Values of typed expressions -/

variable {numbers coercions} {read : String → Option (Value N)} {table : SymbolTable}

theorem Value.eq_number {v : Value N} (h : v.ty = .number) : ∃ n, v = .number n := by
  cases v with
  | number n => exact ⟨n, rfl⟩
  | string => cases h

theorem Value.eq_string {v : Value N} (h : v.ty = .string) : ∃ text, v = .string text := by
  cases v with
  | number => cases h
  | string text => exact ⟨text, rfl⟩

theorem Numbers.operate_eq_ok {op : ArithOp} {v w u : Value N} :
    numbers.operate op v w = .ok u ↔
      ∃ a b, v = .number a ∧ w = .number b ∧ u = .number (numbers.arith op a b) := by
  cases v <;> cases w <;> simp [operate, eq_comm]

theorem Value.join_eq_ok {v w u : Value N} :
    v.join w = .ok u ↔ ∃ a b, v = .string a ∧ w = .string b ∧ u = .string (a ++ b) := by
  cases v <;> cases w <;> simp [join, eq_comm]

/-- Variables that have a value have one of the type in the table. -/
def Fits (table : SymbolTable) (read : String → Option (Value N)) : Prop :=
  ∀ x ty v, table.lookup x = some ty → read x = some v → v.ty = ty

/-- The evaluation comes to a value of the type, or to a variable of the table that has no value. -/
def Evaluates (table : SymbolTable) (read : String → Option (Value N)) (ty : Ty)
    (result : Except Halt (Value N)) : Prop :=
  (∃ v, result = .ok v ∧ v.ty = ty) ∨
    ∃ x, result = .error (.unset x) ∧ table.contains x = true ∧ read x = none

/-- An operation on two operands of given types, when it has a value for all of these types. -/
theorem Evaluates.bind₂ {ty ty' : Ty} {left right : Except Halt (Value N)}
    {operate : Value N → Value N → Except Halt (Value N)}
    (hleft : Evaluates table read ty left) (hright : Evaluates table read ty right)
    (hoperate : ∀ v w, v.ty = ty → w.ty = ty → ∃ u, operate v w = .ok u ∧ u.ty = ty') :
    Evaluates table read ty' (do operate (← left) (← right)) := by
  rcases hleft with ⟨v, rfl, hv⟩ | ⟨x, rfl, hx⟩
  · rcases hright with ⟨w, rfl, hw⟩ | ⟨x, rfl, hx⟩
    · exact .inl (hoperate v w hv hw)
    · exact .inr ⟨x, rfl, hx⟩
  · exact .inr ⟨x, rfl, hx⟩

/-- An expression of a type evaluates to a value of that type, unless a variable is unset. -/
theorem Expr.eval_of_infer (numbers : Numbers N) {e : Expr} {ty : Ty} (hfits : Fits table read)
    (htype : e.infer table = .ok ty) : Evaluates table read ty (e.eval numbers read) := by
  induction e generalizing ty with
  | number digits =>
    cases htype
    exact .inl ⟨_, rfl, rfl⟩
  | string value =>
    cases htype
    exact .inl ⟨_, rfl, rfl⟩
  | ident x =>
    have hx := Expr.infer_ident_eq_ok.mp htype
    rw [eval, readValue]
    cases hread : read x with
    | none => exact .inr ⟨x, rfl, by rw [SymbolTable.contains, hx, Option.isSome_some], hread⟩
    | some v => exact .inl ⟨v, rfl, hfits x ty v hx hread⟩
  | binary op left right ihl ihr =>
    obtain ⟨hl, hr, rfl⟩ := Expr.infer_binary_eq_ok.mp htype
    refine .bind₂ (ihl hl) (ihr hr) fun v w hv hw ↦ ?_
    obtain ⟨a, rfl⟩ := Value.eq_number hv
    obtain ⟨b, rfl⟩ := Value.eq_number hw
    exact ⟨_, rfl, rfl⟩
  | concat left right ihl ihr =>
    obtain ⟨hl, hr, rfl⟩ := Expr.infer_concat_eq_ok.mp htype
    refine .bind₂ (ihl hl) (ihr hr) fun v w hv hw ↦ ?_
    obtain ⟨a, rfl⟩ := Value.eq_string hv
    obtain ⟨b, rfl⟩ := Value.eq_string hw
    exact ⟨_, rfl, rfl⟩

/-! ## Values of scripts -/

theorem bind_eq_ok {α β : Type} {first : Except Halt α} {next : α → Except Halt β} {b : β} :
    (first >>= next) = .ok b ↔ ∃ a, first = .ok a ∧ next a = .ok b := by
  cases first with
  | error halt => simp [bind, Except.bind]
  | ok a => simp [bind, Except.bind]

/-- An operation of a script on operands that need not be turned, from what it does there. -/
theorem Script.Expr.eval_binary {op : ArithOp} {left right : Script.Expr} {v w u : Value N}
    (hleft : left.eval numbers coercions read = .ok v ∧ ¬left.Coerces numbers coercions read)
    (hright : right.eval numbers coercions read = .ok w ∧ ¬right.Coerces numbers coercions read)
    (hu : operate numbers coercions op v w = u) (hfit : ¬Turns op v w) :
    (binary op left right).eval numbers coercions read = .ok u ∧
      ¬(binary op left right).Coerces numbers coercions read := by
  constructor
  · rw [eval, hleft.1, hright.1, ← hu]
    rfl
  · rintro (hc | hc | ⟨v', w', hv, hw, hturns⟩)
    · exact hleft.2 hc
    · exact hright.2 hc
    · rw [hleft.1] at hv
      rw [hright.1] at hw
      cases hv
      cases hw
      exact hfit hturns

/-- An expression that has a value has the same value in its script, where nothing is turned. -/
theorem Expr.eval_lower_of_eval (coercions : Coercions N) {e : Expr} {v : Value N}
    (h : e.eval numbers read = .ok v) :
    e.lower.eval numbers coercions read = .ok v ∧ ¬e.lower.Coerces numbers coercions read := by
  induction e generalizing v with
  | number | string | ident => exact ⟨h, fun hc ↦ hc⟩
  | binary op left right ihl ihr =>
    obtain ⟨l, hl, h⟩ := bind_eq_ok.mp h
    obtain ⟨r, hr, h⟩ := bind_eq_ok.mp h
    obtain ⟨a, b, rfl, rfl, rfl⟩ := Numbers.operate_eq_ok.mp h
    refine Script.Expr.eval_binary (ihl hl) (ihr hr) ?_ ?_
    · cases op <;> rfl
    · cases op <;> simp [Script.Turns, Value.ty]
  | concat left right ihl ihr =>
    -- The `+` that this becomes would add two numbers, but here are two strings.
    obtain ⟨l, hl, h⟩ := bind_eq_ok.mp h
    obtain ⟨r, hr, h⟩ := bind_eq_ok.mp h
    obtain ⟨a, b, rfl, rfl, rfl⟩ := Value.join_eq_ok.mp h
    refine Script.Expr.eval_binary (ihl hl) (ihr hr) rfl ?_
    simp [Script.Turns, Value.ty]

/-- An expression of a type has a value of that type when the variables of the table have values of
their types. Its script has the same value and turns no operand into another type, and when names
are words and numbers are digits, that is the value of whatever script has this text. -/
theorem Expr.eval_lower_of_infer {e : Expr} {ty : Ty} (htype : e.infer table = .ok ty)
    (hread : ∀ x t, table.lookup x = some t → ∃ v, read x = some v ∧ v.ty = t) :
    ∃ v, e.eval numbers read = .ok v ∧ v.ty = ty ∧
      e.lower.eval numbers coercions read = .ok v ∧ ¬e.lower.Coerces numbers coercions read ∧
      (e.hasForms plainForms = true → ∀ s : Script.Expr, s.hasForms plainForms = true →
        s.text = e.lower.text → s.eval numbers coercions read = .ok v) := by
  have hfits : Fits table read := by
    intro x t v hx hv
    obtain ⟨w, hw, ht⟩ := hread x t hx
    rw [hv] at hw
    cases hw
    exact ht
  rcases eval_of_infer numbers hfits htype with ⟨v, hv, hty⟩ | ⟨x, -, hx, hnone⟩
  · obtain ⟨hlower, hcoerces⟩ := eval_lower_of_eval coercions hv
    refine ⟨v, hv, hty, hlower, hcoerces, fun he s hs htext ↦ ?_⟩
    rw [← hasForms_lower] at he
    -- There is only one expression with this text.
    rw [Script.Expr.eq_of_text_eq hs he htext, hlower]
  · -- Every variable of the table has a value.
    obtain ⟨t, ht⟩ := Option.isSome_iff_exists.mp hx
    obtain ⟨v, hv, -⟩ := hread x t ht
    rw [hnone] at hv
    cases hv

/-- The concatenation of two strings that could be numbers, where `n` is a number. -/
theorem Expr.eval_lower_of_infer_digits :
    let numbers : Numbers Nat := ⟨String.length, fun _ a b ↦ a + b⟩
    let coercions : Coercions Nat := ⟨Nat.repr, String.length⟩
    let table := (SymbolTable.empty.insert "n" .number).insert "s" .string
    let read : String → Option (Value Nat) := fun x ↦
      if x = "s" then some (.string "2") else if x = "n" then some (.number 7) else none
    let e := Expr.concat (.string "1") (.ident "s")
    e.infer table = .ok .string ∧
      (∀ x t, table.lookup x = some t → ∃ v, read x = some v ∧ v.ty = t) ∧
      e.lower.eval numbers coercions read = .ok (.string "12") ∧
      ¬e.lower.Coerces numbers coercions read ∧
      ∀ s : Script.Expr, s.hasForms plainForms = true → s.text = e.lower.text →
        s.eval numbers coercions read = .ok (.string "12") := by
  intro numbers coercions table read e
  have htype : e.infer table = .ok .string := rfl
  have hread : ∀ x t, table.lookup x = some t → ∃ v, read x = some v ∧ v.ty = t := by
    intro x t hx
    rw [SymbolTable.lookup_insert, SymbolTable.lookup_insert] at hx
    by_cases hs : x = "s"
    · rw [if_pos hs] at hx
      cases hx
      exact ⟨.string "2", if_pos hs, rfl⟩
    by_cases hn : x = "n"
    · rw [if_neg hs, if_pos hn] at hx
      cases hx
      exact ⟨.number 7, (if_neg hs).trans (if_pos hn), rfl⟩
    · rw [if_neg hs, if_neg hn, SymbolTable.lookup_empty] at hx
      cases hx
  obtain ⟨v, hv, -, hlower, hcoerces, htext⟩ :=
    eval_lower_of_infer (e := e) htype hread
  have hvalue : v = .string "12" := Except.ok.inj (hv.symm.trans rfl)
  rw [hvalue] at hlower htext
  exact ⟨htype, hread, hlower, hcoerces, htext (by decide)⟩

end JPlusPlus
