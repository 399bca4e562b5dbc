import JPlusPlus.Program.Basic

/-!
# Readings

What the parser's functions give back. A function of the parser looks at the tokens from the left
and either reads a value from the front, leaving the tokens after it, or fails at a token. The type
of a reading bounds the number of tokens left, which is why the parser comes to an end.
-/

namespace JPlusPlus

/-- The places at which the opening brace of a body may be missing. -/
inductive BodyPlace where
  /-- After the condition of a conditional or a loop. -/
  | condition
  /-- After a further condition of a conditional. -/
  | elseIf
  /-- At the last branch of a conditional. -/
  | otherwise
  /-- After the bounds of a counting loop. -/
  | bounds
  deriving DecidableEq, Repr

/-- Why tokens are no program. -/
inductive ParseFault where
  /-- A declaration has no name. -/
  | noDeclaredName
  /-- No `=` follows the name that opens an assignment. -/
  | noAssign (name : String)
  /-- The tokens end where a printed value should stand. -/
  | noPrintedValue
  /-- A body does not open. -/
  | noBody (place : BodyPlace)
  /-- A counting loop has no variable. -/
  | noCounter
  /-- No `=` follows the variable of a counting loop. -/
  | noCounterAssign
  /-- No `tak` follows the first bound of a counting loop. -/
  | noSecondBound
  /-- No comparison follows the left side of a condition. -/
  | noComparison
  /-- A parenthesis does not close. -/
  | noClosingParen
  /-- The tokens end where an expression should stand. -/
  | endOfExpression
  /-- A token that opens no expression stands where one should. -/
  | unexpectedToken (text : String)
  /-- A loop is left or continued where there is none. -/
  | outsideLoop
  deriving DecidableEq, Repr

/-- What stands before a missing brace, in the wording of faults. -/
def BodyPlace.phrase : BodyPlace → String
  | condition => "condition"
  | elseIf => "\"nahi agar\""
  | otherwise => "\"nahi\""
  | bounds => "for condition"

/-- The wording of a fault. -/
def ParseFault.message : ParseFault → String
  | noDeclaredName => "Expected identifier after \"ye\""
  | noAssign name => "Expected \"=\" after identifier \"" ++ name ++ "\""
  | noPrintedValue => "Expected value after \"bol\""
  | noBody place => "Expected \"\x7b\" after " ++ place.phrase
  | noCounter => "Expected identifier in for loop"
  | noCounterAssign => "Expected \"=\" in for loop"
  | noSecondBound => "Expected \"tak\" in for loop"
  | noComparison => "Expected comparison operator in condition"
  | noClosingParen => "Expected \")\" after expression"
  | endOfExpression => "Unexpected end of expression"
  | unexpectedToken text => "Unexpected token: " ++ text
  | outsideLoop => "break/continue outside loop"

/-- A fault together with the tokens not yet read where it was met; the first of them, if there is
one, is the token it was met at. -/
structure ParseFailure where
  /-- Why reading failed. -/
  fault : ParseFault
  /-- The tokens not yet read. -/
  rest : List Token
  deriving DecidableEq, Repr

/-- A value read from the front of tokens, with fewer than `bound` tokens left. -/
structure Reading (α : Type) (bound : Nat) where
  /-- What was read. -/
  value : α
  /-- The tokens left. -/
  rest : List Token
  /-- The number of tokens left stays below the bound. -/
  rest_lt : rest.length < bound

/-! ## Counting the tokens left

The bounds of readings, as they come up when one reading follows another. -/

section

variable {t : Token} {us us₁ us₂ us₃ : List Token}

theorem length_nil_lt : ([] : List Token).length < ([] : List Token).length + 1 :=
  Nat.lt_succ_self _

theorem length_cons_lt (t : Token) (us : List Token) : (t :: us).length < (t :: us).length + 1 :=
  Nat.lt_succ_self _

theorem length_lt_cons (t : Token) (us : List Token) : us.length < (t :: us).length :=
  Nat.lt_succ_self _

theorem length_le_succ (us : List Token) : us.length ≤ us.length + 1 := Nat.le_succ _

theorem length_lt_trans (h₁ : us₁.length < us.length) (h₂ : us₂.length < us₁.length) :
    us₂.length < us.length :=
  Nat.lt_trans h₂ h₁

theorem length_lt_of_cons_lt (h₁ : (t :: us₁).length < us.length) (h₂ : us₂.length < us₁.length) :
    us₂.length < us.length := by
  rw [List.length_cons] at h₁
  omega

theorem length_lt_cons_trans (h₁ : us₁.length < us.length) (h₂ : us₂.length < us₁.length) :
    us₂.length < (t :: us).length := by
  rw [List.length_cons]
  omega

theorem length_lt_succ_trans (h₁ : us₁.length < us.length) (h₂ : us₂.length < us₁.length + 1) :
    us₂.length < us.length + 1 := by
  omega

theorem length_lt_succ_trans_trans (h₁ : us₁.length < us.length) (h₂ : us₂.length < us₁.length + 1)
    (h₃ : us₃.length < us₂.length + 1) : us₃.length < us.length + 1 := by
  omega

theorem length_lt_cons_succ (t : Token) (us : List Token) : us.length < (t :: us).length + 1 := by
  rw [List.length_cons]
  omega

theorem length_lt_cons_succ_of_lt (h₁ : us₁.length < us.length + 1)
    (h₂ : us₂.length < us₁.length + 1) : us₂.length < (t :: us).length + 1 := by
  rw [List.length_cons]
  omega

theorem length_succ_le_cons (h₁ : us₁.length < us.length) :
    us₁.length + 1 ≤ (t :: us).length + 1 := by
  rw [List.length_cons]
  omega

end

/-! ## Outcomes -/

/-- A reading, or why there is none. -/
abbrev Outcome (α : Type) (bound : Nat) : Type := Except ParseFailure (Reading α bound)

namespace Reading

variable {α β : Type} {bound bound' : Nat}

/-- The same reading with its value changed and its bound raised. -/
def map (f : α → β) (r : Reading α bound) (h : bound ≤ bound') : Reading β bound' :=
  ⟨f r.value, r.rest, Nat.lt_of_lt_of_le r.rest_lt h⟩

end Reading

/-- Reads a token of the given kind, or fails with the given fault. -/
def expect (kind : Kind) (fault : ParseFault) (tokens : List Token) : Outcome Token tokens.length :=
  match tokens with
  | [] => .error ⟨fault, []⟩
  | t :: rest =>
    if t.kind = kind then .ok ⟨t, rest, length_lt_cons t rest⟩ else .error ⟨fault, t :: rest⟩

end JPlusPlus
