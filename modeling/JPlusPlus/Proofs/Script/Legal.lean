import JPlusPlus.Proofs.Script.Lexeme

/-!
# Legal scripts

The grammar of the statements that scripts are made of, over lexemes, with the rules that the
language adds to its grammar: a block gives no name to two of its variables, `break` and `continue`
stand in loops, and a variable has a name that it may have. Of expressions there are the operators
that scripts use, each at its level; the levels in between have no operators here. Every statement
that needs a semicolon has one, so none is ever put in for it.

The grammar does not ask where a lexeme comes from, and a legal script need not be the text of one
of ours. What it does tell is which variables a script binds: they are the words after `let`, in
whatever way the script is derived. So a name that no variable may have makes a script illegal for
good, with no need to go through its derivations.

## Main statements

* `Script.IsItems.bindings_eq`: statements bind the words that follow their `let`s.
* `Script.IsItems.mayBind`: all of these are names that variables may have.
-/

namespace JPlusPlus.Script

/-! ## Names -/

/-- Which words are names, and which of the names variables may have. -/
structure NameRules where
  /-- The words that are no names. -/
  reserved : List String
  /-- The names that no variable may have. -/
  taken : List String

namespace NameRules

/-- A variable may have the name. -/
def MayBind (rules : NameRules) (x : String) : Prop := x ∉ rules.reserved ∧ x ∉ rules.taken

instance (rules : NameRules) (x : String) : Decidable (rules.MayBind x) :=
  inferInstanceAs (Decidable (_ ∧ _))

/-- The rules of the language. Its reserved words are no names; `await` and `yield` are among them,
though there are scripts that get by with them. A `let` binds no variable called `let`. Nor may a
variable be called `console`, since printing calls a method of what that name stands for outside of
the script. -/
def standard : NameRules where
  reserved := ["await", "break", "case", "catch", "class", "const", "continue", "debugger",
    "default", "delete", "do", "else", "enum", "export", "extends", "false", "finally", "for",
    "function", "if", "import", "in", "instanceof", "new", "null", "return", "super", "switch",
    "this", "throw", "true", "try", "typeof", "var", "void", "while", "with", "yield"]
  taken := ["let", "console"]

/-- No word is reserved, and no name is taken. -/
def free : NameRules := ⟨[], []⟩

theorem mayBind_free (x : String) : free.MayBind x := ⟨List.not_mem_nil, List.not_mem_nil⟩

end NameRules

variable (rules : NameRules)

/-! ## The grammar -/

/-- How tightly an expression holds together, from the loosest form on. -/
inductive Level where
  /-- An assignment. -/
  | assignment
  /-- Equality. -/
  | equality
  /-- The comparisons by size. -/
  | relational
  /-- Sums. -/
  | additive
  /-- Products. -/
  | multiplicative
  /-- A variable that is counted up. -/
  | update
  /-- A call. -/
  | call
  /-- A method of an object. -/
  | member
  /-- What has no parts, or has parentheses around it. -/
  | primary

/-- The next tighter level. -/
def Level.tighter : Level → Level
  | assignment => equality
  | equality => relational
  | relational => additive
  | additive => multiplicative
  | multiplicative => update
  | update => call
  | call => member
  | member | primary => primary

/-- The marks between two operands at a level. -/
def Level.operators : Level → List String
  | equality => ["==", "!="]
  | relational => ["<", ">", "<=", ">="]
  | additive => ["+", "-"]
  | multiplicative => ["*", "/"]
  | assignment | update | call | member | primary => []

/-- The lexemes are an expression. -/
inductive IsExpr : Level → List Lexeme → Prop where
  | name {x : String} : x ∉ rules.reserved → IsExpr .primary [.word x]
  | number {digits : String} : IsExpr .primary [.number digits]
  | string {value : String} : IsExpr .primary [.string value]
  | parens {ts : List Lexeme} :
      IsExpr .assignment ts → IsExpr .primary (.mark "(" :: (ts ++ [.mark ")"]))
  | method {ts : List Lexeme} {x : String} :
      IsExpr .member ts → IsExpr .member (ts ++ [.mark ".", .word x])
  | call {ts us : List Lexeme} : IsExpr .member ts → IsExpr .assignment us →
      IsExpr .call (ts ++ .mark "(" :: (us ++ [.mark ")"]))
  | increment {x : String} : x ∉ rules.reserved → IsExpr .update [.word x, .mark "++"]
  | binary {level : Level} {op : String} {ts us : List Lexeme} : op ∈ level.operators →
      IsExpr level ts → IsExpr level.tighter us → IsExpr level (ts ++ .mark op :: us)
  | assign {x : String} {ts : List Lexeme} : x ∉ rules.reserved → IsExpr .assignment ts →
      IsExpr .assignment (.word x :: .mark "=" :: ts)
  | single {level : Level} {ts : List Lexeme} : IsExpr level.tighter ts → IsExpr level ts

/-- The lexemes bind the variable. -/
inductive IsBinding : String → List Lexeme → Prop where
  | mk {x : String} {ts : List Lexeme} : rules.MayBind x → IsExpr rules .assignment ts →
      IsBinding x (.word "let" :: .word x :: .mark "=" :: (ts ++ [.mark ";"]))

mutual

/-- The lexemes are a statement, within a loop if `looping`, that binds the variables `bound` in its
blocks and loops. -/
inductive IsStatement : (looping : Bool) → (bound : List String) → List Lexeme → Prop where
  | block {looping : Bool} {own bound : List String} {ts : List Lexeme} :
      IsItems looping own bound ts → own.Nodup →
        IsStatement looping bound (.mark "\x7b" :: (ts ++ [.mark "\x7d"]))
  | expression {looping : Bool} {ts : List Lexeme} :
      IsExpr rules .assignment ts → IsStatement looping [] (ts ++ [.mark ";"])
  | ifThen {looping : Bool} {bound : List String} {cs ts : List Lexeme} :
      IsExpr rules .assignment cs → IsStatement looping bound ts →
        IsStatement looping bound (.word "if" :: .mark "(" :: (cs ++ .mark ")" :: ts))
  | ifElse {looping : Bool} {bound bound' : List String} {cs ts us : List Lexeme} :
      IsExpr rules .assignment cs → IsStatement looping bound ts → IsStatement looping bound' us →
        IsStatement looping (bound ++ bound')
          (.word "if" :: .mark "(" :: (cs ++ .mark ")" :: (ts ++ .word "else" :: us)))
  | whileLoop {looping : Bool} {bound : List String} {cs ts : List Lexeme} :
      IsExpr rules .assignment cs → IsStatement true bound ts →
        IsStatement looping bound (.word "while" :: .mark "(" :: (cs ++ .mark ")" :: ts))
  | forLoop {looping : Bool} {x : String} {bound : List String} {bs cs us ts : List Lexeme} :
      IsBinding rules x bs → IsExpr rules .assignment cs → IsExpr rules .assignment us →
        IsStatement true bound ts →
          IsStatement looping (x :: bound)
            (.word "for" :: .mark "(" :: (bs ++ (cs ++ .mark ";" :: (us ++ .mark ")" :: ts))))
  | break : IsStatement true [] [.word "break", .mark ";"]
  | continue : IsStatement true [] [.word "continue", .mark ";"]

/-- The lexemes are statements and bindings, one after another. The variables `bound` are bound
there at any depth, and among them the variables `own` outside of blocks and loops. -/
inductive IsItems : (looping : Bool) → (own bound : List String) → List Lexeme → Prop where
  | nil {looping : Bool} : IsItems looping [] [] []
  | binding {looping : Bool} {x : String} {own bound : List String} {bs ts : List Lexeme} :
      IsBinding rules x bs → IsItems looping own bound ts →
        IsItems looping (x :: own) (x :: bound) (bs ++ ts)
  | statement {looping : Bool} {own bound bound' : List String} {ss ts : List Lexeme} :
      IsStatement looping bound ss → IsItems looping own bound' ts →
        IsItems looping own (bound ++ bound') (ss ++ ts)

end

/-- The lexemes are a script. -/
def IsScript (ts : List Lexeme) : Prop :=
  ∃ own bound, IsItems rules false own bound ts ∧ own.Nodup

/-- The text is a legal script. The mark `++` belongs to the line of what it follows. -/
def Legal (code : String) : Prop :=
  ∃ lines, lexedLines code = some lines ∧ (∀ line ∈ lines, line.head? ≠ some (.mark "++")) ∧
    IsScript rules lines.flatten

/-! ## Derivations -/

variable {rules}

/-- A tighter expression is an expression of each looser level. -/
theorem IsExpr.loosen {level : Level} {ts : List Lexeme} (n : Nat)
    (h : IsExpr rules (n.repeat Level.tighter level) ts) : IsExpr rules level ts := by
  induction n with
  | zero => exact h
  | succ n ih => exact ih (.single h)

theorem IsExpr.of_primary {ts : List Lexeme} (h : IsExpr rules .primary ts) (level : Level) :
    IsExpr rules level ts := by
  have hrepeat : Nat.repeat Level.tighter 8 level = .primary := by cases level <;> rfl
  exact .loosen 8 (hrepeat ▸ h)

/-- An operation stands in parentheses, whichever it is. -/
theorem IsExpr.operation (op : ArithOp) {ts us : List Lexeme} (ht : IsExpr rules .primary ts)
    (hu : IsExpr rules .primary us) :
    IsExpr rules .primary (.mark "(" :: (ts ++ .mark op.symbol :: (us ++ [.mark ")"]))) := by
  have hbinary {level : Level} (ho : op.symbol ∈ level.operators) :
      IsExpr rules level (ts ++ .mark op.symbol :: us) :=
    .binary ho (ht.of_primary _) (hu.of_primary _)
  have hinner : IsExpr rules .assignment (ts ++ .mark op.symbol :: us) := by
    cases op with
    | add | sub => exact .loosen 3 (hbinary (by decide) : IsExpr rules .additive _)
    | mul | div => exact .loosen 4 (hbinary (by decide) : IsExpr rules .multiplicative _)
  simpa using IsExpr.parens hinner

theorem IsExpr.comparison (op : CompareOp) {ts us : List Lexeme} (ht : IsExpr rules .primary ts)
    (hu : IsExpr rules .primary us) :
    IsExpr rules .assignment (ts ++ .mark op.symbol :: us) := by
  have hbinary {level : Level} (ho : op.symbol ∈ level.operators) :
      IsExpr rules level (ts ++ .mark op.symbol :: us) :=
    .binary ho (ht.of_primary _) (hu.of_primary _)
  cases op with
  | eq | notEq => exact .loosen 1 (hbinary (by decide) : IsExpr rules .equality _)
  | less | greater | lessEq | greaterEq =>
    exact .loosen 2 (hbinary (by decide) : IsExpr rules .relational _)

theorem IsStatement.print (hconsole : "console" ∉ rules.reserved) {e : Expr} {looping : Bool}
    (h : IsExpr rules .primary e.lexemes) :
    IsStatement rules looping [] (Head.log e).lexemes := by
  have hobject : IsExpr rules .member [.word "console"] := (IsExpr.name hconsole).of_primary _
  have hcall := IsExpr.call (IsExpr.method (x := "log") hobject) (h.of_primary .assignment)
  have hexpr : IsExpr rules .assignment _ := .loosen 6 hcall
  simpa [Head.lexemes] using IsStatement.expression hexpr

section

variable {c : Condition} {looping : Bool} {bound bound' : List String} {ts us : List Lexeme}

theorem IsStatement.if (hc : IsExpr rules .assignment c.lexemes)
    (hbody : IsStatement rules looping bound (.mark "\x7b" :: (ts ++ [.mark "\x7d"]))) :
    IsStatement rules looping bound ((Head.ifElse c).lexemes ++ (ts ++ [.mark "\x7d"])) := by
  simpa [Head.lexemes] using IsStatement.ifThen hc hbody

theorem IsStatement.else (hc : IsExpr rules .assignment c.lexemes)
    (hbody : IsStatement rules looping bound (.mark "\x7b" :: (ts ++ [.mark "\x7d"])))
    (helse : IsStatement rules looping bound' us) :
    IsStatement rules looping (bound ++ bound')
      ((Head.ifElse c).lexemes ++ (ts ++ .mark "\x7d" :: .word "else" :: us)) := by
  simpa [Head.lexemes] using IsStatement.ifElse hc hbody helse

theorem IsStatement.while (hc : IsExpr rules .assignment c.lexemes)
    (hbody : IsStatement rules true bound (.mark "\x7b" :: (ts ++ [.mark "\x7d"]))) :
    IsStatement rules looping bound ((Head.whileLoop c).lexemes ++ (ts ++ [.mark "\x7d"])) := by
  simpa [Head.lexemes] using IsStatement.whileLoop hc hbody

theorem IsStatement.counting {x : String} {start stop : Expr} (hx : rules.MayBind x)
    (hstart : IsExpr rules .primary start.lexemes) (hstop : IsExpr rules .primary stop.lexemes)
    (hbody : IsStatement rules true bound (.mark "\x7b" :: (ts ++ [.mark "\x7d"]))) :
    IsStatement rules looping (x :: bound)
      ((Head.forLoop x start stop).lexemes ++ (ts ++ [.mark "\x7d"])) := by
  have hbinding : IsBinding rules x _ := .mk hx (hstart.of_primary .assignment)
  have htest := IsExpr.comparison .less (.name hx.1) hstop
  have hstep : IsExpr rules .assignment [.word x, .mark "++"] := .loosen 5 (.increment hx.1)
  simpa [Head.lexemes, CompareOp.symbol] using
    IsStatement.forLoop hbinding htest hstep hbody

end

/-! ## The variables that are bound -/

/-- The word that lexemes start with. -/
def firstWord : List Lexeme → List String
  | .word x :: _ => [x]
  | _ => []

/-- The words that follow a `let`. -/
def bindings : List Lexeme → List String
  | [] => []
  | l :: ts => (if l = .word "let" then firstWord ts else []) ++ bindings ts

theorem bindings_cons_of_ne {l : Lexeme} (h : l ≠ .word "let") (ts : List Lexeme) :
    bindings (l :: ts) = bindings ts := by
  rw [bindings, if_neg h, List.nil_append]

@[simp] theorem bindings_mark (m : String) (ts : List Lexeme) :
    bindings (.mark m :: ts) = bindings ts := bindings_cons_of_ne (by simp) ts

/-- A word with a mark after it binds nothing, not even when it is `let`. -/
@[simp] theorem bindings_word_mark (x m : String) (ts : List Lexeme) :
    bindings (.word x :: .mark m :: ts) = bindings ts := by
  rw [bindings, firstWord, ite_self, List.nil_append, bindings_mark]
  exact nofun

theorem IsExpr.bindings_append {level : Level} {ts : List Lexeme} (h : IsExpr rules level ts)
    (m : String) (us : List Lexeme) : bindings (ts ++ .mark m :: us) = bindings us := by
  induction h generalizing m us with
  | name | increment => simp
  | number | string => rw [List.singleton_append, bindings_cons_of_ne (by simp), bindings_mark]
  | parens _ ih => simp [ih]
  | method _ ih => simp [ih]
  | call _ _ iht ihu => simp [iht, ihu]
  | binary _ _ _ iht ihu => simp [iht, ihu]
  | assign _ _ ih => simp [ih]
  | single _ ih => exact ih m us

theorem IsBinding.bindings_append {x : String} {bs : List Lexeme} (h : IsBinding rules x bs)
    (us : List Lexeme) : bindings (bs ++ us) = x :: bindings us := by
  obtain ⟨-, he⟩ := h
  rw [List.cons_append, bindings, if_pos rfl]
  simp [firstWord, he.bindings_append]

theorem IsBinding.mayBind {x : String} {bs : List Lexeme} (h : IsBinding rules x bs) :
    rules.MayBind x := by
  obtain ⟨hx, -⟩ := h
  exact hx

mutual

/-- In a statement the words after `let` are the variables that it binds. -/
theorem IsStatement.bindings_append {looping : Bool} {bound : List String} {ts : List Lexeme} :
    IsStatement rules looping bound ts → ∀ us, bindings (ts ++ us) = bound ++ bindings us
  | .block hitems _, us => by simp [hitems.bindings_append]
  | .expression he, us => by simp [he.bindings_append]
  | .ifThen hc hs, us | .whileLoop hc hs, us => by simp [hc.bindings_append, hs.bindings_append]
  | .ifElse hc hs hs', us => by
    have helse (ts : List Lexeme) : bindings (.word "else" :: ts) = bindings ts :=
      bindings_cons_of_ne (by simp) ts
    simp [hc.bindings_append, hs.bindings_append, hs'.bindings_append, helse]
  | .forLoop hb hc hu hs, us => by
    simp [hb.bindings_append, hc.bindings_append, hu.bindings_append, hs.bindings_append]
  | .break, us | .continue, us => by simp

theorem IsItems.bindings_append {looping : Bool} {own bound : List String} {ts : List Lexeme} :
    IsItems rules looping own bound ts → ∀ us, bindings (ts ++ us) = bound ++ bindings us
  | .nil, us => rfl
  | .binding hb hitems, us => by simp [hb.bindings_append, hitems.bindings_append]
  | .statement hs hitems, us => by simp [hs.bindings_append, hitems.bindings_append]

end

mutual

/-- The variables of a statement have names that variables may have. -/
theorem IsStatement.mayBind {looping : Bool} {bound : List String} {ts : List Lexeme} :
    IsStatement rules looping bound ts → ∀ x ∈ bound, rules.MayBind x
  | .block hitems _ => hitems.mayBind
  | .expression _ | .break | .continue => nofun
  | .ifThen _ hs | .whileLoop _ hs => hs.mayBind
  | .ifElse _ hs hs' => List.forall_mem_append.mpr ⟨hs.mayBind, hs'.mayBind⟩
  | .forLoop hb _ _ hs => List.forall_mem_cons.mpr ⟨hb.mayBind, hs.mayBind⟩

theorem IsItems.mayBind {looping : Bool} {own bound : List String} {ts : List Lexeme} :
    IsItems rules looping own bound ts → ∀ x ∈ bound, rules.MayBind x
  | .nil => nofun
  | .binding hb hitems => List.forall_mem_cons.mpr ⟨hb.mayBind, hitems.mayBind⟩
  | .statement hs hitems => List.forall_mem_append.mpr ⟨hs.mayBind, hitems.mayBind⟩

end

theorem IsItems.bindings_eq {looping : Bool} {own bound : List String} {ts : List Lexeme}
    (h : IsItems rules looping own bound ts) : bindings ts = bound := by
  have hall := h.bindings_append []
  rwa [List.append_nil, bindings, List.append_nil] at hall

end JPlusPlus.Script
