import JPlusPlus.Program.Parse.Stmt
import JPlusPlus.Proofs.Parse.Grammar

/-!
# What the parser's functions read

A function of the parser gives back a value, the tokens left and a bound on their number. The bound
is there to make the parser end and says nothing about what was read, so this file drops it: `Reads`
keeps the value and the tokens left, and every function of the parser gets one equation that says
when it reads what. Later files reason with these equations and never open a function again.
-/

namespace JPlusPlus

variable {α β : Type} {m n : Nat}

/-- The outcome is a reading of `value` that leaves `rest`. -/
def Reads (outcome : Outcome α n) (value : α) (rest : List Token) : Prop :=
  ∃ h, outcome = .ok ⟨value, rest, h⟩

/-! ## Readings one after another -/

theorem reads_pure {r : Reading α n} {value : α} {rest : List Token} :
    Reads (pure r : Outcome α n) value rest ↔ r.value = value ∧ r.rest = rest := by
  obtain ⟨v, us, h⟩ := r
  constructor
  · rintro ⟨_, he⟩
    cases he
    exact ⟨rfl, rfl⟩
  · rintro ⟨rfl, rfl⟩
    exact ⟨h, rfl⟩

theorem reads_error {failure : ParseFailure} {value : α} {rest : List Token} :
    ¬Reads (.error failure : Outcome α n) value rest := by
  rintro ⟨_, he⟩
  cases he

theorem reads_bind {outcome : Outcome α m} {f : Reading α m → Outcome β n} {value : β}
    {rest : List Token} :
    Reads (outcome >>= f) value rest ↔
      ∃ v us h, outcome = .ok ⟨v, us, h⟩ ∧ Reads (f ⟨v, us, h⟩) value rest := by
  cases outcome with
  | error failure =>
    constructor
    · exact fun h ↦ absurd h reads_error
    · rintro ⟨_, _, _, he, _⟩
      cases he
  | ok r =>
    obtain ⟨v, us, hlt⟩ := r
    constructor
    · exact fun h ↦ ⟨v, us, hlt, rfl, h⟩
    · rintro ⟨_, _, _, he, h⟩
      cases he
      exact h

/-- The form of `reads_bind` for a continuation that reads the same whatever the bound is. -/
theorem reads_bind_iff {outcome : Outcome α m} {f : Reading α m → Outcome β n}
    {g : α → List Token → Prop} {value : β} {rest : List Token}
    (hf : ∀ v us h, Reads (f ⟨v, us, h⟩) value rest ↔ g v us) :
    Reads (outcome >>= f) value rest ↔ ∃ v us, Reads outcome v us ∧ g v us := by
  rw [reads_bind]
  constructor
  · rintro ⟨v, us, h, ho, hg⟩
    exact ⟨v, us, ⟨h, ho⟩, (hf v us h).mp hg⟩
  · rintro ⟨v, us, ⟨h, ho⟩, hg⟩
    exact ⟨v, us, h, ho, (hf v us h).mpr hg⟩

theorem reads_map {outcome : Outcome α m} {f : α → β} {hle : m ≤ n} {value : β}
    {rest : List Token} :
    Reads (do return (← outcome).map f hle : Outcome β n) value rest ↔
      ∃ v, Reads outcome v rest ∧ f v = value := by
  rw [reads_bind_iff (g := fun v us ↦ f v = value ∧ us = rest) fun v us h ↦ reads_pure]
  constructor
  · rintro ⟨v, us, ho, hv, rfl⟩
    exact ⟨v, ho, hv⟩
  · rintro ⟨v, ho, hv⟩
    exact ⟨v, rest, ho, hv, rfl⟩

theorem reads_expect {kind : Kind} {fault : ParseFault} {tokens : List Token} {t : Token}
    {rest : List Token} :
    Reads (expect kind fault tokens) t rest ↔ tokens = t :: rest ∧ t.kind = kind := by
  cases tokens with
  | nil =>
    constructor
    · exact fun h ↦ absurd h reads_error
    · rintro ⟨he, -⟩
      cases he
  | cons u us =>
    rw [expect]
    by_cases hk : u.kind = kind
    · rw [if_pos hk]
      constructor
      · rintro ⟨_, he⟩
        cases he
        exact ⟨rfl, hk⟩
      · rintro ⟨he, -⟩
        cases he
        exact ⟨_, rfl⟩
    · rw [if_neg hk]
      constructor
      · exact fun h ↦ absurd h reads_error
      · rintro ⟨he, ht⟩
        cases he
        exact absurd ht hk

/-! ## Expressions -/

/-- An atom is an expression in parentheses or a single token. -/
theorem reads_readAtom {tokens : List Token} {e : Expr} {rest : List Token} :
    Reads (readAtom tokens) e rest ↔
      (∃ t us r, tokens = t :: us ∧ t.kind = .delimiter .lparen ∧
        Reads (readLevel .sum us) e (r :: rest) ∧ r.kind = .delimiter .rparen) ∨
      ∃ t, tokens = t :: rest ∧
        (t.kind = .integer ∧ e = .number (normalDigits t.text) ∨
          t.kind = .string ∧ e = .string t.text ∨ t.kind = .ident ∧ e = .ident t.text) := by
  cases tokens with
  | nil =>
    rw [readAtom]
    refine ⟨fun h ↦ absurd h reads_error, ?_⟩
    rintro (⟨t, us, r, he, -⟩ | ⟨t, he, -⟩) <;> cases he
  | cons t us =>
    rw [readAtom]
    split
    · next hk =>
      rw [reads_bind_iff (g := fun v us₁ ↦ v = e ∧ ∃ r, us₁ = r :: rest ∧
        r.kind = .delimiter .rparen)]
      · simp only [List.cons.injEq]
        grind
      · intro v us₁ h
        rw [reads_bind_iff (g := fun r us₂ ↦ v = e ∧ us₂ = rest) fun _ _ _ ↦ reads_pure]
        simp only [reads_expect]
        grind
    · next hk => rw [reads_pure]; grind
    · next hk => rw [reads_pure]; grind
    · next hk => rw [reads_pure]; grind
    · next h₁ h₂ h₃ h₄ =>
      refine ⟨fun h ↦ absurd h reads_error, ?_⟩
      grind

theorem reads_readLevel {level : Level} {tokens : List Token} {e : Expr} {rest : List Token} :
    Reads (readLevel level tokens) e rest ↔
      ∃ left us, Reads (readOperand level tokens) left us ∧
        Reads (readTail level left us) e rest := by
  rw [readLevel, reads_bind_iff (g := fun left us ↦ Reads (readTail level left us) e rest)]
  intro left us h
  rw [reads_map]
  simp

theorem reads_readOperand_sum {tokens : List Token} {e : Expr} {rest : List Token} :
    Reads (readOperand .sum tokens) e rest ↔ Reads (readLevel .concat tokens) e rest := by
  rw [readOperand]

theorem reads_readOperand_concat {tokens : List Token} {e : Expr} {rest : List Token} :
    Reads (readOperand .concat tokens) e rest ↔ Reads (readLevel .product tokens) e rest := by
  rw [readOperand]

theorem reads_readOperand_product {tokens : List Token} {e : Expr} {rest : List Token} :
    Reads (readOperand .product tokens) e rest ↔ Reads (readAtom tokens) e rest := by
  rw [readOperand]

/-- Where no operator of its level stands, a chain ends. -/
theorem reads_readTail_stop {level : Level} {left e : Expr} {tokens rest : List Token}
    (hstop : ∀ t us, tokens = t :: us → level.join? t.kind = none) :
    Reads (readTail level left tokens) e rest ↔ left = e ∧ tokens = rest := by
  cases tokens with
  | nil => rw [readTail, reads_pure]
  | cons t us =>
    rw [readTail]
    split
    · rw [reads_pure]
    · next join hj => rw [hstop t us rfl] at hj; cases hj

/-- Where an operator of its level stands, a chain goes on with one more operand. -/
theorem reads_readTail_join {level : Level} {left e : Expr} {t : Token} {us rest : List Token}
    {join : Expr → Expr → Expr} (hj : level.join? t.kind = some join) :
    Reads (readTail level left (t :: us)) e rest ↔
      ∃ right us₁, Reads (readOperand level us) right us₁ ∧
        Reads (readTail level (join left right) us₁) e rest := by
  rw [readTail]
  split
  · next hn => rw [hj] at hn; cases hn
  · next join' hj' =>
    obtain rfl : join' = join := Option.some.inj (hj'.symm.trans hj)
    rw [reads_bind_iff (g := fun right us₁ ↦ Reads (readTail level (join' left right) us₁) e rest)]
    intro right us₁ h
    rw [reads_map]
    simp

theorem reads_readExpr {tokens : List Token} {e : Expr} {rest : List Token} :
    Reads (readExpr tokens) e rest ↔ Reads (readLevel .sum tokens) e rest := by
  rw [readExpr]

theorem reads_readCondition {tokens : List Token} {c : Condition} {rest : List Token} :
    Reads (readCondition tokens) c rest ↔
      ∃ t us, Reads (readExpr tokens) c.left (t :: us) ∧ CompareOp.ofKind? t.kind = some c.op ∧
        Reads (readExpr us) c.right rest := by
  rw [readCondition, reads_bind_iff (g := fun left us₁ ↦ left = c.left ∧ ∃ t us, us₁ = t :: us ∧
    CompareOp.ofKind? t.kind = some c.op ∧ Reads (readExpr us) c.right rest)]
  · grind
  · intro left us₁ h
    cases us₁ with
    | nil =>
      refine ⟨fun h ↦ absurd h reads_error, ?_⟩
      rintro ⟨-, t, us, he, -⟩
      cases he
    | cons t us =>
      dsimp only
      split
      · next hn =>
        refine ⟨fun h ↦ absurd h reads_error, ?_⟩
        grind
      · next op hop =>
        rw [reads_bind_iff (g := fun right us₃ ↦ ⟨left, op, right⟩ = c ∧ us₃ = rest)
          fun _ _ _ ↦ reads_pure]
        obtain ⟨l, o, r⟩ := c
        simp only [Condition.mk.injEq, List.cons.injEq]
        grind

/-! ## Statements without bodies, and the heads of the others -/

theorem reads_readDeclaration {tokens : List Token} {s : Stmt} {rest : List Token} :
    Reads (readDeclaration tokens) s rest ↔
      ∃ name us, tokens = name :: us ∧ name.kind = .ident ∧
        ((∀ t us₂, us = t :: us₂ → t.kind ≠ .operator .assign) ∧
            s = .declare name.text none ∧ us = rest ∨
          ∃ t us₂ e, us = t :: us₂ ∧ t.kind = .operator .assign ∧
            Reads (readExpr us₂) e rest ∧ s = .declare name.text (some e)) := by
  rw [readDeclaration, reads_bind_iff (g := fun name us ↦
    (∀ t us₂, us = t :: us₂ → t.kind ≠ .operator .assign) ∧
        s = .declare name.text none ∧ us = rest ∨
      ∃ t us₂ e, us = t :: us₂ ∧ t.kind = .operator .assign ∧
        Reads (readExpr us₂) e rest ∧ s = .declare name.text (some e))]
  · simp only [reads_expect]
    grind
  · intro name us h
    cases us with
    | nil => simp only [reads_pure]; grind
    | cons t us₂ =>
      dsimp only
      split
      · next ht =>
        rw [reads_bind_iff (g := fun e us₃ ↦ .declare name.text (some e) = s ∧ us₃ = rest)
          fun _ _ _ ↦ reads_pure]
        grind
      · next ht => rw [reads_pure]; grind

theorem reads_readAssignment {name : String} {tokens : List Token} {s : Stmt}
    {rest : List Token} :
    Reads (readAssignment name tokens) s rest ↔
      ∃ t us e, tokens = t :: us ∧ t.kind = .operator .assign ∧ Reads (readExpr us) e rest ∧
        s = .assign name e := by
  rw [readAssignment, reads_bind_iff (g := fun _ us ↦
    ∃ e us₂, Reads (readExpr us) e us₂ ∧ .assign name e = s ∧ us₂ = rest)]
  · simp only [reads_expect]
    grind
  · intro t us h
    exact reads_bind_iff fun _ _ _ ↦ reads_pure

theorem reads_readPrint {tokens : List Token} {s : Stmt} {rest : List Token} :
    Reads (readPrint tokens) s rest ↔
      ∃ e, Reads (readExpr tokens) e rest ∧ s = .print e := by
  rw [readPrint]
  split
  · next hnil =>
    refine ⟨fun h ↦ absurd h reads_error, ?_⟩
    rintro ⟨e, ⟨h, -⟩, -⟩
    rw [List.isEmpty_iff] at hnil
    subst hnil
    cases h
  · rw [reads_bind_iff (g := fun e us ↦ .print e = s ∧ us = rest) fun _ _ _ ↦ reads_pure]
    grind

theorem reads_readHead {place : BodyPlace} {tokens : List Token} {c : Condition}
    {rest : List Token} :
    Reads (readHead place tokens) c rest ↔
      ∃ b : Token, Reads (readCondition tokens) c (b :: rest) ∧ b.kind = .delimiter .lbrace := by
  rw [readHead, reads_bind_iff (g := fun c' us₁ ↦ ∃ b us₂,
    (us₁ = b :: us₂ ∧ b.kind = .delimiter .lbrace) ∧ c' = c ∧ us₂ = rest)]
  · grind
  · intro c' us₁ h
    rw [reads_bind_iff (g := fun _ us₂ ↦ c' = c ∧ us₂ = rest) fun _ _ _ ↦ reads_pure]
    simp only [reads_expect]

theorem reads_readCount {tokens : List Token} {count : Count} {rest : List Token} :
    Reads (readCount tokens) count rest ↔
      ∃ v a us₂ k us₄ b, tokens = v :: a :: us₂ ∧ v.kind = .ident ∧ v.text = count.counter ∧
        a.kind = .operator .assign ∧ Reads (readExpr us₂) count.start (k :: us₄) ∧
        k.kind = .keyword .tak ∧ Reads (readExpr us₄) count.stop (b :: rest) ∧
        b.kind = .delimiter .lbrace := by
  rw [readCount]
  refine (reads_bind_iff fun v _ _ ↦ reads_bind_iff fun _ _ _ ↦ reads_bind_iff fun start _ _ ↦
    reads_bind_iff fun _ _ _ ↦ reads_bind_iff fun stop _ _ ↦
      reads_bind_iff (g := fun _ us₆ ↦ ⟨v.text, start, stop⟩ = count ∧ us₆ = rest)
        fun _ _ _ ↦ reads_pure).trans ?_
  simp only [reads_expect]
  obtain ⟨x, s, e⟩ := count
  simp only [Count.mk.injEq]
  grind

/-! ## Statements with bodies

One equation for each token that a statement may start with. -/

section

variable {inLoop : Bool} {t : Token} {us rest : List Token} {s : Option Stmt}

theorem reads_readStmt_ye (ht : t.kind = .keyword .ye) :
    Reads (readStmt inLoop t us) s rest ↔ ∃ d, Reads (readDeclaration us) d rest ∧ some d = s := by
  rw [readStmt, ht]
  exact reads_map

theorem reads_readStmt_bol (ht : t.kind = .keyword .bol) :
    Reads (readStmt inLoop t us) s rest ↔ ∃ d, Reads (readPrint us) d rest ∧ some d = s := by
  rw [readStmt, ht]
  exact reads_map

theorem reads_readStmt_ident (ht : t.kind = .ident) :
    Reads (readStmt inLoop t us) s rest ↔
      ∃ d, Reads (readAssignment t.text us) d rest ∧ some d = s := by
  rw [readStmt, ht]
  exact reads_map

theorem reads_readStmt_agar (ht : t.kind = .keyword .agar) :
    Reads (readStmt inLoop t us) s rest ↔
      ∃ c us₁, Reads (readHead .condition us) c us₁ ∧
        ∃ body us₂, Reads (readBlock inLoop us₁) body us₂ ∧
          ∃ orElse us₃, Reads (readElse inLoop us₂) orElse us₃ ∧
            some (.branch c body orElse) = s ∧ us₃ = rest := by
  rw [readStmt, ht]
  exact reads_bind_iff fun _ _ _ ↦ reads_bind_iff fun _ _ _ ↦ reads_bind_iff fun _ _ _ ↦ reads_pure

theorem reads_readStmt_jabtak (ht : t.kind = .keyword .jabtak) :
    Reads (readStmt inLoop t us) s rest ↔
      ∃ c us₁, Reads (readHead .condition us) c us₁ ∧
        ∃ body us₂, Reads (readBlock true us₁) body us₂ ∧
          some (.whileLoop c body) = s ∧ us₂ = rest := by
  rw [readStmt, ht]
  exact reads_bind_iff fun _ _ _ ↦ reads_bind_iff fun _ _ _ ↦ reads_pure

theorem reads_readStmt_keLiye (ht : t.kind = .keyword .keLiye) :
    Reads (readStmt inLoop t us) s rest ↔
      ∃ count us₁, Reads (readCount us) count us₁ ∧
        ∃ body us₂, Reads (readBlock true us₁) body us₂ ∧
          some (.forLoop count.counter count.start count.stop body) = s ∧ us₂ = rest := by
  rw [readStmt, ht]
  exact reads_bind_iff fun _ _ _ ↦ reads_bind_iff fun _ _ _ ↦ reads_pure

theorem reads_readStmt_break (ht : t.kind = .keyword .break) :
    Reads (readStmt inLoop t us) s rest ↔ inLoop = true ∧ some .break = s ∧ us = rest := by
  rw [readStmt, ht]
  cases inLoop with
  | false => exact ⟨fun h ↦ absurd h reads_error, by simp⟩
  | true => simpa using reads_pure

theorem reads_readStmt_continue (ht : t.kind = .keyword .continue) :
    Reads (readStmt inLoop t us) s rest ↔ inLoop = true ∧ some .continue = s ∧ us = rest := by
  rw [readStmt, ht]
  cases inLoop with
  | false => exact ⟨fun h ↦ absurd h reads_error, by simp⟩
  | true => simpa using reads_pure

/-- A token that starts no statement is passed over. -/
theorem reads_readStmt_junk (ht : t.kind ∉ stmtStarts) :
    Reads (readStmt inLoop t us) s rest ↔ s = none ∧ us = rest := by
  rw [readStmt]
  split
  case h_9 => rw [reads_pure, eq_comm]
  -- Every other branch is for one of the kinds that do start a statement.
  all_goals
    next hk =>
      rw [hk] at ht
      exact absurd (by decide) ht

end

section

variable {inLoop : Bool} {t : Token} {us rest : List Token}

theorem reads_readBlock_nil {body : List Stmt} :
    Reads (readBlock inLoop []) body rest ↔ body = [] ∧ rest = [] := by
  rw [readBlock, reads_pure, eq_comm, @eq_comm _ [] rest]

theorem reads_readBlock_rbrace {body : List Stmt} (ht : t.kind = .delimiter .rbrace) :
    Reads (readBlock inLoop (t :: us)) body rest ↔ body = [] ∧ us = rest := by
  rw [readBlock, if_pos ht, reads_pure, eq_comm]

theorem reads_readBlock_cons {body : List Stmt} (ht : t.kind ≠ .delimiter .rbrace) :
    Reads (readBlock inLoop (t :: us)) body rest ↔
      ∃ s us₁, Reads (readStmt inLoop t us) s us₁ ∧
        ∃ more us₂, Reads (readBlock inLoop us₁) more us₂ ∧ s.toList ++ more = body ∧
          us₂ = rest := by
  rw [readBlock, if_neg ht]
  exact reads_bind_iff fun _ _ _ ↦ reads_bind_iff fun _ _ _ ↦ reads_pure

theorem reads_readElse_nahiAgar {chain : ElseChain} (ht : t.kind = .keyword .nahiAgar) :
    Reads (readElse inLoop (t :: us)) chain rest ↔
      ∃ c us₁, Reads (readHead .elseIf us) c us₁ ∧
        ∃ body us₂, Reads (readBlock inLoop us₁) body us₂ ∧
          ∃ orElse us₃, Reads (readElse inLoop us₂) orElse us₃ ∧
            .elseIf c body orElse = chain ∧ us₃ = rest := by
  rw [readElse, ht]
  exact reads_bind_iff fun _ _ _ ↦ reads_bind_iff fun _ _ _ ↦ reads_bind_iff fun _ _ _ ↦ reads_pure

theorem reads_readElse_nahi {chain : ElseChain} (ht : t.kind = .keyword .nahi) :
    Reads (readElse inLoop (t :: us)) chain rest ↔
      ∃ b us₁, Reads (expect (.delimiter .lbrace) (.noBody .otherwise) us) b us₁ ∧
        ∃ body us₂, Reads (readBlock inLoop us₁) body us₂ ∧ .otherwise body = chain ∧
          us₂ = rest := by
  rw [readElse, ht]
  exact reads_bind_iff fun _ _ _ ↦ reads_bind_iff fun _ _ _ ↦ reads_pure

/-- Where no further branch stands, a conditional ends. -/
theorem reads_readElse_stop {tokens : List Token} {chain : ElseChain}
    (h₁ : nextKind tokens ≠ some (.keyword .nahiAgar))
    (h₂ : nextKind tokens ≠ some (.keyword .nahi)) :
    Reads (readElse inLoop tokens) chain rest ↔ chain = .nothing ∧ tokens = rest := by
  cases tokens with
  | nil => rw [readElse, reads_pure, eq_comm]
  | cons t us =>
    rw [readElse]
    split
    · next hk => exact absurd (congrArg some hk) h₁
    · next hk => exact absurd (congrArg some hk) h₂
    · rw [reads_pure, eq_comm]

end

/-! ## Programs -/

theorem bind_eq_ok_iff {ε : Type} {x : Except ε α} {f : α → Except ε β} {b : β} :
    x >>= f = .ok b ↔ ∃ a, x = .ok a ∧ f a = .ok b := by
  cases x with
  | error failure =>
    constructor
    · intro h
      cases h
    · rintro ⟨a, he, -⟩
      cases he
  | ok a =>
    constructor
    · exact fun h ↦ ⟨a, rfl, h⟩
    · rintro ⟨a', he, h⟩
      cases he
      exact h

theorem readStmts_cons_eq_ok {t : Token} {us : List Token} {body : List Stmt} :
    readStmts (t :: us) = .ok body ↔
      ∃ s us₁, Reads (readStmt false t us) s us₁ ∧
        ∃ more, readStmts us₁ = .ok more ∧ s.toList ++ more = body := by
  rw [readStmts, bind_eq_ok_iff]
  constructor
  · rintro ⟨⟨s, us₁, hlt⟩, hs, h⟩
    obtain ⟨more, hm, he⟩ := bind_eq_ok_iff.mp h
    exact ⟨s, us₁, ⟨hlt, hs⟩, more, hm, Except.ok.inj he⟩
  · rintro ⟨s, us₁, ⟨hlt, hs⟩, more, hm, rfl⟩
    exact ⟨⟨s, us₁, hlt⟩, hs, bind_eq_ok_iff.mpr ⟨more, hm, rfl⟩⟩

theorem parse_eq_ok {tokens : List Token} {program : Program} :
    parse tokens = .ok program ↔ readStmts tokens = .ok program.body := by
  rw [parse]
  obtain ⟨body⟩ := program
  cases readStmts tokens with
  | error failure => simp
  | ok body' => simp

end JPlusPlus
