import JPlusPlus.Proofs.Parse.Reads

/-!
# The parser accepts exactly its grammar

Both directions go through `Reads`. What is read is derived: every reader takes tokens off the
front, and the tokens it took spell what it gave, so the induction is on the number of tokens, as
it is for the readers themselves. What is derived is read: here the induction is on the derivation.

The second direction needs more than its own statement where the grammar and the readers group
differently. The grammar is left recursive and a reader goes through a chain of operands from left
to right with the chain so far in hand, so what is shown of a derived chain is that a reader may
stand anywhere in it (`ReadsAsChain`). Likewise statements may be taken off the front of a body one
at a time, whatever follows them.
-/

namespace JPlusPlus

/-! ## Levels and sorts -/

/-- The sort of the chains of a level. -/
def Level.chainSort : Level → ExprSort
  | sum => .sum
  | concat => .concat
  | product => .product

/-- The sort of the operands in the chains of a level. -/
def Level.operandSort : Level → ExprSort
  | sum => .concat
  | concat => .product
  | product => .atom

/-- The operators of each level, and what they make of their operands. -/
theorem Level.join?_eq_some {level : Level} {kind : Kind} {join : Expr → Expr → Expr}
    (h : level.join? kind = some join) :
    (level = .sum ∧ ∃ op, (op = .add ∨ op = .sub) ∧ kind = .operator op.mark ∧
      join = .binary op) ∨
    (level = .concat ∧ kind = .operator .dot ∧ join = .concat) ∨
    (level = .product ∧ ∃ op, (op = .mul ∨ op = .div) ∧ kind = .operator op.mark ∧
      join = .binary op) := by
  unfold Level.join? at h
  split at h
  · cases h
    exact .inl ⟨rfl, .add, .inl rfl, rfl, rfl⟩
  · cases h
    exact .inl ⟨rfl, .sub, .inr rfl, rfl, rfl⟩
  · cases h
    exact .inr (.inl ⟨rfl, rfl, rfl⟩)
  · cases h
    exact .inr (.inr ⟨rfl, .mul, .inl rfl, rfl, rfl⟩)
  · cases h
    exact .inr (.inr ⟨rfl, .div, .inr rfl, rfl, rfl⟩)
  · cases h

theorem derivesExpr_single {level : Level} {us : List Token} {e : Expr}
    (h : DerivesExpr level.operandSort us e) : DerivesExpr level.chainSort us e := by
  cases level with
  | sum => exact .sumSingle h
  | concat => exact .concatSingle h
  | product => exact .productSingle h

theorem derivesExpr_join {level : Level} {us vs : List Token} {t : Token} {left right : Expr}
    {join : Expr → Expr → Expr} (hj : level.join? t.kind = some join)
    (hl : DerivesExpr level.chainSort us left) (hr : DerivesExpr level.operandSort vs right) :
    DerivesExpr level.chainSort (us ++ t :: vs) (join left right) := by
  rcases Level.join?_eq_some hj with ⟨rfl, op, hop, hk, rfl⟩ | ⟨rfl, hk, rfl⟩ |
    ⟨rfl, op, hop, hk, rfl⟩
  · exact .sum hl hop hk hr
  · exact .concat hl hk hr
  · exact .product hl hop hk hr

/-! ## Where chains end -/

/-- No operator of a level tighter than `bound` comes next. -/
def NoJoinBelow (bound : Nat) (rest : List Token) : Prop :=
  ∀ level : Level, level.rank < bound → ∀ t us, rest = t :: us → level.join? t.kind = none

theorem noJoinBelow_one (rest : List Token) : NoJoinBelow 1 rest := by
  intro level h
  cases level <;> exact absurd h (by decide)

theorem noJoinBelow_succ {level : Level} {rest : List Token} :
    NoJoinBelow (level.rank + 1) rest ↔
      NoJoinBelow level.rank rest ∧ ∀ t us, rest = t :: us → level.join? t.kind = none := by
  constructor
  · intro h
    exact ⟨fun level' hlt ↦ h level' (by omega), h level (by omega)⟩
  · rintro ⟨hbelow, hlevel⟩ level' hlt
    by_cases he : level' = level
    · rw [he]
      exact hlevel
    · -- No two levels share a rank.
      refine hbelow level' ?_
      cases level <;> cases level' <;> simp_all [Level.rank]

theorem Level.join?_eq_some_mem {level : Level} {kind : Kind} {join : Expr → Expr → Expr}
    (h : level.join? kind = some join) : ∃ o ∈ exprOperators, kind = .operator o := by
  rcases Level.join?_eq_some h with ⟨-, op, rfl | rfl, hk, -⟩ | ⟨-, hk, -⟩ |
    ⟨-, op, rfl | rfl, hk, -⟩
  · exact ⟨_, by decide, hk⟩
  · exact ⟨_, by decide, hk⟩
  · exact ⟨_, by decide, hk⟩
  · exact ⟨_, by decide, hk⟩
  · exact ⟨_, by decide, hk⟩

theorem Level.exists_join? {o : Operator} (h : o ∈ exprOperators) :
    ∃ level : Level, level.join? (.operator o) ≠ none := by
  simp only [exprOperators, List.mem_cons, List.not_mem_nil, or_false] at h
  rcases h with rfl | rfl | rfl | rfl | rfl
  · exact ⟨.sum, by simp [Level.join?]⟩
  · exact ⟨.sum, by simp [Level.join?]⟩
  · exact ⟨.concat, by simp [Level.join?]⟩
  · exact ⟨.product, by simp [Level.join?]⟩
  · exact ⟨.product, by simp [Level.join?]⟩

/-- Below the bound 4 stand all levels, so the condition is that of a whole expression. -/
theorem noJoinBelow_four {rest : List Token} :
    NoJoinBelow 4 rest ↔ ∀ o ∈ exprOperators, nextKind rest ≠ some (.operator o) := by
  cases rest with
  | nil => simp [NoJoinBelow]
  | cons t us =>
    constructor
    · intro h o ho hk
      rw [nextKind_cons, Option.some.injEq] at hk
      obtain ⟨level, hj⟩ := Level.exists_join? ho
      rw [← hk] at hj
      exact hj (h level (by cases level <;> decide) t us rfl)
    · intro h level _ t' us' he
      cases he
      cases hj : level.join? t.kind with
      | none => rfl
      | some join =>
        obtain ⟨o, ho, hk⟩ := Level.join?_eq_some_mem hj
        exact absurd (congrArg some hk) (h o ho)

/-! ## What is read is derived: expressions -/

theorem Reads.length_lt {α : Type} {n : Nat} {outcome : Outcome α n} {value : α}
    {rest : List Token} (h : Reads outcome value rest) : rest.length < n := by
  obtain ⟨hlt, -⟩ := h
  exact hlt

mutual

theorem derivesExpr_of_readAtom {tokens rest : List Token} {e : Expr}
    (h : Reads (readAtom tokens) e rest) :
    ∃ us, tokens = us ++ rest ∧ DerivesExpr .atom us e := by
  rcases reads_readAtom.mp h with ⟨t, us, r, rfl, ht, hus, hr⟩ | ⟨t, rfl, hsingle⟩
  · obtain ⟨vs, rfl, hvs, -⟩ := derivesExpr_of_readLevel hus
    exact ⟨t :: vs ++ [r], by simp, .parens ht hvs hr⟩
  · rcases hsingle with ⟨ht, rfl⟩ | ⟨ht, rfl⟩ | ⟨ht, rfl⟩
    · exact ⟨[t], rfl, .number ht⟩
    · exact ⟨[t], rfl, .string ht⟩
    · exact ⟨[t], rfl, .ident ht⟩
termination_by (tokens.length, 0)

theorem derivesExpr_of_readOperand {tokens rest : List Token} {e : Expr} :
    ∀ level : Level, Reads (readOperand level tokens) e rest →
      ∃ us, tokens = us ++ rest ∧ DerivesExpr level.operandSort us e ∧
        NoJoinBelow level.rank rest
  | .sum, h => derivesExpr_of_readLevel (reads_readOperand_sum.mp h)
  | .concat, h => derivesExpr_of_readLevel (reads_readOperand_concat.mp h)
  | .product, h => by
    obtain ⟨us, he, hus⟩ := derivesExpr_of_readAtom (reads_readOperand_product.mp h)
    exact ⟨us, he, hus, noJoinBelow_one rest⟩
termination_by level => (tokens.length, 2 * level.rank)
decreasing_by all_goals simp [Prod.lex_def, Level.rank]

theorem derivesExpr_of_readLevel {level : Level} {tokens rest : List Token} {e : Expr}
    (h : Reads (readLevel level tokens) e rest) :
    ∃ us, tokens = us ++ rest ∧ DerivesExpr level.chainSort us e ∧
      NoJoinBelow (level.rank + 1) rest := by
  obtain ⟨left, us₁, hl, ht⟩ := reads_readLevel.mp h
  have hlt := hl.length_lt
  obtain ⟨us, rfl, hus, hn⟩ := derivesExpr_of_readOperand level hl
  obtain ⟨vs, rfl, hvs, hend⟩ := derivesExpr_of_readTail (derivesExpr_single hus) hn ht
  exact ⟨us ++ vs, by simp, hvs, hend⟩
termination_by (tokens.length, 2 * level.rank + 1)

theorem derivesExpr_of_readTail {level : Level} {us tokens rest : List Token} {left e : Expr}
    (hus : DerivesExpr level.chainSort us left) (hn : NoJoinBelow level.rank tokens)
    (h : Reads (readTail level left tokens) e rest) :
    ∃ vs, tokens = vs ++ rest ∧ DerivesExpr level.chainSort (us ++ vs) e ∧
      NoJoinBelow (level.rank + 1) rest := by
  by_cases hstop : ∀ t ts, tokens = t :: ts → level.join? t.kind = none
  · obtain ⟨rfl, rfl⟩ := (reads_readTail_stop hstop).mp h
    exact ⟨[], rfl, by simpa using hus, noJoinBelow_succ.mpr ⟨hn, hstop⟩⟩
  · cases tokens with
    | nil => exact absurd (fun t ts he ↦ nomatch he) hstop
    | cons t ts =>
      cases hj : level.join? t.kind with
      | none =>
        refine absurd (fun t' ts' he ↦ ?_) hstop
        cases he
        exact hj
      | some join =>
        obtain ⟨right, us₁, hr, htail⟩ := (reads_readTail_join hj).mp h
        have hlt := hr.length_lt
        obtain ⟨vs, rfl, hvs, hn₁⟩ := derivesExpr_of_readOperand level hr
        obtain ⟨ws, rfl, hws, hend⟩ :=
          derivesExpr_of_readTail (derivesExpr_join hj hus hvs) hn₁ htail
        exact ⟨t :: (vs ++ ws), by simp, by simpa using hws, hend⟩
termination_by (tokens.length, 0)

end

/-- A whole expression is read up to where no operator goes on with it. -/
theorem derivesWhole_of_readExpr {tokens rest : List Token} {e : Expr}
    (h : Reads (readExpr tokens) e rest) : ∃ us, tokens = us ++ rest ∧ DerivesWhole us rest e := by
  obtain ⟨us, he, hus, hn⟩ := derivesExpr_of_readLevel (reads_readExpr.mp h)
  exact ⟨us, he, hus, noJoinBelow_four.mp hn⟩

/-! ## What is derived is read: expressions

A derivation groups to the left and the parser reads from the left, so a chain cannot be shown to be
read by reading its last operand last. What goes through the induction instead is that a derived
chain may be taken off the front: reading it and more is going on after it with the derived
expression on the left. -/

/-- The tokens can be taken off the front of a chain, with the expression in their place. -/
def ReadsAsChain (level : Level) (us : List Token) (e : Expr) : Prop :=
  ∀ rest w rest', NoJoinBelow level.rank rest → Reads (readTail level e rest) w rest' →
    Reads (readLevel level (us ++ rest)) w rest'

/-- The tokens are read as an operand of a chain. -/
def ReadsAsOperand (level : Level) (us : List Token) (e : Expr) : Prop :=
  ∀ rest, NoJoinBelow level.rank rest → Reads (readOperand level (us ++ rest)) e rest

theorem ReadsAsOperand.chain {level : Level} {us : List Token} {e : Expr}
    (h : ReadsAsOperand level us e) : ReadsAsChain level us e := by
  intro rest w rest' hn htail
  exact reads_readLevel.mpr ⟨e, rest, h rest hn, htail⟩

/-- An operator belongs to one level. -/
theorem Level.eq_of_join? {level level' : Level} {kind : Kind} {join join' : Expr → Expr → Expr}
    (h : level.join? kind = some join) (h' : level'.join? kind = some join') : level = level' := by
  rcases Level.join?_eq_some h with ⟨rfl, op, rfl | rfl, rfl, -⟩ | ⟨rfl, rfl, -⟩ |
    ⟨rfl, op, rfl | rfl, rfl, -⟩ <;>
  cases level' <;> first | rfl | exact absurd h' (by simp [Level.join?, ArithOp.mark])

theorem noJoinBelow_of_join? {level : Level} {t : Token} {us : List Token}
    {join : Expr → Expr → Expr} (hj : level.join? t.kind = some join) :
    NoJoinBelow level.rank (t :: us) := by
  intro level' hlt t' us' he
  cases he
  cases hj' : level'.join? t.kind with
  | none => rfl
  | some join' =>
    rw [Level.eq_of_join? hj hj'] at hlt
    exact absurd hlt (Nat.lt_irrefl _)

theorem ReadsAsChain.join {level : Level} {us vs : List Token} {t : Token} {left right : Expr}
    {join : Expr → Expr → Expr} (hl : ReadsAsChain level us left)
    (hj : level.join? t.kind = some join) (hr : ReadsAsOperand level vs right) :
    ReadsAsChain level (us ++ t :: vs) (join left right) := by
  intro rest w rest' hn htail
  rw [List.append_assoc, List.cons_append]
  refine hl _ w rest' (noJoinBelow_of_join? hj) ?_
  exact (reads_readTail_join hj).mpr ⟨right, rest, hr rest hn, htail⟩

/-- A chain of the next tighter level is an operand, where that level ends after it. -/
theorem ReadsAsChain.reads {level : Level} {us rest : List Token} {e : Expr}
    (h : ReadsAsChain level us e) (hn : NoJoinBelow (level.rank + 1) rest) :
    Reads (readLevel level (us ++ rest)) e rest := by
  obtain ⟨hbelow, hstop⟩ := noJoinBelow_succ.mp hn
  exact h rest e rest hbelow ((reads_readTail_stop hstop).mpr ⟨rfl, rfl⟩)

/-- What a derivation of each sort promises of the parser. -/
def ReadsBack : ExprSort → List Token → Expr → Prop
  | .sum => ReadsAsChain .sum
  | .concat => ReadsAsChain .concat
  | .product => ReadsAsChain .product
  | .atom => ReadsAsOperand .product

theorem DerivesExpr.readsBack {sort : ExprSort} {us : List Token} {e : Expr}
    (h : DerivesExpr sort us e) : ReadsBack sort us e := by
  induction h with
  | sum hl hop hk hr ihl ihr =>
    refine ReadsAsChain.join ihl ?_ fun rest hn ↦ reads_readOperand_sum.mpr (ihr.reads hn)
    rcases hop with rfl | rfl <;> rw [hk] <;> rfl
  | sumSingle h ih =>
    exact ReadsAsOperand.chain fun rest hn ↦ reads_readOperand_sum.mpr (ih.reads hn)
  | concat hl hk hr ihl ihr =>
    refine ReadsAsChain.join ihl ?_ fun rest hn ↦ reads_readOperand_concat.mpr (ihr.reads hn)
    rw [hk]
    rfl
  | concatSingle h ih =>
    exact ReadsAsOperand.chain fun rest hn ↦ reads_readOperand_concat.mpr (ih.reads hn)
  | product hl hop hk hr ihl ihr =>
    refine ReadsAsChain.join ihl ?_ ihr
    rcases hop with rfl | rfl <;> rw [hk] <;> rfl
  | productSingle h ih => exact ReadsAsOperand.chain ih
  | @parens l r us e hl h hr ih =>
    intro rest hn
    -- Inside parentheses the loosest chain ends at the closing one, whatever follows it.
    have hus : Reads (readLevel .sum (us ++ r :: rest)) e (r :: rest) := by
      refine ih.reads (noJoinBelow_four.mpr fun o _ ↦ ?_)
      simp [hr]
    refine reads_readOperand_product.mpr (reads_readAtom.mpr (.inl ⟨l, us ++ r :: rest, r, ?_, hl,
      hus, hr⟩))
    simp
  | number ht =>
    intro rest hn
    exact reads_readOperand_product.mpr (reads_readAtom.mpr (.inr ⟨_, rfl, .inl ⟨ht, rfl⟩⟩))
  | string ht =>
    intro rest hn
    exact reads_readOperand_product.mpr
      (reads_readAtom.mpr (.inr ⟨_, rfl, .inr (.inl ⟨ht, rfl⟩)⟩))
  | ident ht =>
    intro rest hn
    exact reads_readOperand_product.mpr
      (reads_readAtom.mpr (.inr ⟨_, rfl, .inr (.inr ⟨ht, rfl⟩)⟩))

theorem DerivesWhole.reads {us rest : List Token} {e : Expr} (h : DerivesWhole us rest e) :
    Reads (readExpr (us ++ rest)) e rest :=
  reads_readExpr.mpr (h.derives.readsBack.reads (noJoinBelow_four.mpr h.ends))

/-! ## Conditions and heads, both ways -/

theorem CompareOp.ofKind?_eq_some_iff {kind : Kind} {op : CompareOp} :
    CompareOp.ofKind? kind = some op ↔ kind = .operator op.mark := by
  constructor
  · intro h
    unfold CompareOp.ofKind? at h
    split at h <;> cases h <;> rfl
  · rintro rfl
    cases op <;> rfl

theorem reads_readCondition_iff {tokens rest : List Token} {c : Condition} :
    Reads (readCondition tokens) c rest ↔
      ∃ us, tokens = us ++ rest ∧ DerivesCondition us rest c := by
  rw [reads_readCondition]
  constructor
  · rintro ⟨t, us₁, hl, hop, hr⟩
    obtain ⟨us, rfl, hus⟩ := derivesWhole_of_readExpr hl
    obtain ⟨vs, rfl, hvs⟩ := derivesWhole_of_readExpr hr
    exact ⟨us ++ t :: vs, by simp, .mk hus (CompareOp.ofKind?_eq_some_iff.mp hop) hvs⟩
  · rintro ⟨_, rfl, h⟩
    cases h with
    | @mk us vs _ t _ hl hop hr =>
      refine ⟨t, vs ++ rest, ?_, CompareOp.ofKind?_eq_some_iff.mpr hop, hr.reads⟩
      rw [List.append_assoc]
      exact hl.reads

theorem reads_readHead_iff {place : BodyPlace} {tokens rest : List Token} {c : Condition} :
    Reads (readHead place tokens) c rest ↔ ∃ us, tokens = us ++ rest ∧ DerivesHead us rest c := by
  rw [reads_readHead]
  constructor
  · rintro ⟨b, hc, hb⟩
    obtain ⟨us, rfl, hus⟩ := reads_readCondition_iff.mp hc
    exact ⟨us ++ [b], by simp, .mk hus hb⟩
  · rintro ⟨_, rfl, h⟩
    cases h with
    | @mk us _ b _ hc hb => exact ⟨b, reads_readCondition_iff.mpr ⟨us, by simp, hc⟩, hb⟩

/-! ## What is read is derived: statements -/

theorem DerivesBlock.junk {inLoop : Bool} {t : Token} {us rest : List Token} {body : List Stmt}
    (ht : t.kind ∉ stmtStarts) (hb : t.kind ≠ .delimiter .rbrace)
    (h : DerivesBlock inLoop us rest body) : DerivesBlock inLoop (t :: us) rest body := by
  cases h with
  | closed h hr => exact .closed (.junk ht (fun _ ↦ hb) h) hr
  | unclosed h => exact .unclosed (.junk ht (fun _ ↦ hb) h)

theorem DerivesBlock.cons {inLoop : Bool} {us vs rest : List Token} {s : Stmt} {body : List Stmt}
    (hs : DerivesStmt inLoop us (vs ++ rest) s) (h : DerivesBlock inLoop vs rest body) :
    DerivesBlock inLoop (us ++ vs) rest (s :: body) := by
  cases h with
  | @closed _ vs _ b _ h hr =>
    rw [← List.append_assoc]
    exact .closed (.cons (by simpa using hs) h) hr
  | unclosed h => exact .unclosed (.cons hs h)

theorem derivesStmt_of_readDeclaration {inLoop : Bool} {t : Token} {us rest : List Token}
    {s : Stmt} (ht : t.kind = .keyword .ye) (h : Reads (readDeclaration us) s rest) :
    ∃ vs, t :: us = vs ++ rest ∧ DerivesStmt inLoop vs rest s := by
  obtain ⟨name, us₁, rfl, hn, hno | hval⟩ := reads_readDeclaration.mp h
  · obtain ⟨hstop, rfl, rfl⟩ := hno
    refine ⟨[t, name], rfl, .declare ht hn ?_⟩
    cases us₁ with
    | nil => simp
    | cons a us₂ => simpa using hstop a us₂ rfl
  · obtain ⟨a, us₂, e, rfl, ha, he, rfl⟩ := hval
    obtain ⟨vs, rfl, hvs⟩ := derivesWhole_of_readExpr he
    exact ⟨t :: name :: a :: vs, rfl, .declareValue ht hn ha hvs⟩

theorem derivesStmt_of_readAssignment {inLoop : Bool} {t : Token} {us rest : List Token}
    {s : Stmt} (ht : t.kind = .ident) (h : Reads (readAssignment t.text us) s rest) :
    ∃ vs, t :: us = vs ++ rest ∧ DerivesStmt inLoop vs rest s := by
  obtain ⟨a, us₁, e, rfl, ha, he, rfl⟩ := reads_readAssignment.mp h
  obtain ⟨vs, rfl, hvs⟩ := derivesWhole_of_readExpr he
  exact ⟨t :: a :: vs, rfl, .assign ht ha hvs⟩

theorem derivesStmt_of_readPrint {inLoop : Bool} {t : Token} {us rest : List Token} {s : Stmt}
    (ht : t.kind = .keyword .bol) (h : Reads (readPrint us) s rest) :
    ∃ vs, t :: us = vs ++ rest ∧ DerivesStmt inLoop vs rest s := by
  obtain ⟨e, he, rfl⟩ := reads_readPrint.mp h
  obtain ⟨vs, rfl, hvs⟩ := derivesWhole_of_readExpr he
  exact ⟨t :: vs, rfl, .print ht hvs⟩

mutual

theorem derivesStmt_of_readStmt {inLoop : Bool} {t : Token} {us rest : List Token}
    {s : Option Stmt} (h : Reads (readStmt inLoop t us) s rest) :
    (t.kind ∉ stmtStarts ∧ s = none ∧ us = rest) ∨
      ∃ vs st, t :: us = vs ++ rest ∧ s = some st ∧ DerivesStmt inLoop vs rest st := by
  by_cases hj : t.kind ∈ stmtStarts
  · refine .inr ?_
    simp only [stmtStarts, List.mem_cons, List.not_mem_nil, or_false] at hj
    rcases hj with ht | ht | ht | ht | ht | ht | ht | ht
    · obtain ⟨st, hd, rfl⟩ := (reads_readStmt_ye ht).mp h
      obtain ⟨vs, he, hvs⟩ := derivesStmt_of_readDeclaration ht hd
      exact ⟨vs, st, he, rfl, hvs⟩
    · obtain ⟨st, hd, rfl⟩ := (reads_readStmt_bol ht).mp h
      obtain ⟨vs, he, hvs⟩ := derivesStmt_of_readPrint ht hd
      exact ⟨vs, st, he, rfl, hvs⟩
    · obtain ⟨c, us₁, hc, body, us₂, hb, orElse, us₃, he, rfl, rfl⟩ :=
        (reads_readStmt_agar ht).mp h
      -- The parts are taken from the last to the first: each tells the tokens left for the one
      -- before it, and the bounds are what makes the recursion stop.
      have hlt₁ := hc.length_lt
      have hlt₂ := hb.length_lt
      obtain ⟨bs, rfl, hbs⟩ := derivesBlock_of_readBlock hb
      obtain ⟨es, rfl, hes⟩ := derivesElse_of_readElse he
      obtain ⟨hs, rfl, hhs⟩ := reads_readHead_iff.mp hc
      exact ⟨t :: (hs ++ (bs ++ es)), _, by simp, rfl, .branch ht hhs hbs hes⟩
    · obtain ⟨c, us₁, hc, body, us₂, hb, rfl, rfl⟩ := (reads_readStmt_jabtak ht).mp h
      have hlt₁ := hc.length_lt
      obtain ⟨bs, rfl, hbs⟩ := derivesBlock_of_readBlock hb
      obtain ⟨hs, rfl, hhs⟩ := reads_readHead_iff.mp hc
      exact ⟨t :: (hs ++ bs), _, by simp, rfl, .whileLoop ht hhs hbs⟩
    · obtain ⟨count, us₁, hc, body, us₂, hb, rfl, rfl⟩ := (reads_readStmt_keLiye ht).mp h
      have hlt₁ := hc.length_lt
      obtain ⟨bs, rfl, hbs⟩ := derivesBlock_of_readBlock hb
      obtain ⟨v, a, vs₂, k, vs₄, b, rfl, hv, hx, ha, hstart, hk, hstop, hbr⟩ :=
        reads_readCount.mp hc
      obtain ⟨es, rfl, hes⟩ := derivesWhole_of_readExpr hstop
      obtain ⟨ss, rfl, hss⟩ := derivesWhole_of_readExpr hstart
      rw [← hx]
      exact ⟨t :: v :: a :: (ss ++ k :: (es ++ b :: bs)), _, by simp, rfl,
        .forLoop ht hv ha hss hk hes hbr hbs⟩
    · obtain ⟨rfl, rfl, rfl⟩ := (reads_readStmt_break ht).mp h
      exact ⟨[t], _, rfl, rfl, .break ht⟩
    · obtain ⟨rfl, rfl, rfl⟩ := (reads_readStmt_continue ht).mp h
      exact ⟨[t], _, rfl, rfl, .continue ht⟩
    · obtain ⟨st, hd, rfl⟩ := (reads_readStmt_ident ht).mp h
      obtain ⟨vs, he, hvs⟩ := derivesStmt_of_readAssignment ht hd
      exact ⟨vs, st, he, rfl, hvs⟩
  · obtain ⟨rfl, rfl⟩ := (reads_readStmt_junk hj).mp h
    exact .inl ⟨hj, rfl, rfl⟩
termination_by (us.length + 1, 0)

theorem derivesBlock_of_readBlock {inLoop : Bool} {rest : List Token} {body : List Stmt} :
    ∀ {tokens : List Token}, Reads (readBlock inLoop tokens) body rest →
      ∃ us, tokens = us ++ rest ∧ DerivesBlock inLoop us rest body
  | [], h => by
    obtain ⟨rfl, rfl⟩ := reads_readBlock_nil.mp h
    exact ⟨[], rfl, .unclosed .nil⟩
  | t :: us, h => by
    by_cases ht : t.kind = .delimiter .rbrace
    · obtain ⟨rfl, rfl⟩ := (reads_readBlock_rbrace ht).mp h
      exact ⟨[t], rfl, .closed .nil ht⟩
    · obtain ⟨s, us₁, hs, more, us₂, hm, rfl, rfl⟩ := (reads_readBlock_cons ht).mp h
      have hlt := hs.length_lt
      obtain ⟨vs, rfl, hvs⟩ := derivesBlock_of_readBlock hm
      rcases derivesStmt_of_readStmt hs with ⟨hj, rfl, rfl⟩ | ⟨ws, st, he, rfl, hws⟩
      · exact ⟨t :: vs, rfl, hvs.junk hj ht⟩
      · exact ⟨ws ++ vs, by simpa using he, .cons hws hvs⟩
termination_by tokens => (tokens.length, 1)

theorem derivesElse_of_readElse {inLoop : Bool} {rest : List Token} {chain : ElseChain} :
    ∀ {tokens : List Token}, Reads (readElse inLoop tokens) chain rest →
      ∃ us, tokens = us ++ rest ∧ DerivesElse inLoop us rest chain
  | [], h => by
    obtain ⟨rfl, rfl⟩ := (reads_readElse_stop (by simp) (by simp)).mp h
    exact ⟨[], rfl, .nothing (by simp) (by simp)⟩
  | t :: us, h => by
    by_cases h₁ : t.kind = .keyword .nahiAgar
    · obtain ⟨c, us₁, hc, body, us₂, hb, orElse, us₃, he, rfl, rfl⟩ :=
        (reads_readElse_nahiAgar h₁).mp h
      have hlt₁ := hc.length_lt
      have hlt₂ := hb.length_lt
      obtain ⟨bs, rfl, hbs⟩ := derivesBlock_of_readBlock hb
      obtain ⟨es, rfl, hes⟩ := derivesElse_of_readElse he
      obtain ⟨hs, rfl, hhs⟩ := reads_readHead_iff.mp hc
      exact ⟨t :: (hs ++ (bs ++ es)), by simp, .elseIf h₁ hhs hbs hes⟩
    by_cases h₂ : t.kind = .keyword .nahi
    · obtain ⟨b, us₁, hl, body, us₂, hb, rfl, rfl⟩ := (reads_readElse_nahi h₂).mp h
      obtain ⟨rfl, hbr⟩ := reads_expect.mp hl
      obtain ⟨bs, rfl, hbs⟩ := derivesBlock_of_readBlock hb
      exact ⟨t :: b :: bs, rfl, .otherwise h₂ hbr hbs⟩
    · have hstop₁ : nextKind (t :: us) ≠ some (.keyword .nahiAgar) := by simpa using h₁
      have hstop₂ : nextKind (t :: us) ≠ some (.keyword .nahi) := by simpa using h₂
      obtain ⟨rfl, rfl⟩ := (reads_readElse_stop hstop₁ hstop₂).mp h
      exact ⟨[], rfl, .nothing hstop₁ hstop₂⟩
termination_by tokens => (tokens.length, 1)

end

/-! ## What is derived is read: statements -/

mutual

theorem DerivesStmt.reads {inLoop : Bool} {rest : List Token} {s : Stmt} :
    ∀ {us : List Token}, DerivesStmt inLoop us rest s →
      ∃ t vs, us = t :: vs ∧ t.kind ∈ stmtStarts ∧
        Reads (readStmt inLoop t (vs ++ rest)) (some s) rest
  | _, .declare ht hn hstop => by
    refine ⟨_, _, rfl, by simp [ht, stmtStarts],
      (reads_readStmt_ye ht).mpr ⟨_, ?_, rfl⟩⟩
    refine reads_readDeclaration.mpr ⟨_, rest, rfl, hn, .inl ⟨?_, rfl, rfl⟩⟩
    rintro t us rfl
    simpa using hstop
  | _, .declareValue ht hn ha he =>
    ⟨_, _, rfl, by simp [ht, stmtStarts],
      (reads_readStmt_ye ht).mpr ⟨_, reads_readDeclaration.mpr
      ⟨_, _, rfl, hn, .inr ⟨_, _, _, rfl, ha, he.reads, rfl⟩⟩, rfl⟩⟩
  | _, .assign hn ha he =>
    ⟨_, _, rfl, by simp [hn, stmtStarts],
      (reads_readStmt_ident hn).mpr ⟨_, reads_readAssignment.mpr
      ⟨_, _, _, rfl, ha, he.reads, rfl⟩, rfl⟩⟩
  | _, .print ht he =>
    ⟨_, _, rfl, by simp [ht, stmtStarts],
      (reads_readStmt_bol ht).mpr ⟨_, reads_readPrint.mpr ⟨_, he.reads, rfl⟩, rfl⟩⟩
  | _, .branch ht hc hb he =>
    ⟨_, _, rfl, by simp [ht, stmtStarts],
      (reads_readStmt_agar ht).mpr ⟨_, _, reads_readHead_iff.mpr ⟨_, by simp, hc⟩, _, _,
      hb.reads, _, _, he.reads, rfl, rfl⟩⟩
  | _, .whileLoop ht hc hb =>
    ⟨_, _, rfl, by simp [ht, stmtStarts],
      (reads_readStmt_jabtak ht).mpr ⟨_, _, reads_readHead_iff.mpr ⟨_, by simp, hc⟩, _, _,
      hb.reads, rfl, rfl⟩⟩
  | _, .forLoop ht hv ha hss hk hes hbr hb => by
    refine ⟨_, _, rfl, by simp [ht, stmtStarts],
      (reads_readStmt_keLiye ht).mpr ⟨⟨_, _, _⟩, _, ?_, _, _, hb.reads, rfl, rfl⟩⟩
    exact reads_readCount.mpr
      ⟨_, _, _, _, _, _, by simp, hv, rfl, ha, hss.reads, hk, hes.reads, hbr⟩
  | _, .break ht => ⟨_, _, rfl, by simp [ht, stmtStarts],
      (reads_readStmt_break ht).mpr ⟨rfl, rfl, rfl⟩⟩
  | _, .continue ht => ⟨_, _, rfl, by simp [ht, stmtStarts],
      (reads_readStmt_continue ht).mpr ⟨rfl, rfl, rfl⟩⟩

theorem DerivesElse.reads {inLoop : Bool} {rest : List Token} {chain : ElseChain} :
    ∀ {us : List Token}, DerivesElse inLoop us rest chain →
      Reads (readElse inLoop (us ++ rest)) chain rest
  | _, .nothing h₁ h₂ => (reads_readElse_stop h₁ h₂).mpr ⟨rfl, rfl⟩
  | _, .otherwise ht hbr hb =>
    (reads_readElse_nahi ht).mpr ⟨_, _, reads_expect.mpr ⟨rfl, hbr⟩, _, _, hb.reads, rfl, rfl⟩
  | _, .elseIf ht hc hb he =>
    (reads_readElse_nahiAgar ht).mpr ⟨_, _, reads_readHead_iff.mpr ⟨_, by simp, hc⟩, _, _,
      hb.reads, _, _, he.reads, rfl, rfl⟩

theorem DerivesBlock.reads {inLoop : Bool} {rest : List Token} {body : List Stmt} :
    ∀ {us : List Token}, DerivesBlock inLoop us rest body →
      Reads (readBlock inLoop (us ++ rest)) body rest
  | _, .closed h hr => by
    rw [List.append_assoc]
    have hend := h.reads rfl _ _ ((reads_readBlock_rbrace hr).mpr ⟨rfl, rfl⟩)
    simpa using hend
  | _, .unclosed h => by
    have hend := h.reads rfl _ _ (reads_readBlock_nil.mpr ⟨rfl, rfl⟩)
    simpa using hend

/-- Statements may be taken off the front of a body. -/
theorem DerivesStmts.reads {inBody inLoop : Bool} {rest : List Token} {body : List Stmt} :
    ∀ {us : List Token}, DerivesStmts inBody inLoop us rest body → inBody = true →
      ∀ more rest', Reads (readBlock inLoop rest) more rest' →
        Reads (readBlock inLoop (us ++ rest)) (body ++ more) rest'
  | _, .nil, _, _, _, hm => hm
  | _, .junk hj hb h, hin, more, rest', hm =>
    (reads_readBlock_cons (hb hin)).mpr ⟨none, _, (reads_readStmt_junk hj).mpr ⟨rfl, rfl⟩, _, _,
      h.reads hin more rest' hm, rfl, rfl⟩
  | _, .cons hs h, hin, more, rest', hm => by
    rw [List.append_assoc]
    obtain ⟨t, vs, rfl, ht, hst⟩ := hs.reads
    -- A statement does not start with the brace that would close the body.
    have hb : t.kind ≠ .delimiter .rbrace := by
      intro he
      rw [he] at ht
      exact absurd ht (by decide)
    exact (reads_readBlock_cons hb).mpr ⟨_, _, hst, _, _, h.reads hin more rest' hm, rfl, rfl⟩

end

/-! ## Programs -/

theorem derivesStmts_of_readStmts {body : List Stmt} :
    ∀ {tokens : List Token}, readStmts tokens = .ok body → DerivesStmts false false tokens [] body
  | [], h => by
    rw [readStmts] at h
    cases h
    exact .nil
  | t :: us, h => by
    obtain ⟨s, us₁, hs, more, hm, rfl⟩ := readStmts_cons_eq_ok.mp h
    have hlt := hs.length_lt
    have hmore := derivesStmts_of_readStmts hm
    rcases derivesStmt_of_readStmt hs with ⟨hj, rfl, rfl⟩ | ⟨vs, st, he, rfl, hvs⟩
    · exact .junk hj (fun h ↦ absurd h Bool.false_ne_true) hmore
    · rw [he]
      exact .cons (by simpa using hvs) hmore
termination_by tokens => tokens.length

/-- Statements may be taken off the front of a program. -/
theorem DerivesStmts.readStmts_eq {inBody inLoop : Bool} {rest : List Token} {body : List Stmt} :
    ∀ {us : List Token}, DerivesStmts inBody inLoop us rest body → inLoop = false →
      ∀ more, readStmts rest = .ok more → readStmts (us ++ rest) = .ok (body ++ more)
  | _, .nil, _, _, hm => hm
  | _, .junk hj _ h, hout, more, hm =>
    readStmts_cons_eq_ok.mpr ⟨none, _, (reads_readStmt_junk hj).mpr ⟨rfl, rfl⟩, _,
      h.readStmts_eq hout more hm, rfl⟩
  | _, .cons hs h, hout, more, hm => by
    rw [List.append_assoc]
    obtain ⟨t, vs, rfl, -, hst⟩ := hs.reads
    subst hout
    exact readStmts_cons_eq_ok.mpr ⟨_, _, hst, _, h.readStmts_eq rfl more hm, rfl⟩

theorem Derives.parse_eq {tokens : List Token} {program : Program} (h : Derives tokens program) :
    parse tokens = .ok program := by
  have hend : readStmts [] = .ok [] := by rw [readStmts]; rfl
  rw [parse_eq_ok]
  simpa using DerivesStmts.readStmts_eq h rfl [] hend

/-- **The parser accepts exactly the grammar**: it gives back a program when the tokens spell that
program, and nothing else. -/
theorem parse_eq_ok_iff_derives (tokens : List Token) (program : Program) :
    parse tokens = .ok program ↔ Derives tokens program := by
  constructor
  · intro h
    exact derivesStmts_of_readStmts (parse_eq_ok.mp h)
  · exact Derives.parse_eq

end JPlusPlus
