import JPlusPlus.Program.Outline
import JPlusPlus.Proofs.Text.Outline

/-!
# Programs are told apart by their outlines

The outline of a program has all of it: each statement and expression has a label of its own, and
its parts are fields in a fixed order. Only the branches of a conditional are laid out in another
way than the program has them, as a list of conditions with their bodies and a last body, and these
two together give the chain of branches back.

## Main statements

* `Program.eq_of_outline_pretty_eq`: programs whose outlines have the same text are the same.
-/

namespace JPlusPlus

open Outline (isPlain arePlain)

/-! ## The labels are words -/

theorem ArithOp.isLabel_name (op : ArithOp) : Outline.isLabel op.name = true := by
  cases op <;> decide

theorem CompareOp.isLabel_name (op : CompareOp) : Outline.isLabel op.name = true := by
  cases op <;> decide

theorem Expr.isPlain_outline (e : Expr) : isPlain e.outline = true := by
  induction e with
  | number digits => rfl
  | string value => rfl
  | ident name => rfl
  | binary op left right ihl ihr =>
    simp +decide [outline, isPlain, Outline.arePlainFields, op.isLabel_name, ihl, ihr]
  | concat left right ihl ihr =>
    simp +decide [outline, isPlain, Outline.arePlainFields, ihl, ihr]

theorem Condition.isPlain_outline (c : Condition) : isPlain c.outline = true := by
  simp +decide [outline, isPlain, Outline.arePlainFields, c.op.isLabel_name, c.left.isPlain_outline,
    c.right.isPlain_outline]

theorem Outline.isPlain_optional {part : Option Outline} (h : ∀ o ∈ part, isPlain o = true) :
    isPlain (optional part) = true := by
  rcases part with _ | o
  · rfl
  · have ho := h o rfl
    simp +decide [optional, isPlain, ho]

mutual

theorem Stmt.isPlain_outline : ∀ s : Stmt, isPlain s.outline = true
  | .declare name value => by
    have hvalue : ∀ o ∈ value.map Expr.outline, isPlain o = true := by
      intro o ho
      obtain ⟨e, -, rfl⟩ := Option.map_eq_some_iff.mp ho
      exact e.isPlain_outline
    simp +decide [Stmt.outline, isPlain, Outline.arePlainFields, Outline.isPlain_optional hvalue]
  | .assign name value => by
    simp +decide [Stmt.outline, isPlain, Outline.arePlainFields, value.isPlain_outline]
  | .print value => by
    simp +decide [Stmt.outline, isPlain, Outline.arePlainFields, value.isPlain_outline]
  | .branch condition body orElse => by
    simp +decide [Stmt.outline, isPlain, Outline.arePlainFields, condition.isPlain_outline,
      Stmt.arePlain_outlines body, ElseChain.arePlain_branchOutlines orElse,
      Outline.isPlain_optional (ElseChain.isPlain_lastOutline? orElse)]
  | .whileLoop condition body => by
    simp +decide [Stmt.outline, isPlain, Outline.arePlainFields, condition.isPlain_outline,
      Stmt.arePlain_outlines body]
  | .forLoop counter start stop body => by
    simp +decide [Stmt.outline, isPlain, Outline.arePlainFields, start.isPlain_outline,
      stop.isPlain_outline, Stmt.arePlain_outlines body]
  | .break => rfl
  | .continue => rfl

theorem Stmt.arePlain_outlines : ∀ body : List Stmt, arePlain (Stmt.outlines body) = true
  | [] => rfl
  | stmt :: more => by
    rw [Stmt.outlines, arePlain, Stmt.isPlain_outline stmt, Stmt.arePlain_outlines more]
    rfl

theorem ElseChain.arePlain_branchOutlines : ∀ chain : ElseChain,
    arePlain chain.branchOutlines = true
  | .nothing => rfl
  | .otherwise _ => rfl
  | .elseIf condition body orElse => by
    simp +decide [ElseChain.branchOutlines, arePlain, isPlain, Outline.arePlainFields,
      condition.isPlain_outline, Stmt.arePlain_outlines body,
      ElseChain.arePlain_branchOutlines orElse]

theorem ElseChain.isPlain_lastOutline? : ∀ chain : ElseChain, ∀ o ∈ chain.lastOutline?,
    isPlain o = true
  | .nothing, _, h => nomatch h
  | .otherwise body, o, h => by
    obtain rfl : Outline.list (Stmt.outlines body) = o := Option.some.inj h
    rw [isPlain, Stmt.arePlain_outlines body]
  | .elseIf _ _ orElse, o, h => ElseChain.isPlain_lastOutline? orElse o h

end

theorem Program.isPlain_outline (p : Program) : isPlain p.outline = true := by
  simp +decide [outline, isPlain, Outline.arePlainFields, Stmt.arePlain_outlines p.body]

/-! ## The outline has all of the program -/

theorem ArithOp.eq_of_name_eq {op op' : ArithOp} (h : op.name = op'.name) : op = op' := by
  cases op <;> cases op' <;> simp_all [name]

theorem CompareOp.eq_of_name_eq {op op' : CompareOp} (h : op.name = op'.name) : op = op' := by
  cases op <;> cases op' <;> simp_all [name]

theorem Expr.eq_of_outline_eq {e f : Expr} (h : e.outline = f.outline) : e = f := by
  induction e generalizing f with
  | number digits => cases f <;> simp_all [outline]
  | string value => cases f <;> simp_all [outline]
  | ident name => cases f <;> simp_all [outline]
  | binary op left right ihl ihr =>
    rcases f with _ | _ | _ | ⟨op', left', right'⟩ | _ <;> simp [outline] at h
    rw [ihl h.1, ArithOp.eq_of_name_eq h.2.1, ihr h.2.2]
  | concat left right ihl ihr =>
    rcases f with _ | _ | _ | _ | ⟨left', right'⟩ <;> simp [outline] at h
    rw [ihl h.1, ihr h.2]

theorem Condition.eq_of_outline_eq {c d : Condition} (h : c.outline = d.outline) : c = d := by
  obtain ⟨left, op, right⟩ := c
  obtain ⟨left', op', right'⟩ := d
  simp only [outline, Outline.record.injEq, List.cons.injEq, Prod.mk.injEq, true_and, and_true,
    Outline.label.injEq] at h
  rw [Expr.eq_of_outline_eq h.1, CompareOp.eq_of_name_eq h.2.1, Expr.eq_of_outline_eq h.2.2]

theorem Outline.eq_of_optional_eq {a b : Option Outline} (h : optional a = optional b) : a = b := by
  rcases a with _ | a <;> rcases b with _ | b <;> simp_all [optional]

mutual

theorem Stmt.eq_of_outline_eq : ∀ s t : Stmt, s.outline = t.outline → s = t
  | .declare name value, t, h => by
    rcases t with ⟨name', value'⟩ | _ | _ | _ | _ | _ | _ | _ <;> simp [Stmt.outline] at h
    have hvalue := Option.map_injective (fun _ _ ↦ Expr.eq_of_outline_eq)
      (Outline.eq_of_optional_eq h.2)
    rw [h.1, hvalue]
  | .assign name value, t, h => by
    rcases t with _ | ⟨name', value'⟩ | _ | _ | _ | _ | _ | _ <;> simp [Stmt.outline] at h
    rw [h.1, Expr.eq_of_outline_eq h.2]
  | .print value, t, h => by
    rcases t with _ | _ | value' | _ | _ | _ | _ | _ <;> simp [Stmt.outline] at h
    rw [Expr.eq_of_outline_eq h]
  | .branch condition body orElse, t, h => by
    rcases t with _ | _ | _ | ⟨condition', body', orElse'⟩ | _ | _ | _ | _ <;>
      simp [Stmt.outline] at h
    rw [Condition.eq_of_outline_eq h.1, Stmt.eq_of_outlines_eq body body' h.2.1,
      ElseChain.eq_of_outlines_eq orElse orElse' h.2.2.1 (Outline.eq_of_optional_eq h.2.2.2)]
  | .whileLoop condition body, t, h => by
    rcases t with _ | _ | _ | _ | ⟨condition', body'⟩ | _ | _ | _ <;> simp [Stmt.outline] at h
    rw [Condition.eq_of_outline_eq h.1, Stmt.eq_of_outlines_eq body body' h.2]
  | .forLoop counter start stop body, t, h => by
    rcases t with _ | _ | _ | _ | _ | ⟨counter', start', stop', body'⟩ | _ | _ <;>
      simp [Stmt.outline] at h
    rw [h.1, Expr.eq_of_outline_eq h.2.1, Expr.eq_of_outline_eq h.2.2.1,
      Stmt.eq_of_outlines_eq body body' h.2.2.2]
  | .break, t, h => by
    rcases t with _ | _ | _ | _ | _ | _ | _ | _ <;> simp [Stmt.outline] at h
    rfl
  | .continue, t, h => by
    rcases t with _ | _ | _ | _ | _ | _ | _ | _ <;> simp [Stmt.outline] at h
    rfl

theorem Stmt.eq_of_outlines_eq : ∀ body body' : List Stmt,
    Stmt.outlines body = Stmt.outlines body' → body = body'
  | [], [], _ => rfl
  | [], _ :: _, h => nomatch h
  | _ :: _, [], h => nomatch h
  | stmt :: more, stmt' :: more', h => by
    rw [Stmt.outlines, Stmt.outlines, List.cons.injEq] at h
    rw [Stmt.eq_of_outline_eq stmt stmt' h.1, Stmt.eq_of_outlines_eq more more' h.2]

/-- The list of branches and the last body give the chain back. -/
theorem ElseChain.eq_of_outlines_eq : ∀ chain chain' : ElseChain,
    chain.branchOutlines = chain'.branchOutlines → chain.lastOutline? = chain'.lastOutline? →
      chain = chain'
  | .nothing, chain', h, h' => by
    rcases chain' with _ | _ | _ <;> simp [ElseChain.branchOutlines, ElseChain.lastOutline?] at h h'
    rfl
  | .otherwise body, chain', h, h' => by
    rcases chain' with _ | body' | _ <;>
      simp [ElseChain.branchOutlines, ElseChain.lastOutline?] at h h'
    rw [Stmt.eq_of_outlines_eq body body' h']
  | .elseIf condition body orElse, chain', h, h' => by
    rcases chain' with _ | _ | ⟨condition', body', orElse'⟩ <;>
      simp [ElseChain.branchOutlines, ElseChain.lastOutline?] at h h'
    rw [Condition.eq_of_outline_eq h.1.1, Stmt.eq_of_outlines_eq body body' h.1.2,
      ElseChain.eq_of_outlines_eq orElse orElse' h.2 h']

end

/-- **Programs whose outlines have the same text are the same.** -/
theorem Program.eq_of_outline_pretty_eq {p q : Program} (h : p.outline.pretty = q.outline.pretty) :
    p = q := by
  have houtline := Outline.eq_of_pretty_eq p.isPlain_outline q.isPlain_outline h
  simp only [outline, Outline.record.injEq, List.cons.injEq, Prod.mk.injEq, true_and, and_true,
    Outline.list.injEq] at houtline
  obtain ⟨body⟩ := p
  obtain ⟨body'⟩ := q
  rw [Stmt.eq_of_outlines_eq body body' houtline]

end JPlusPlus
