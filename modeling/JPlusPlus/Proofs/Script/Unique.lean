import JPlusPlus.Proofs.Script.Lines
import JPlusPlus.Proofs.Token.Render

/-!
# Scripts from their text

A script whose names have the form of names and whose numbers are runs of digits can be told from
its text. Nothing is reserved: a variable may be called `let` or `if`, so a statement is not known
by its first word alone but by that word together with what follows it. A string may hold any text;
its quotes and backslashes are escaped, so the first bare quote ends it.

The lines of a block all start with a space and the line that closes it does not. So the bodies of
statements can be found without reading the statements in them.

## Main statements

* `Script.Expr.text_append_inj`: an expression can be told from a text that starts with it.
* `Script.eq_of_text_eq`: a script can be told from its text.
-/

namespace JPlusPlus

/-- Names are words, and numbers are runs of digits. -/
def plainForms : Forms := ⟨isName, isDigits⟩

theorem isWordChar_of_isName {x : String} (h : isName x = true) :
    ∀ c ∈ x.toList, Scan.isWordChar c = true := by
  rw [isName] at h
  split at h
  · cases h
  · next c cs hx =>
    rw [Bool.and_eq_true, List.all_eq_true] at h
    rw [hx]
    exact List.forall_mem_cons.mpr ⟨Scan.isWordChar_of_isWordStart h.1, h.2⟩

theorem isWordChar_of_isDigits {d : String} (h : isDigits d = true) :
    ∀ c ∈ d.toList, Scan.isWordChar c = true := by
  rw [isDigits, Bool.and_eq_true, List.all_eq_true] at h
  exact fun c hc ↦ Scan.isWordChar_of_isDigit (h.2 c hc)

theorem head?_of_isName {x : String} (h : isName x = true) :
    ∃ c cs, x.toList = c :: cs ∧ Scan.isWordStart c = true := by
  rw [isName] at h
  split at h
  · cases h
  · next c cs hx => exact ⟨c, cs, hx, (Bool.and_eq_true_iff.mp h).1⟩

theorem head?_of_isDigits {d : String} (h : isDigits d = true) :
    ∃ c cs, d.toList = c :: cs ∧ c.isDigit = true := by
  rw [isDigits] at h
  cases hd : d.toList with
  | nil => simp [hd] at h
  | cons c cs => exact ⟨c, cs, rfl, by simp_all⟩

namespace Script

open Scan (isWordChar isWordStart)

/-! ## Words -/

/-- The list does not go on with a member of this kind. -/
def Ends {α : Type} (p : α → Bool) (rest : List α) : Prop := ∀ c ∈ rest.head?, p c = false

theorem ends_cons {α : Type} {p : α → Bool} {c : α} (h : p c = false) (rest : List α) :
    Ends p (c :: rest) := by
  rintro d hd
  cases hd
  exact h

theorem span_append {α : Type} {p : α → Bool} {w rest : List α} (hw : ∀ c ∈ w, p c = true)
    (hrest : Ends p rest) : (w ++ rest).takeWhile p = w ∧ (w ++ rest).dropWhile p = rest := by
  rw [List.takeWhile_append_of_pos hw, List.dropWhile_append_of_pos hw]
  cases rest with
  | nil => exact ⟨List.append_nil w, rfl⟩
  | cons c cs =>
    have hc : ¬p c = true := by simp [hrest c rfl]
    rw [List.takeWhile_cons_of_neg hc, List.dropWhile_cons_of_neg hc, List.append_nil]
    exact ⟨rfl, rfl⟩

/-- The members of a kind that a list starts with can be told from the list, and so can the rest. -/
theorem span_append_inj {α : Type} {p : α → Bool} {w w' rest rest' : List α}
    (hw : ∀ c ∈ w, p c = true) (hw' : ∀ c ∈ w', p c = true) (hrest : Ends p rest)
    (hrest' : Ends p rest') (h : w ++ rest = w' ++ rest') : w = w' ∧ rest = rest' := by
  obtain ⟨htake, hdrop⟩ := span_append hw hrest
  obtain ⟨htake', hdrop'⟩ := span_append hw' hrest'
  rw [h] at htake hdrop
  exact ⟨htake.symm.trans htake', hdrop.symm.trans hdrop'⟩

theorem name_append_inj {x y : String} {rest rest' : List Char} (hx : isName x = true)
    (hy : isName y = true) (hrest : Ends isWordChar rest) (hrest' : Ends isWordChar rest')
    (h : x.toList ++ rest = y.toList ++ rest') : x = y ∧ rest = rest' := by
  obtain ⟨hw, hr⟩ :=
    span_append_inj (isWordChar_of_isName hx) (isWordChar_of_isName hy) hrest hrest' h
  exact ⟨String.toList_inj.mp hw, hr⟩

/-- What stands before a space can be told from the text. -/
theorem before_space_inj {w w' rest rest' : List Char} (hw : ' ' ∉ w) (hw' : ' ' ∉ w')
    (h : w ++ ' ' :: rest = w' ++ ' ' :: rest') : w = w' ∧ rest = rest' := by
  have hp : ∀ v : List Char, ' ' ∉ v → ∀ c ∈ v, (c != ' ') = true := fun v hv c hc ↦
    bne_iff_ne.mpr fun he ↦ hv (he ▸ hc)
  obtain ⟨hword, hr⟩ := span_append_inj (hp w hw) (hp w' hw') (ends_cons (by decide) rest)
    (ends_cons (by decide) rest') h
  exact ⟨hword, (List.cons.inj hr).2⟩

theorem arithOp_append_inj {op op' : ArithOp} {rest rest' : List Char}
    (h : op.symbol.toList ++ ' ' :: rest = op'.symbol.toList ++ ' ' :: rest') :
    op = op' ∧ rest = rest' := by
  obtain ⟨hop, hr⟩ := before_space_inj (by cases op <;> decide) (by cases op' <;> decide) h
  exact ⟨by cases op <;> cases op' <;> first | rfl | exact absurd hop (by decide), hr⟩

theorem compareOp_append_inj {op op' : CompareOp} {rest rest' : List Char}
    (h : op.symbol.toList ++ ' ' :: rest = op'.symbol.toList ++ ' ' :: rest') :
    op = op' ∧ rest = rest' := by
  obtain ⟨hop, hr⟩ := before_space_inj (by cases op <;> decide) (by cases op' <;> decide) h
  exact ⟨by cases op <;> cases op' <;> first | rfl | exact absurd hop (by decide), hr⟩

/-! ## Strings -/

/-- The character that is meant by the one after a backslash. -/
def unescape : Char → Char
  | 'n' => '\n'
  | 't' => '\t'
  | 'r' => '\r'
  | c => c

/-- A character stands for itself or is meant by the one after a backslash. -/
theorem escapeChar_cases (c : Char) :
    (escapeChar c = [c] ∧ c ≠ '\\' ∧ c ≠ '\x22') ∨
      ∃ d, escapeChar c = ['\\', d] ∧ unescape d = c := by
  rw [escapeChar]
  split
  · next h => exact .inr ⟨'\\', rfl, h.symm⟩
  split
  · next h => exact .inr ⟨'\x22', rfl, h.symm⟩
  split
  · next h => exact .inr ⟨'n', rfl, h.symm⟩
  split
  · next h => exact .inr ⟨'t', rfl, h.symm⟩
  split
  · next h => exact .inr ⟨'r', rfl, h.symm⟩
  · next hslash hquote _ _ _ => exact .inl ⟨rfl, hslash, hquote⟩

theorem escapeChar_append_inj {c d : Char} {rest rest' : List Char}
    (h : escapeChar c ++ rest = escapeChar d ++ rest') : c = d ∧ rest = rest' := by
  rcases escapeChar_cases c with ⟨hc, hne, -⟩ | ⟨c', hc, rfl⟩ <;>
    rcases escapeChar_cases d with ⟨hd, hne', -⟩ | ⟨d', hd, rfl⟩ <;>
    rw [hc, hd] at h <;>
    obtain ⟨hfirst, h⟩ := List.cons.inj h
  · exact ⟨hfirst, h⟩
  · exact absurd hfirst hne
  · exact absurd hfirst.symm hne'
  · obtain ⟨rfl, hrest⟩ := List.cons.inj h
    exact ⟨rfl, hrest⟩

theorem escapeChar_append_ne_quote (c : Char) (rest rest' : List Char) :
    escapeChar c ++ rest ≠ '\x22' :: rest' := by
  intro h
  rcases escapeChar_cases c with ⟨hc, -, hne⟩ | ⟨d, hd, -⟩
  · rw [hc] at h
    exact hne (List.cons.inj h).1
  · rw [hd] at h
    exact absurd (List.cons.inj h).1 (by decide)

theorem escaped_append_inj {v v' rest rest' : List Char}
    (h : v.flatMap escapeChar ++ '\x22' :: rest = v'.flatMap escapeChar ++ '\x22' :: rest') :
    v = v' ∧ rest = rest' := by
  induction v generalizing v' with
  | nil =>
    cases v' with
    | nil => exact ⟨rfl, (List.cons.inj h).2⟩
    | cons d v' =>
      rw [List.flatMap_cons, List.append_assoc] at h
      exact absurd h.symm (escapeChar_append_ne_quote d _ _)
  | cons c v ih =>
    rw [List.flatMap_cons, List.append_assoc] at h
    cases v' with
    | nil => exact absurd h (escapeChar_append_ne_quote c _ _)
    | cons d v' =>
      rw [List.flatMap_cons, List.append_assoc] at h
      obtain ⟨rfl, hrest⟩ := escapeChar_append_inj h
      obtain ⟨rfl, hr⟩ := ih hrest
      exact ⟨rfl, hr⟩

theorem quote_append_inj {v v' : String} {rest rest' : List Char}
    (h : (quote v).toList ++ rest = (quote v').toList ++ rest') : v = v' ∧ rest = rest' := by
  simp only [quote, Text.quoted, String.toList_ofList, List.cons_append, List.append_assoc,
    List.nil_append, List.cons.injEq, true_and] at h
  obtain ⟨hv, hr⟩ := escaped_append_inj h
  exact ⟨String.toList_inj.mp hv, hr⟩

/-! ## Expressions -/

/-- What the first character of an expression's text tells. -/
inductive Shape where
  /-- A number. -/
  | number
  /-- A string. -/
  | string
  /-- The name of a variable. -/
  | ident
  /-- An operation. -/
  | binary

/-- The shape of an expression. -/
def Expr.shape : Expr → Shape
  | number _ => .number
  | string _ => .string
  | ident _ => .ident
  | binary _ _ _ => .binary

/-- The shape of an expression whose text starts with a character. -/
def Shape.ofFirst (c : Char) : Shape :=
  if c = '(' then .binary else if c = '\x22' then .string else if c.isDigit then .number else .ident

theorem Expr.toList_text_binary (op : ArithOp) (left right : Expr) (rest : List Char) :
    (binary op left right).text.toList ++ rest = '(' :: (left.text.toList ++
      ' ' :: (op.symbol.toList ++ ' ' :: (right.text.toList ++ ')' :: rest))) := by
  simp [text]

theorem Expr.first_text {e : Expr} (h : e.hasForms plainForms = true) :
    ∃ c cs, e.text.toList = c :: cs ∧ Shape.ofFirst c = e.shape := by
  cases e with
  | number digits =>
    obtain ⟨c, cs, hcs, hc⟩ := head?_of_isDigits h
    refine ⟨c, cs, hcs, ?_⟩
    have hparen : c ≠ '(' := by rintro rfl; exact absurd hc (by decide)
    have hquote : c ≠ '\x22' := by rintro rfl; exact absurd hc (by decide)
    simp [Shape.ofFirst, hparen, hquote, hc, shape]
  | string value => exact ⟨'\x22', _, by rw [text, quote, Text.quoted, String.toList_ofList], rfl⟩
  | ident name =>
    obtain ⟨c, cs, hcs, hc⟩ := head?_of_isName h
    refine ⟨c, cs, hcs, ?_⟩
    have hparen : c ≠ '(' := by rintro rfl; exact absurd hc (by decide)
    have hquote : c ≠ '\x22' := by rintro rfl; exact absurd hc (by decide)
    -- A digit starts no name, so a name is not taken for a number.
    have hdigit : ¬c.isDigit = true := fun hd ↦ by
      rw [Scan.isWordStart_of_isDigit hd] at hc
      cases hc
    simp [Shape.ofFirst, hparen, hquote, hdigit, shape]
  | binary op left right =>
    rw [← List.append_nil (text _).toList, toList_text_binary]
    exact ⟨'(', _, rfl, rfl⟩

theorem Expr.shape_eq {e f : Expr} {rest rest' : List Char} (he : e.hasForms plainForms = true)
    (hf : f.hasForms plainForms = true) (h : e.text.toList ++ rest = f.text.toList ++ rest') :
    e.shape = f.shape := by
  obtain ⟨c, cs, hc, hce⟩ := e.first_text he
  obtain ⟨d, ds, hd, hdf⟩ := f.first_text hf
  rw [hc, hd] at h
  rw [← hce, ← hdf, (List.cons.inj h).1]

/-- An expression can be told from a text that starts with it and goes on with no word. -/
theorem Expr.text_append_inj {e f : Expr} {rest rest' : List Char}
    (he : e.hasForms plainForms = true) (hf : f.hasForms plainForms = true)
    (hrest : Ends isWordChar rest) (hrest' : Ends isWordChar rest')
    (h : e.text.toList ++ rest = f.text.toList ++ rest') : e = f ∧ rest = rest' := by
  have hshape := Expr.shape_eq he hf h
  induction e generalizing f rest rest' with
  | number d =>
    cases f with
    | string | ident | binary => cases hshape
    | number d' =>
      obtain ⟨hd, hr⟩ := span_append_inj (isWordChar_of_isDigits he) (isWordChar_of_isDigits hf)
        hrest hrest' h
      exact ⟨congrArg number (String.toList_inj.mp hd), hr⟩
  | string v =>
    cases f with
    | number | ident | binary => cases hshape
    | string v' =>
      obtain ⟨rfl, hr⟩ := quote_append_inj h
      exact ⟨rfl, hr⟩
  | ident x =>
    cases f with
    | number | string | binary => cases hshape
    | ident y =>
      obtain ⟨rfl, hr⟩ := name_append_inj he hf hrest hrest' h
      exact ⟨rfl, hr⟩
  | binary op left right ihl ihr =>
    cases f with
    | number | string | ident => cases hshape
    | binary op' left' right' =>
      obtain ⟨hl, hr⟩ := Bool.and_eq_true_iff.mp he
      obtain ⟨hl', hr'⟩ := Bool.and_eq_true_iff.mp hf
      rw [toList_text_binary, toList_text_binary] at h
      have htext := (List.cons.inj h).2
      obtain ⟨rfl, hop⟩ := ihl hl hl' (ends_cons (by decide) _) (ends_cons (by decide) _) htext
        (Expr.shape_eq hl hl' htext)
      obtain ⟨rfl, hright⟩ := arithOp_append_inj (List.cons.inj hop).2
      obtain ⟨rfl, hparen⟩ := ihr hr hr' (ends_cons (by decide) _) (ends_cons (by decide) _) hright
        (Expr.shape_eq hr hr' hright)
      exact ⟨rfl, (List.cons.inj hparen).2⟩

/-- An expression can be told from its text. -/
theorem Expr.eq_of_text_eq {e f : Expr} (he : e.hasForms plainForms = true)
    (hf : f.hasForms plainForms = true) (h : e.text = f.text) : e = f := by
  have hnil : Ends isWordChar [] := fun _ hc ↦ nomatch hc
  exact (Expr.text_append_inj he hf hnil hnil (by rw [h])).1

theorem Condition.toList_text (c : Condition) : c.text.toList =
    c.left.text.toList ++ ' ' :: (c.op.symbol.toList ++ ' ' :: c.right.text.toList) := by
  simp [text]

/-- A condition can be told from its text. -/
theorem Condition.eq_of_text_eq {c d : Condition} (hc : c.hasForms plainForms = true)
    (hd : d.hasForms plainForms = true) (h : c.text = d.text) : c = d := by
  obtain ⟨left, op, right⟩ := c
  obtain ⟨left', op', right'⟩ := d
  obtain ⟨hl, hr⟩ := Bool.and_eq_true_iff.mp hc
  obtain ⟨hl', hr'⟩ := Bool.and_eq_true_iff.mp hd
  have htext := congrArg String.toList h
  rw [toList_text, toList_text] at htext
  obtain ⟨rfl, hop⟩ :=
    Expr.text_append_inj hl hl' (ends_cons (by decide) _) (ends_cons (by decide) _) htext
  obtain ⟨rfl, hright⟩ := compareOp_append_inj (List.cons.inj hop).2
  exact congrArg (mk left op) (Expr.eq_of_text_eq hr hr' (String.toList_inj.mp hright))

/-! ## First lines -/

/-- The word that a first line starts with. -/
def Head.word : Head → String
  | letBinding _ _ => "let"
  | assign name _ => name
  | log _ => "console"
  | ifElse _ => "if"
  | whileLoop _ => "while"
  | forLoop _ _ _ => "for"
  | .break => "break"
  | .continue => "continue"

/-- What follows the first word of a line. -/
def Head.afterWord : Head → String
  | letBinding name value => " " ++ (name ++ (" = " ++ value.text ++ ";"))
  | assign _ value => " = " ++ value.text ++ ";"
  | log value => ".log(" ++ value.text ++ ");"
  | ifElse condition | whileLoop condition => " (" ++ condition.text ++ ") \x7b"
  | forLoop counter start stop => " (" ++ counting counter start stop ++ ") \x7b"
  | .break | .continue => ";"

theorem Head.line_eq (head : Head) : head.line = head.word.toList ++ head.afterWord.toList := by
  cases head with
  | letBinding | assign | log | ifElse | whileLoop | forLoop | «break» | «continue» =>
    simp [line, text, mark, word, afterWord]

theorem Head.isWordChar_word {head : Head} (h : head.hasForms plainForms = true) :
    ∀ c ∈ head.word.toList, isWordChar c = true := by
  cases head with
  | assign name value => exact isWordChar_of_isName (Bool.and_eq_true_iff.mp h).1
  | letBinding | log | ifElse | whileLoop | forLoop | «break» | «continue» =>
    rw [word]
    exact List.all_eq_true.mp (by decide)

theorem Head.ends_afterWord (head : Head) : Ends isWordChar head.afterWord.toList := by
  cases head with
  | letBinding | assign | log | ifElse | whileLoop | forLoop | «break» | «continue» =>
    simp only [afterWord, String.toList_append]
    exact ends_cons (by decide) _

/-- The keyword of a line, which is none for an assignment. -/
def Head.keyword? : Head → Option String
  | assign _ _ => none
  | head => some head.word

/-- A line is an assignment when an equals sign follows the first word and a space, whatever the
word is. -/
theorem Head.keyword?_eq {head : Head} (h : head.hasForms plainForms = true) :
    head.keyword? =
      if head.afterWord.toList.tail.head? = some '=' then none else some head.word := by
  cases head with
  | letBinding name value =>
    -- A variable may be called `let`, and then its assignment has the same first word.
    obtain ⟨c, cs, hname, hc⟩ := head?_of_isName (Bool.and_eq_true_iff.mp h).1
    have hne : c ≠ '=' := by rintro rfl; exact absurd hc (by decide)
    simp [keyword?, afterWord, hname, hne]
  | assign | log | ifElse | whileLoop | forLoop | «break» | «continue» =>
    simp [keyword?, afterWord]

/-- A line has one first word, one text after it, and one keyword. -/
theorem Head.parts_eq {a b : Head} (ha : a.hasForms plainForms = true)
    (hb : b.hasForms plainForms = true) (h : a.line = b.line) :
    a.word = b.word ∧ a.afterWord.toList = b.afterWord.toList ∧ a.keyword? = b.keyword? := by
  rw [line_eq, line_eq] at h
  obtain ⟨hword, hafter⟩ := span_append_inj (isWordChar_word ha) (isWordChar_word hb)
    a.ends_afterWord b.ends_afterWord h
  have hword := String.toList_inj.mp hword
  exact ⟨hword, hafter, by rw [keyword?_eq ha, keyword?_eq hb, hafter, hword]⟩

/-- What stands between two fixed texts can be told from the whole. -/
theorem between_inj {before after a b : String}
    (h : (before ++ a ++ after).toList = (before ++ b ++ after).toList) : a = b := by
  simp only [String.toList_append, List.append_assoc, List.append_cancel_left_eq,
    List.append_cancel_right_eq] at h
  exact String.toList_inj.mp h

theorem toList_counting (x : String) (start stop : Expr) :
    (counting x start stop).toList = 'l' :: 'e' :: 't' :: ' ' :: (x.toList ++ ' ' :: '=' :: ' ' ::
      (start.text.toList ++ ';' :: ' ' :: (x.toList ++ ' ' :: '<' :: ' ' ::
        (stop.text.toList ++ ';' :: ' ' :: (x.toList ++ ['+', '+']))))) := by
  simp [counting]

theorem counting_inj {x y : String} {start start' stop stop' : Expr} (hx : isName x = true)
    (hy : isName y = true) (hstart : start.hasForms plainForms = true)
    (hstart' : start'.hasForms plainForms = true) (hstop : stop.hasForms plainForms = true)
    (hstop' : stop'.hasForms plainForms = true)
    (h : counting x start stop = counting y start' stop') :
    x = y ∧ start = start' ∧ stop = stop' := by
  have htext := congrArg String.toList h
  simp only [toList_counting, List.cons.injEq, true_and] at htext
  obtain ⟨rfl, hrest⟩ :=
    name_append_inj hx hy (ends_cons (by decide) _) (ends_cons (by decide) _) htext
  simp only [List.cons.injEq, true_and] at hrest
  obtain ⟨rfl, hrest⟩ := Expr.text_append_inj hstart hstart' (ends_cons (by decide) _)
    (ends_cons (by decide) _) hrest
  simp only [List.cons.injEq, List.append_cancel_left_eq, true_and] at hrest
  obtain ⟨rfl, -⟩ := Expr.text_append_inj hstop hstop' (ends_cons (by decide) _)
    (ends_cons (by decide) _) hrest
  exact ⟨rfl, rfl, rfl⟩

theorem Head.toList_afterWord_let (x : String) (e : Expr) :
    (letBinding x e).afterWord.toList =
      ' ' :: (x.toList ++ ' ' :: '=' :: ' ' :: (e.text.toList ++ [';'])) := by
  simp [afterWord]

/-- The beginning of a statement can be told from its first line. -/
theorem Head.eq_of_line_eq {a b : Head} (ha : a.hasForms plainForms = true)
    (hb : b.hasForms plainForms = true) (h : a.line = b.line) : a = b := by
  obtain ⟨hword, hafter, hkeyword⟩ := parts_eq ha hb h
  cases a with
  | letBinding x e =>
    cases b with
    | letBinding y f =>
      obtain ⟨hx, he⟩ := Bool.and_eq_true_iff.mp ha
      obtain ⟨hy, hf⟩ := Bool.and_eq_true_iff.mp hb
      simp only [toList_afterWord_let, List.cons.injEq, true_and] at hafter
      obtain ⟨rfl, hvalue⟩ :=
        name_append_inj hx hy (ends_cons (by decide) _) (ends_cons (by decide) _) hafter
      simp only [List.cons.injEq, List.append_cancel_right_eq, true_and] at hvalue
      rw [Expr.eq_of_text_eq he hf (String.toList_inj.mp hvalue)]
    | assign | log | ifElse | whileLoop | forLoop | «break» | «continue» =>
      simp [keyword?, word] at hkeyword
  | assign x e =>
    cases b with
    | assign y f =>
      have he := (Bool.and_eq_true_iff.mp ha).2
      have hf := (Bool.and_eq_true_iff.mp hb).2
      rw [show x = y from hword, Expr.eq_of_text_eq he hf (between_inj hafter)]
    | letBinding | log | ifElse | whileLoop | forLoop | «break» | «continue» =>
      simp [keyword?] at hkeyword
  | log e =>
    cases b with
    | log f => rw [Expr.eq_of_text_eq ha hb (between_inj hafter)]
    | letBinding | assign | ifElse | whileLoop | forLoop | «break» | «continue» =>
      simp [keyword?, word] at hkeyword
  | ifElse c =>
    cases b with
    | ifElse d => rw [Condition.eq_of_text_eq ha hb (between_inj hafter)]
    | letBinding | assign | log | whileLoop | forLoop | «break» | «continue» =>
      simp [keyword?, word] at hkeyword
  | whileLoop c =>
    cases b with
    | whileLoop d => rw [Condition.eq_of_text_eq ha hb (between_inj hafter)]
    | letBinding | assign | log | ifElse | forLoop | «break» | «continue» =>
      simp [keyword?, word] at hkeyword
  | forLoop x start stop =>
    cases b with
    | forLoop y start' stop' =>
      rw [hasForms, Bool.and_eq_true, Bool.and_eq_true] at ha hb
      obtain ⟨rfl, rfl, rfl⟩ :=
        counting_inj ha.1.1 hb.1.1 ha.1.2 hb.1.2 ha.2 hb.2 (between_inj hafter)
      rfl
    | letBinding | assign | log | ifElse | whileLoop | «break» | «continue» =>
      simp [keyword?, word] at hkeyword
  | «break» =>
    cases b with
    | «break» => rfl
    | letBinding | assign | log | ifElse | whileLoop | forLoop | «continue» =>
      simp [keyword?, word] at hkeyword
  | «continue» =>
    cases b with
    | «continue» => rfl
    | letBinding | assign | log | ifElse | whileLoop | forLoop | «break» =>
      simp [keyword?, word] at hkeyword

/-! ## Blocks -/

/-- The line stands in a block. -/
def isInner (line : List Char) : Bool := line.head? = some ' '

/-- The lines of a block can be told from those that follow it. -/
theorem inner_append_inj {lines lines' rest rest' : List (List Char)} (hrest : Ends isInner rest)
    (hrest' : Ends isInner rest') (h : inner lines ++ rest = inner lines' ++ rest') :
    lines = lines' ∧ rest = rest' := by
  have hinner : ∀ lines : List (List Char), ∀ line ∈ inner lines, isInner line = true := by
    intro lines line hline
    obtain ⟨l, -, rfl⟩ := List.mem_map.mp hline
    rfl
  obtain ⟨hlines, hrest⟩ := span_append_inj (hinner lines) (hinner lines') hrest hrest' h
  exact ⟨(List.map_inj_right fun _ _ hab ↦ List.append_cancel_left hab).mp hlines, hrest⟩

theorem ends_close (rest : List (List Char)) : Ends isInner (close :: rest) :=
  ends_cons (by decide) rest

theorem block_append_inj {lines lines' rest rest' : List (List Char)}
    (h : inner lines ++ [close] ++ rest = inner lines' ++ [close] ++ rest') :
    lines = lines' ∧ rest = rest' := by
  rw [List.append_assoc, List.append_assoc] at h
  obtain ⟨hlines, hrest⟩ := inner_append_inj (ends_close rest) (ends_close rest') h
  exact ⟨hlines, (List.cons.inj hrest).2⟩

theorem Else.ends_lines (e : Else) (rest : List (List Char)) : Ends isInner (e.lines ++ rest) := by
  cases e with
  | nothing => exact ends_close rest
  | otherwise body =>
    rw [lines]
    exact ends_cons (by decide) _
  | elseIf condition body orElse =>
    rw [lines]
    exact ends_cons (by simp [isInner]) _

/-! ## Statements -/

mutual

theorem Stmt.under_append_inj : ∀ (s t : Stmt) {rest rest' : List (List Char)},
    s.hasForms plainForms = true → t.hasForms plainForms = true → s.head = t.head →
      s.under ++ rest = t.under ++ rest' → s = t ∧ rest = rest'
  | .ifElse condition body orElse, t, rest, rest', hs, ht, hhead, h => by
    cases t with
    | ifElse condition' body' orElse' =>
      cases hhead
      rw [Stmt.hasForms, Bool.and_eq_true, Bool.and_eq_true] at hs ht
      rw [Stmt.under, Stmt.under, List.append_assoc, List.append_assoc] at h
      obtain ⟨hlines, horElse⟩ := inner_append_inj (orElse.ends_lines rest)
        (orElse'.ends_lines rest') h
      rw [Stmt.eq_of_linesAll_eq body body' hs.1.2 ht.1.2 hlines]
      obtain ⟨rfl, hrest⟩ := Else.lines_append_inj orElse orElse' hs.2 ht.2 horElse
      exact ⟨rfl, hrest⟩
    | letBinding | assign | log | whileLoop | forLoop | «break» | «continue» => cases hhead
  | .whileLoop condition body, t, rest, rest', hs, ht, hhead, h => by
    cases t with
    | whileLoop condition' body' =>
      cases hhead
      rw [Stmt.hasForms, Bool.and_eq_true] at hs ht
      rw [Stmt.under, Stmt.under] at h
      obtain ⟨hlines, hrest⟩ := block_append_inj h
      rw [Stmt.eq_of_linesAll_eq body body' hs.2 ht.2 hlines]
      exact ⟨rfl, hrest⟩
    | letBinding | assign | log | ifElse | forLoop | «break» | «continue» => cases hhead
  | .forLoop counter start stop body, t, rest, rest', hs, ht, hhead, h => by
    cases t with
    | forLoop counter' start' stop' body' =>
      cases hhead
      rw [Stmt.hasForms, Bool.and_eq_true] at hs ht
      rw [Stmt.under, Stmt.under] at h
      obtain ⟨hlines, hrest⟩ := block_append_inj h
      rw [Stmt.eq_of_linesAll_eq body body' hs.2 ht.2 hlines]
      exact ⟨rfl, hrest⟩
    | letBinding | assign | log | ifElse | whileLoop | «break» | «continue» => cases hhead
  | .letBinding _ _, t, _, _, _, _, hhead, h | .assign _ _, t, _, _, _, _, hhead, h
  | .log _, t, _, _, _, _, hhead, h | .break, t, _, _, _, _, hhead, h
  | .continue, t, _, _, _, _, hhead, h => by
    -- There is nothing under the first line, which is the whole statement.
    cases t <;> cases hhead
    exact ⟨rfl, by simpa only [Stmt.under, List.nil_append] using h⟩

theorem Stmt.eq_of_linesAll_eq : ∀ body body' : List Stmt,
    Stmt.haveForms plainForms body = true → Stmt.haveForms plainForms body' = true →
      Stmt.linesAll body = Stmt.linesAll body' → body = body'
  | [], [], _, _, _ => rfl
  | [], t :: more', _, _, h => by
    rw [Stmt.linesAll, Stmt.linesAll] at h
    cases h
  | s :: more, [], _, _, h => by
    rw [Stmt.linesAll, Stmt.linesAll] at h
    cases h
  | s :: more, t :: more', hs, ht, h => by
    rw [Stmt.haveForms, Bool.and_eq_true] at hs ht
    rw [Stmt.linesAll, Stmt.linesAll] at h
    obtain ⟨hline, hrest⟩ := List.cons.inj h
    have hhead := Head.eq_of_line_eq (Stmt.hasForms_head hs.1) (Stmt.hasForms_head ht.1) hline
    obtain ⟨rfl, hmore⟩ := Stmt.under_append_inj s t hs.1 ht.1 hhead hrest
    rw [Stmt.eq_of_linesAll_eq more more' hs.2 ht.2 hmore]

theorem Else.lines_append_inj : ∀ (e f : Else) {rest rest' : List (List Char)},
    e.hasForms plainForms = true → f.hasForms plainForms = true →
      e.lines ++ rest = f.lines ++ rest' → e = f ∧ rest = rest'
  | .nothing, .nothing, _, _, _, _, h => by
    rw [Else.lines] at h
    exact ⟨rfl, (List.cons.inj h).2⟩
  | .otherwise body, .otherwise body', _, _, he, hf, h => by
    rw [Else.hasForms] at he hf
    rw [Else.lines, Else.lines] at h
    obtain ⟨hlines, hrest⟩ := block_append_inj (List.cons.inj h).2
    rw [Stmt.eq_of_linesAll_eq body body' he hf hlines]
    exact ⟨rfl, hrest⟩
  | .elseIf condition body orElse, .elseIf condition' body' orElse', rest, rest', he, hf, h => by
    rw [Else.hasForms, Bool.and_eq_true, Bool.and_eq_true] at he hf
    rw [Else.lines, Else.lines, List.cons_append, List.cons_append, List.append_assoc,
      List.append_assoc] at h
    obtain ⟨hfirst, hunder⟩ := List.cons.inj h
    have hcondition := between_inj (List.append_cancel_right hfirst)
    obtain rfl := Condition.eq_of_text_eq he.1.1 hf.1.1 hcondition
    obtain ⟨hlines, horElse⟩ := inner_append_inj (orElse.ends_lines rest)
      (orElse'.ends_lines rest') hunder
    rw [Stmt.eq_of_linesAll_eq body body' he.1.2 hf.1.2 hlines]
    obtain ⟨rfl, hrest⟩ := Else.lines_append_inj orElse orElse' he.2 hf.2 horElse
    exact ⟨rfl, hrest⟩
  | .nothing, .otherwise _, _, _, _, _, h | .otherwise _, .nothing, _, _, _, _, h
  | .nothing, .elseIf _ _ _, _, _, _, _, h | .elseIf _ _ _, .nothing, _, _, _, _, h
  | .otherwise _, .elseIf _ _ _, _, _, _, _, h | .elseIf _ _ _, .otherwise _, _, _, _, _, h => by
    simp [Else.lines, close] at h

end

/-! ## Scripts -/

theorem oneLine_plainForms : OneLine plainForms where
  name hx hmem := absurd (isWordChar_of_isName hx _ hmem) (by decide)
  digits hd hmem := absurd (isWordChar_of_isDigits hd _ hmem) (by decide)

/-- A script can be told from its text. -/
theorem eq_of_text_eq {a b : Script} (ha : a.hasForms plainForms = true)
    (hb : b.hasForms plainForms = true) (h : a.text = b.text) : a = b := by
  -- Both texts are taken apart, since putting lines together is not one to one on all lines.
  have hlines : Stmt.linesAll a.body = Stmt.linesAll b.body := by
    have htext := congrArg (fun text ↦ Text.splitLines text.toList) h
    rwa [text_eq_intercalate oneLine_plainForms ha, text_eq_intercalate oneLine_plainForms hb,
      Text.splitLines_intercalate (Stmt.isLine_linesAll oneLine_plainForms a.body ha),
      Text.splitLines_intercalate (Stmt.isLine_linesAll oneLine_plainForms b.body hb)] at htext
  exact congrArg mk (Stmt.eq_of_linesAll_eq a.body b.body ha hb hlines)

end Script

end JPlusPlus
