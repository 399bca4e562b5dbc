import JPlusPlus.Proofs.Script.Forms
import JPlusPlus.Script.Text

/-!
# The lines of scripts

A script is written in lines, and a block is set in by taking the text of its statements apart into
lines again. Whatever the strings of a script hold, this gives back the lines that were written:
escapes keep line breaks out of them, and every line ends in a semicolon or a brace, never in the
carriage return that would be taken for a part of a line break.

So the text of a script can be built line by line, with no text that is taken apart, once its names
and digits hold no line feed.

## Main statements

* `Text.splitLines_intercalate`: lines that are put together are taken apart again.
* `Script.text_eq_intercalate`: a script is its lines, with a line feed between any two.
-/

namespace JPlusPlus

namespace Text

/-! ## Taking lines apart -/

/-- A line that stays as it is when lines are taken apart. -/
structure IsLine (line : List Char) : Prop where
  /-- There is no line feed in the line. -/
  noFeed : '\n' ∉ line
  /-- The line has an end, which is no part of a line break. -/
  last : ∃ c, line.getLast? = some c ∧ c ≠ '\r'

theorem IsLine.tail {c d : Char} {line : List Char} (h : IsLine (c :: d :: line)) :
    IsLine (d :: line) where
  noFeed hmem := h.noFeed (List.mem_cons_of_mem c hmem)
  last := by
    obtain ⟨e, he, hne⟩ := h.last
    exact ⟨e, by rwa [List.getLast?_cons_cons] at he, hne⟩

/-- A character that neither is a line break nor starts one belongs to the first line. -/
theorem splitLines_cons {c : Char} {cs line : List Char} {more : List (List Char)}
    (hc : c ≠ '\n') (hbreak : c = '\r' → cs.head? ≠ some '\n')
    (hcs : splitLines cs = line :: more) : splitLines (c :: cs) = (c :: line) :: more := by
  rw [splitLines, hcs]
  · exact hc
  · rintro rest rfl rfl
    exact hbreak rfl rfl

theorem splitLines_append {line : List Char} (h : IsLine line) (rest : List Char) :
    splitLines (line ++ '\n' :: rest) = line :: splitLines rest := by
  induction line with
  | nil =>
    obtain ⟨c, hc, -⟩ := h.last
    cases hc
  | cons c line ih =>
    have hc : c ≠ '\n' := fun he ↦ h.noFeed (he ▸ List.mem_cons_self)
    cases line with
    | nil =>
      -- The only place where a carriage return would go with the line feed that ends the line.
      obtain ⟨d, hd, hne⟩ := h.last
      cases hd
      have hrest : splitLines ('\n' :: rest) = [] :: splitLines rest := by rw [splitLines]
      exact splitLines_cons hc (fun he ↦ absurd he hne) hrest
    | cons d line =>
      have hd : d ≠ '\n' := fun he ↦ h.tail.noFeed (he ▸ List.mem_cons_self)
      refine splitLines_cons hc (fun _ ↦ ?_) (ih h.tail)
      simpa using hd

theorem splitLines_line {line : List Char} (h : IsLine line) : splitLines line = [line] := by
  induction line with
  | nil =>
    obtain ⟨c, hc, -⟩ := h.last
    cases hc
  | cons c line ih =>
    have hc : c ≠ '\n' := fun he ↦ h.noFeed (he ▸ List.mem_cons_self)
    cases line with
    | nil =>
      rw [splitLines, splitLines]
      · exact hc
      · rintro rest - hrest
        cases hrest
    | cons d line =>
      have hd : d ≠ '\n' := fun he ↦ h.tail.noFeed (he ▸ List.mem_cons_self)
      refine splitLines_cons hc (fun _ ↦ ?_) (ih h.tail)
      simpa using hd

/-- Lines that are put together with line feeds are taken apart again. -/
theorem splitLines_intercalate {lines : List (List Char)} (h : ∀ line ∈ lines, IsLine line) :
    splitLines (['\n'].intercalate lines) = lines := by
  induction lines with
  | nil => rw [List.intercalate_nil, splitLines]
  | cons line lines ih =>
    obtain ⟨hline, hlines⟩ := List.forall_mem_cons.mp h
    cases lines with
    | nil => rw [List.intercalate_singleton, splitLines_line hline]
    | cons next lines =>
      rw [List.intercalate_cons_cons, List.append_assoc, List.singleton_append,
        splitLines_append hline, ih hlines]

theorem indentLines_intercalate {lines : List (List Char)} (h : ∀ line ∈ lines, IsLine line)
    (margin : List Char) :
    indentLines margin (['\n'].intercalate lines) =
      lines.flatMap fun line ↦ margin ++ line ++ ['\n'] := by
  rw [indentLines, splitLines_intercalate h]

theorem intercalate_append (lines : List (List Char)) {more : List (List Char)} (h : more ≠ []) :
    ['\n'].intercalate (lines ++ more) =
      (lines.flatMap fun line ↦ line ++ ['\n']) ++ ['\n'].intercalate more := by
  obtain ⟨next, more, rfl⟩ := List.exists_cons_of_ne_nil h
  induction lines with
  | nil => rfl
  | cons line lines ih =>
    rw [List.flatMap_cons, List.append_assoc, ← ih]
    cases lines <;> exact List.intercalate_cons_cons

/-- Between two groups of lines there is one more line feed. -/
theorem intercalate_append_append {lines more : List (List Char)} (hlines : lines ≠ [])
    (hmore : more ≠ []) :
    ['\n'].intercalate (lines ++ more) =
      ['\n'].intercalate lines ++ '\n' :: ['\n'].intercalate more := by
  obtain ⟨next, more, rfl⟩ := List.exists_cons_of_ne_nil hmore
  induction lines with
  | nil => exact absurd rfl hlines
  | cons line lines ih =>
    cases lines with
    | nil => simp
    | cons second lines => simp [List.intercalate_cons_cons, ← ih (List.cons_ne_nil _ _)]

theorem IsLine.concat {line : List Char} {c : Char} (h : '\n' ∉ line) (hfeed : c ≠ '\n')
    (hreturn : c ≠ '\r') : IsLine (line ++ [c]) where
  noFeed := by simpa [h] using hfeed.symm
  last := ⟨c, List.getLast?_concat, hreturn⟩

theorem IsLine.append_left {line : List Char} (h : IsLine line) {margin : List Char}
    (hmargin : '\n' ∉ margin) : IsLine (margin ++ line) where
  noFeed := by simp [hmargin, h.noFeed]
  last := by
    obtain ⟨c, hc, hne⟩ := h.last
    exact ⟨c, by rw [List.getLast?_append, hc]; rfl, hne⟩

end Text

namespace Script

open Text (IsLine)

/-! ## Lines of statements -/

/-- How a statement begins: all of it but the bodies. -/
inductive Head where
  /-- A `let`. -/
  | letBinding (name : String) (value : Expr)
  /-- An assignment. -/
  | assign (name : String) (value : Expr)
  /-- A call that prints. -/
  | log (value : Expr)
  /-- A conditional. -/
  | ifElse (condition : Condition)
  /-- A loop under a condition. -/
  | whileLoop (condition : Condition)
  /-- A counting loop. -/
  | forLoop (counter : String) (start stop : Expr)
  /-- `break;` -/
  | break
  /-- `continue;` -/
  | continue

/-- The beginning of a statement. -/
def Stmt.head : Stmt → Head
  | letBinding name value => .letBinding name value
  | assign name value => .assign name value
  | log value => .log value
  | ifElse condition _ _ => .ifElse condition
  | whileLoop condition _ => .whileLoop condition
  | forLoop counter start stop _ => .forLoop counter start stop
  | .break => .break
  | .continue => .continue

/-- The text of the beginning, up to the mark that ends its line. -/
def Head.text : Head → String
  | letBinding name value => "let " ++ name ++ " = " ++ value.text
  | assign name value => name ++ " = " ++ value.text
  | log value => "console.log(" ++ value.text ++ ")"
  | ifElse condition => "if (" ++ condition.text ++ ") "
  | whileLoop condition => "while (" ++ condition.text ++ ") "
  | forLoop counter start stop => "for (" ++ counting counter start stop ++ ") "
  | .break => "break"
  | .continue => "continue"

/-- The mark that ends the first line: a brace where a block follows. -/
def Head.mark : Head → Char
  | letBinding _ _ | assign _ _ | log _ | .break | .continue => ';'
  | ifElse _ | whileLoop _ | forLoop _ _ _ => '\x7b'

/-- The first line of a statement. -/
def Head.line (head : Head) : List Char := head.text.toList ++ [head.mark]

/-- Lines that are set in. -/
def inner (lines : List (List Char)) : List (List Char) := lines.map ("  ".toList ++ ·)

/-- The line that closes a block. -/
def close : List Char := ['\x7d']

mutual

/-- The lines of a statement after the first one. -/
def Stmt.under : Stmt → List (List Char)
  | .ifElse _ body orElse => inner (Stmt.linesAll body) ++ orElse.lines
  | .whileLoop _ body | .forLoop _ _ _ body => inner (Stmt.linesAll body) ++ [close]
  | .letBinding _ _ | .assign _ _ | .log _ | .break | .continue => []

/-- The lines of statements, one after another. -/
def Stmt.linesAll : List Stmt → List (List Char)
  | [] => []
  | stmt :: more => stmt.head.line :: (stmt.under ++ Stmt.linesAll more)

/-- The lines from the one that closes the block of a conditional on. -/
def Else.lines : Else → List (List Char)
  | .nothing => [close]
  | .otherwise body =>
    ("\x7d else ".toList ++ ['\x7b']) :: (inner (Stmt.linesAll body) ++ [close])
  | .elseIf condition body orElse =>
    (("\x7d else if (" ++ condition.text ++ ") ").toList ++ ['\x7b']) ::
      (inner (Stmt.linesAll body) ++ orElse.lines)

end

/-- The lines of a statement. -/
def Stmt.lines (stmt : Stmt) : List (List Char) := stmt.head.line :: stmt.under

/-! ## No line breaks in a line -/

/-- Names and numbers of these forms hold no line feed. -/
structure OneLine (forms : Forms) : Prop where
  /-- A name holds none. -/
  name : ∀ {x}, forms.name x = true → '\n' ∉ x.toList
  /-- A number holds none. -/
  digits : ∀ {d}, forms.digits d = true → '\n' ∉ d.toList

theorem lineFeed_not_mem_escapeChar (c : Char) : '\n' ∉ escapeChar c := by
  rw [escapeChar]
  split
  · decide
  split
  · decide
  split
  · decide
  split
  · decide
  split
  · decide
  · next hne _ _ => simpa [eq_comm] using hne

/-- A string is written without a line feed, whatever it holds. -/
theorem lineFeed_not_mem_quote (value : String) : '\n' ∉ (quote value).toList := by
  rw [quote, Text.quoted, String.toList_ofList]
  simp [lineFeed_not_mem_escapeChar]

theorem lineFeed_not_mem_symbol (op : ArithOp) : '\n' ∉ op.symbol.toList := by
  cases op <;> decide

theorem lineFeed_not_mem_compare (op : CompareOp) : '\n' ∉ op.symbol.toList := by
  cases op <;> decide

variable {forms : Forms}

theorem Expr.lineFeed_not_mem_text (hforms : OneLine forms) {e : Expr}
    (h : e.hasForms forms = true) : '\n' ∉ e.text.toList := by
  induction e with
  | number digits => exact hforms.digits h
  | string value => exact lineFeed_not_mem_quote value
  | ident name => exact hforms.name h
  | binary op left right ihl ihr =>
    obtain ⟨hl, hr⟩ := Bool.and_eq_true_iff.mp h
    simp [text, ihl hl, ihr hr, lineFeed_not_mem_symbol]

theorem Condition.lineFeed_not_mem_text (hforms : OneLine forms) {c : Condition}
    (h : c.hasForms forms = true) : '\n' ∉ c.text.toList := by
  obtain ⟨hl, hr⟩ := Bool.and_eq_true_iff.mp h
  simp [text, Expr.lineFeed_not_mem_text hforms hl, Expr.lineFeed_not_mem_text hforms hr,
    lineFeed_not_mem_compare]

/-- The names and numbers in the beginning of a statement have the forms. -/
def Head.hasForms (forms : Forms) : Head → Bool
  | letBinding name value | assign name value => forms.name name && value.hasForms forms
  | log value => value.hasForms forms
  | ifElse condition | whileLoop condition => condition.hasForms forms
  | forLoop counter start stop =>
    forms.name counter && start.hasForms forms && stop.hasForms forms
  | .break | .continue => true

theorem Stmt.hasForms_head {s : Stmt} (h : s.hasForms forms = true) :
    s.head.hasForms forms = true := by
  cases s with
  | letBinding | assign | log =>
    simpa only [Stmt.hasForms, head, Head.hasForms] using h
  | «break» | «continue» => rfl
  | ifElse condition body orElse =>
    rw [Stmt.hasForms, Bool.and_eq_true, Bool.and_eq_true] at h
    exact h.1.1
  | whileLoop condition body | forLoop counter start stop body =>
    rw [Stmt.hasForms, Bool.and_eq_true] at h
    exact h.1

theorem Head.lineFeed_not_mem_text (hforms : OneLine forms) {head : Head}
    (h : head.hasForms forms = true) : '\n' ∉ head.text.toList := by
  cases head with
  | letBinding name value | assign name value =>
    rw [hasForms, Bool.and_eq_true] at h
    simp [text, hforms.name h.1, Expr.lineFeed_not_mem_text hforms h.2]
  | log value =>
    rw [hasForms] at h
    simp [text, Expr.lineFeed_not_mem_text hforms h]
  | ifElse condition | whileLoop condition =>
    rw [hasForms] at h
    simp [text, Condition.lineFeed_not_mem_text hforms h]
  | forLoop counter start stop =>
    rw [hasForms, Bool.and_eq_true, Bool.and_eq_true] at h
    simp [text, counting, hforms.name h.1.1, Expr.lineFeed_not_mem_text hforms h.1.2,
      Expr.lineFeed_not_mem_text hforms h.2]
  | «break» | «continue» => decide

theorem Head.mark_ne (head : Head) : head.mark ≠ '\n' ∧ head.mark ≠ '\r' := by
  cases head with
  | letBinding | assign | log | ifElse | whileLoop | forLoop | «break» | «continue» =>
    exact ⟨by simp [mark], by simp [mark]⟩

theorem Stmt.isLine_head (hforms : OneLine forms) {s : Stmt} (h : s.hasForms forms = true) :
    IsLine s.head.line :=
  .concat (Head.lineFeed_not_mem_text hforms (Stmt.hasForms_head h)) s.head.mark_ne.1
    s.head.mark_ne.2

theorem isLine_close : ∀ line ∈ [close], IsLine line := by
  intro line hline
  rw [List.mem_singleton.mp hline]
  exact ⟨by decide, '\x7d', rfl, by decide⟩

theorem isLine_inner_append {lines more : List (List Char)} (hlines : ∀ line ∈ lines, IsLine line)
    (hmore : ∀ line ∈ more, IsLine line) : ∀ line ∈ inner lines ++ more, IsLine line := by
  intro line hline
  rcases List.mem_append.mp hline with hline | hline
  · obtain ⟨l, hl, rfl⟩ := List.mem_map.mp hline
    exact (hlines l hl).append_left (by decide)
  · exact hmore line hline

mutual

theorem Stmt.isLine_under (hforms : OneLine forms) : ∀ s : Stmt, s.hasForms forms = true →
    ∀ line ∈ s.under, IsLine line
  | .ifElse condition body orElse, h => by
    rw [Stmt.hasForms, Bool.and_eq_true, Bool.and_eq_true] at h
    rw [Stmt.under]
    exact isLine_inner_append (Stmt.isLine_linesAll hforms body h.1.2)
      (Else.isLine_lines hforms orElse h.2)
  | .whileLoop condition body, h => by
    rw [Stmt.hasForms, Bool.and_eq_true] at h
    rw [Stmt.under]
    exact isLine_inner_append (Stmt.isLine_linesAll hforms body h.2) isLine_close
  | .forLoop counter start stop body, h => by
    rw [Stmt.hasForms, Bool.and_eq_true] at h
    rw [Stmt.under]
    exact isLine_inner_append (Stmt.isLine_linesAll hforms body h.2) isLine_close
  | .letBinding _ _, _ | .assign _ _, _ | .log _, _ | .break, _ | .continue, _ => by
    simp [Stmt.under]

theorem Stmt.isLine_linesAll (hforms : OneLine forms) : ∀ body : List Stmt,
    Stmt.haveForms forms body = true → ∀ line ∈ Stmt.linesAll body, IsLine line
  | [], _ => by simp [Stmt.linesAll]
  | s :: more, h => by
    rw [Stmt.haveForms, Bool.and_eq_true] at h
    rw [Stmt.linesAll]
    intro line hline
    rcases List.mem_cons.mp hline with rfl | hline
    · exact Stmt.isLine_head hforms h.1
    rcases List.mem_append.mp hline with hline | hline
    · exact Stmt.isLine_under hforms s h.1 line hline
    · exact Stmt.isLine_linesAll hforms more h.2 line hline

theorem Else.isLine_lines (hforms : OneLine forms) : ∀ e : Else, e.hasForms forms = true →
    ∀ line ∈ e.lines, IsLine line
  | .nothing, _ => by
    rw [Else.lines]
    exact isLine_close
  | .otherwise body, h => by
    rw [Else.hasForms] at h
    rw [Else.lines]
    refine List.forall_mem_cons.mpr ⟨.concat (by decide) (by decide) (by decide), ?_⟩
    exact isLine_inner_append (Stmt.isLine_linesAll hforms body h) isLine_close
  | .elseIf condition body orElse, h => by
    rw [Else.hasForms, Bool.and_eq_true, Bool.and_eq_true] at h
    rw [Else.lines]
    refine List.forall_mem_cons.mpr ⟨.concat ?_ (by decide) (by decide), ?_⟩
    · simp [Condition.lineFeed_not_mem_text hforms h.1.1]
    · exact isLine_inner_append (Stmt.isLine_linesAll hforms body h.1.2)
        (Else.isLine_lines hforms orElse h.2)

end

/-! ## Text and lines -/

theorem Stmt.lines_ne_nil (s : Stmt) : s.lines ≠ [] := List.cons_ne_nil _ _

theorem Else.lines_ne_nil (e : Else) : e.lines ≠ [] := by
  cases e with
  | nothing | otherwise | elseIf =>
    rw [lines]
    exact List.cons_ne_nil _ _

/-- The text of a block is put together from the line before it, the lines in it and those that
follow from the closing brace on. -/
theorem intercalate_block {first : List Char} {statements : String}
    {lines more : List (List Char)} {rest : List Char} (hlines : ∀ line ∈ lines, IsLine line)
    (hstatements : ['\n'].intercalate lines = statements.toList) (hne : more ≠ [])
    (hmore : ['\n'].intercalate more = '\x7d' :: rest) :
    ['\n'].intercalate ((first ++ ['\x7b']) :: (inner lines ++ more)) =
      first ++ (block statements).toList ++ rest := by
  -- Setting in takes the text of the statements apart, and what comes out are the lines again.
  have hindent : (Text.indent "  " statements).toList =
      (inner lines).flatMap fun line ↦ line ++ ['\n'] := by
    rw [Text.indent, String.toList_ofList, ← hstatements, Text.indentLines_intercalate hlines,
      inner, List.flatMap_map]
  rw [← List.cons_append, Text.intercalate_append _ hne, hmore, block, String.toList_append,
    String.toList_append, hindent]
  simp

theorem intercalate_close : ['\n'].intercalate [close] = '\x7d' :: [] :=
  List.intercalate_singleton

mutual

theorem Stmt.intercalate_lines (hforms : OneLine forms) : ∀ s : Stmt, s.hasForms forms = true →
    ['\n'].intercalate s.lines = s.text.toList
  | .ifElse condition body orElse, h => by
    rw [Stmt.hasForms, Bool.and_eq_true, Bool.and_eq_true] at h
    rw [Stmt.lines, Stmt.head, Stmt.under, Head.line, Head.mark, intercalate_block
      (Stmt.isLine_linesAll hforms body h.1.2) (Stmt.intercalate_linesAll hforms body h.1.2)
      orElse.lines_ne_nil (Else.intercalate_lines hforms orElse h.2)]
    simp [Stmt.text, Head.text]
  | .whileLoop condition body, h => by
    rw [Stmt.hasForms, Bool.and_eq_true] at h
    rw [Stmt.lines, Stmt.head, Stmt.under, Head.line, Head.mark, intercalate_block
      (Stmt.isLine_linesAll hforms body h.2) (Stmt.intercalate_linesAll hforms body h.2)
      (List.cons_ne_nil _ _) intercalate_close]
    simp [Stmt.text, Head.text]
  | .forLoop counter start stop body, h => by
    rw [Stmt.hasForms, Bool.and_eq_true] at h
    rw [Stmt.lines, Stmt.head, Stmt.under, Head.line, Head.mark, intercalate_block
      (Stmt.isLine_linesAll hforms body h.2) (Stmt.intercalate_linesAll hforms body h.2)
      (List.cons_ne_nil _ _) intercalate_close]
    simp [Stmt.text, Head.text]
  | .letBinding _ _, _ | .assign _ _, _ | .log _, _ | .break, _ | .continue, _ => by
    simp [Stmt.lines, Stmt.head, Stmt.under, Stmt.text, Head.line, Head.text, Head.mark]

theorem Stmt.intercalate_linesAll (hforms : OneLine forms) : ∀ body : List Stmt,
    Stmt.haveForms forms body = true →
      ['\n'].intercalate (Stmt.linesAll body) = (Stmt.texts body).toList
  | [], _ => by simp [Stmt.linesAll, Stmt.texts]
  | [s], h => by
    rw [Stmt.haveForms, Bool.and_eq_true] at h
    rw [Stmt.linesAll, Stmt.linesAll, List.append_nil, Stmt.texts]
    exact Stmt.intercalate_lines hforms s h.1
  | s :: next :: more, h => by
    rw [Stmt.haveForms, Bool.and_eq_true] at h
    have hs := Stmt.intercalate_lines hforms s h.1
    have hmore := Stmt.intercalate_linesAll hforms (next :: more) h.2
    have hne : Stmt.linesAll (next :: more) ≠ [] := by
      rw [Stmt.linesAll]
      exact List.cons_ne_nil _ _
    rw [Stmt.linesAll, ← List.cons_append, ← Stmt.lines,
      Text.intercalate_append_append s.lines_ne_nil hne, hs, hmore, Stmt.texts]
    simp

theorem Else.intercalate_lines (hforms : OneLine forms) : ∀ e : Else, e.hasForms forms = true →
    ['\n'].intercalate e.lines = '\x7d' :: e.text.toList
  | .nothing, _ => by simp [Else.lines, Else.text, close]
  | .otherwise body, h => by
    rw [Else.hasForms] at h
    rw [Else.lines, intercalate_block (Stmt.isLine_linesAll hforms body h)
      (Stmt.intercalate_linesAll hforms body h) (List.cons_ne_nil _ _) intercalate_close]
    simp [Else.text]
  | .elseIf condition body orElse, h => by
    rw [Else.hasForms, Bool.and_eq_true, Bool.and_eq_true] at h
    rw [Else.lines, intercalate_block (Stmt.isLine_linesAll hforms body h.1.2)
      (Stmt.intercalate_linesAll hforms body h.1.2) orElse.lines_ne_nil
      (Else.intercalate_lines hforms orElse h.2)]
    simp [Else.text]

end

/-- A script is its lines, with a line feed between any two. -/
theorem text_eq_intercalate (hforms : OneLine forms) {script : Script}
    (h : script.hasForms forms = true) :
    script.text.toList = ['\n'].intercalate (Stmt.linesAll script.body) :=
  (Stmt.intercalate_linesAll hforms script.body h).symm

/-! ## Reading line by line -/

/-- What `reads` finds in lines, one after another. -/
inductive EachLine {α : Type} (reads : List Char → List α → Prop) :
    List (List Char) → List α → Prop where
  | nil : EachLine reads [] []
  | cons {line : List Char} {lines : List (List Char)} {values more : List α} :
      reads line values → EachLine reads lines more →
        EachLine reads (line :: lines) (values ++ more)

namespace EachLine

variable {α : Type} {reads : List Char → List α → Prop} {lines lines' : List (List Char)}
  {values values' : List α}

theorem single {line : List Char} (h : reads line values) : EachLine reads [line] values := by
  rw [← List.append_nil values]
  exact .cons h .nil

theorem append (h : EachLine reads lines values) (h' : EachLine reads lines' values') :
    EachLine reads (lines ++ lines') (values ++ values') := by
  induction h with
  | nil => exact h'
  | cons hline _ ih =>
    rw [List.append_assoc]
    exact .cons hline ih

/-- Setting lines in changes nothing for those who find nothing in a margin. -/
theorem inner (h : EachLine reads lines values)
    (hmargin : ∀ line values, reads line values → reads ("  ".toList ++ line) values) :
    EachLine reads (inner lines) values := by
  induction h with
  | nil => exact .nil
  | cons hline _ ih => exact .cons (hmargin _ _ hline) ih

end EachLine

/-! ## How a script ends -/

theorem getLast?_toList_append {a b : String} {c : Char} (h : b.toList.getLast? = some c) :
    (a ++ b).toList.getLast? = some c := by
  rw [String.toList_append, List.getLast?_append, h]
  rfl

theorem getLast?_block (before statements : String) :
    (before ++ block statements).toList.getLast? = some '\x7d' :=
  getLast?_toList_append (getLast?_toList_append rfl)

/-- What follows a block leaves a brace at the end. -/
theorem Else.getLast?_append_text : ∀ (e : Else) {before : String},
    before.toList.getLast? = some '\x7d' → (before ++ e.text).toList.getLast? = some '\x7d'
  | .nothing, before, h => by rwa [Else.text, String.append_empty]
  | .otherwise body, before, _ => by
    rw [Else.text]
    exact getLast?_toList_append (getLast?_block _ _)
  | .elseIf condition body orElse, before, _ => by
    rw [Else.text, ← String.append_assoc]
    exact Else.getLast?_append_text orElse (getLast?_toList_append (getLast?_block _ _))

/-- A statement ends in a semicolon or in a brace. -/
theorem Stmt.getLast?_text (s : Stmt) :
    s.text.toList.getLast? = some ';' ∨ s.text.toList.getLast? = some '\x7d' := by
  rcases s with ⟨x, value⟩ | ⟨x, value⟩ | value | ⟨condition, body, orElse⟩ | ⟨condition, body⟩ |
    ⟨counter, start, stop, body⟩ | _ | _ <;> rw [Stmt.text]
  · exact .inl (getLast?_toList_append rfl)
  · exact .inl (getLast?_toList_append rfl)
  · exact .inl (getLast?_toList_append rfl)
  · exact .inr (Else.getLast?_append_text orElse (getLast?_block _ _))
  · exact .inr (getLast?_block _ _)
  · exact .inr (getLast?_block _ _)
  · exact .inl rfl
  · exact .inl rfl

theorem Stmt.getLast?_texts {body : List Stmt} (h : body ≠ []) :
    (Stmt.texts body).toList.getLast? = some ';' ∨
      (Stmt.texts body).toList.getLast? = some '\x7d' := by
  induction body with
  | nil => exact absurd rfl h
  | cons stmt more ih =>
    rcases more with _ | ⟨next, more⟩
    · rw [Stmt.texts]
      exact stmt.getLast?_text
    · rw [Stmt.texts]
      exact (ih (List.cons_ne_nil _ _)).imp getLast?_toList_append getLast?_toList_append

/-- No script has a line feed at its end. -/
theorem getLast?_text_ne (script : Script) : script.text.toList.getLast? ≠ some '\n' := by
  obtain ⟨body⟩ := script
  rcases body with _ | ⟨stmt, more⟩
  · exact nofun
  · have hend := Stmt.getLast?_texts (List.cons_ne_nil stmt more)
    rw [text]
    intro hfeed
    rw [hfeed] at hend
    simp at hend

end Script

end JPlusPlus
