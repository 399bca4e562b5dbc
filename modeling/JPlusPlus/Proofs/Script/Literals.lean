import JPlusPlus.Compile.Basic
import JPlusPlus.Proofs.Script.Unique
import JPlusPlus.Proofs.Text.Machine

/-!
# The strings in the text of a script

Someone who reads a script only for its strings goes through the text from left to right and keeps
one thing in mind: whether a string is open. A quotation mark opens one and the next bare one closes
it, where a backslash takes the character after it along. Outside of strings nothing may open a
comment or another kind of string, and a string may not run over the end of its line.

Whatever the strings of a program hold, such a reader of its script finds these strings, in the
order in which they stand in the program, and nothing else. The text is put together from lines
which are set in block by block, so this is shown line by line: a reader who comes to a line with no
string open leaves it with no string open.

## Main statements

* `Script.finds_quote`: what is written for a string is read as that string.
* `Stmt.findsLines_linesAll`: the lines of statements are read as the strings in them.
-/

namespace JPlusPlus

namespace Script

/-! ## Reading for strings -/

/-- Where a reader of a script is. -/
inductive Side where
  /-- Outside of strings. -/
  | code
  /-- Outside of strings, right after a slash. -/
  | slash
  /-- In a string, after the given part of its text. -/
  | literal (raw : List Char)
  /-- In a string, right after a backslash. -/
  | escape (raw : List Char)

/-- A character outside of strings. -/
def Side.outside (c : Char) : Option (Side × Option (List Char)) :=
  if c = '\x22' then some (.literal [], none)
  else if c = '\'' ∨ c = '\x60' then none
  else if c = '/' then some (.slash, none)
  else some (.code, none)

/-- Where a reader is after a character, with the text of the string that the character closes. -/
def Side.next : Side → Char → Option (Side × Option (List Char))
  | code, c => outside c
  | slash, c => if c = '/' ∨ c = '*' then none else outside c
  | literal raw, c =>
    if c = '\x22' then some (.code, some raw)
    else if c = '\n' ∨ c = '\r' then none
    else if c = '\\' then some (.escape raw, none)
    else some (.literal (raw ++ [c]), none)
  | escape raw, c => some (.literal (raw ++ ['\\', c]), none)

/-- The reader that keeps the texts of the strings it has found. -/
def literals : Text.Machine Side (List Char) (List (List Char)) where
  mode := Side.next
  place found raw := some (found ++ [raw])

/-- The character that is meant by the one after a backslash, for the escapes that are used. -/
def escape? : Char → Option Char
  | 'n' => some '\n'
  | 't' => some '\t'
  | 'r' => some '\r'
  | '\\' => some '\\'
  | '\x22' => some '\x22'
  | _ => none

/-- The characters that are meant by the text of a string. -/
def decode? : List Char → Option (List Char)
  | [] => some []
  | '\\' :: c :: cs => do return (← escape? c) :: (← decode? cs)
  | c :: cs => if c = '\\' then none else (decode? cs).map (c :: ·)

/-! ## Strings as they are written -/

/-- The text between the quotation marks of a string. -/
def rawText (value : String) : List Char := value.toList.flatMap escapeChar

theorem toList_quote (value : String) :
    (quote value).toList = '\x22' :: (rawText value ++ ['\x22']) := by
  rw [quote, Text.quoted, String.toList_ofList, rawText]

/-- A character that is harmless in a string stands for itself, and any other one is meant by the
one after a backslash. -/
theorem escapeChar_eq (c : Char) :
    (escapeChar c = [c] ∧ c ≠ '\\' ∧ c ≠ '\x22' ∧ c ≠ '\n' ∧ c ≠ '\r') ∨
      ∃ d, escapeChar c = ['\\', d] ∧ escape? d = some c := by
  rw [escapeChar]
  split
  · next h => exact .inr ⟨'\\', rfl, congrArg some h.symm⟩
  split
  · next h => exact .inr ⟨'\x22', rfl, congrArg some h.symm⟩
  split
  · next h => exact .inr ⟨'n', rfl, congrArg some h.symm⟩
  split
  · next h => exact .inr ⟨'t', rfl, congrArg some h.symm⟩
  split
  · next h => exact .inr ⟨'r', rfl, congrArg some h.symm⟩
  · next hslash hquote hfeed _ hreturn => exact .inl ⟨rfl, hslash, hquote, hfeed, hreturn⟩

theorem decode?_escapeChar (c : Char) (cs : List Char) :
    decode? (escapeChar c ++ cs) = (decode? cs).map (c :: ·) := by
  rcases escapeChar_eq c with ⟨hplain, hslash, -⟩ | ⟨d, hescape, hd⟩
  · rw [hplain, List.singleton_append, decode?, if_neg hslash]
    exact fun d ds h _ ↦ hslash h
  · rw [hescape, List.cons_append, List.singleton_append, decode?, hd]
    cases decode? cs <;> rfl

theorem decode?_rawText (value : String) : decode? (rawText value) = some value.toList := by
  rw [rawText]
  induction value.toList with
  | nil => rfl
  | cons c cs ih => rw [List.flatMap_cons, decode?_escapeChar, ih, Option.map_some]

theorem reads_escapeChar (c : Char) (raw : List Char) (found : List (List Char)) :
    literals.Reads (.literal raw, found) (escapeChar c)
      (.literal (raw ++ escapeChar c), found) := by
  rcases escapeChar_eq c with ⟨hplain, hslash, hquote, hfeed, hreturn⟩ | ⟨d, hescape, -⟩
  · rw [hplain]
    refine .skip ?_ (.refl _)
    show Side.next (.literal raw) c = some (.literal (raw ++ [c]), none)
    rw [Side.next, if_neg hquote, if_neg (not_or.mpr ⟨hfeed, hreturn⟩), if_neg hslash]
  · rw [hescape]
    exact .skip rfl (.skip rfl (.refl _))

theorem reads_escaped (cs raw : List Char) (found : List (List Char)) :
    literals.Reads (.literal raw, found) (cs.flatMap escapeChar)
      (.literal (raw ++ cs.flatMap escapeChar), found) := by
  induction cs generalizing raw with
  | nil =>
    rw [List.flatMap_nil, List.append_nil]
    exact .refl _
  | cons c cs ih =>
    rw [List.flatMap_cons, ← List.append_assoc]
    exact (reads_escapeChar c raw found).append (ih _)

/-! ## Texts that are read as strings -/

/-- A reader who comes to the text outside of strings finds the given strings in it, and is outside
of strings again after it. -/
def Finds (text : List Char) (values : List String) : Prop :=
  ∀ found, literals.Reads (.code, found) text (.code, found ++ values.map rawText)

theorem Finds.append {text text' : List Char} {values values' : List String}
    (h : Finds text values) (h' : Finds text' values') :
    Finds (text ++ text') (values ++ values') := by
  intro found
  have hboth := (h found).append (h' (found ++ values.map rawText))
  rwa [List.append_assoc, ← List.map_append] at hboth

/-- A character that opens nothing. -/
def isPlain (c : Char) : Bool := c ≠ '\x22' && c ≠ '\'' && c ≠ '\x60' && c ≠ '/'

/-- In a text that opens nothing there are no strings. -/
theorem finds_plain {s : List Char} (h : s.all isPlain = true) : Finds s [] := by
  intro found
  rw [List.map_nil, List.append_nil]
  refine Text.Machine.reads_skipAll (fun c hc ↦ ?_) found
  have hplain := List.all_eq_true.mp h c hc
  simp only [isPlain, Bool.and_eq_true, decide_eq_true_iff] at hplain
  obtain ⟨⟨⟨hquote, hsingle⟩, hback⟩, hslash⟩ := hplain
  show Side.next .code c = some (.code, none)
  rw [Side.next, Side.outside, if_neg hquote, if_neg (not_or.mpr ⟨hsingle, hback⟩), if_neg hslash]

/-- What is written for a string is read as that string. -/
theorem finds_quote (value : String) : Finds (quote value).toList [value] := by
  intro found
  rw [toList_quote]
  have hraw := reads_escaped value.toList [] found
  rw [List.nil_append, ← rawText] at hraw
  exact .skip rfl (hraw.append (.move rfl rfl (.refl _)))

theorem isPlain_of_isWordChar {c : Char} (h : Scan.isWordChar c = true) : isPlain c = true := by
  have hne (d : Char) (hd : Scan.isWordChar d = false) : c ≠ d := by
    rintro rfl
    rw [h] at hd
    exact Bool.noConfusion hd
  simp [isPlain, hne '\x22' (by decide), hne '\'' (by decide), hne '\x60' (by decide),
    hne '/' (by decide)]

theorem isPlain_name {x : String} (h : isName x = true) : x.toList.all isPlain = true :=
  List.all_eq_true.mpr fun c hc ↦ isPlain_of_isWordChar (isWordChar_of_isName h c hc)

theorem finds_name {x : String} (h : isName x = true) : Finds x.toList [] :=
  finds_plain (isPlain_name h)

theorem finds_digits {d : String} (h : isDigits d = true) : Finds d.toList [] :=
  finds_plain
    (List.all_eq_true.mpr fun c hc ↦ isPlain_of_isWordChar (isWordChar_of_isDigits h c hc))

/-- The blanks around an operator keep a slash apart from what would make it a comment. -/
theorem finds_operator (op : ArithOp) : Finds ([' '] ++ op.symbol.toList ++ [' ']) [] := by
  cases op with
  | add | sub | mul => exact finds_plain (by decide)
  | div =>
    intro found
    rw [List.map_nil, List.append_nil]
    exact .skip rfl (.skip rfl (.skip rfl (.refl _)))

theorem finds_comparison (op : CompareOp) : Finds ([' '] ++ op.symbol.toList ++ [' ']) [] :=
  finds_plain (by cases op <;> decide)

end Script

/-! ## The strings of a program -/

/-- The strings in an expression, from left to right. -/
def Expr.strings : Expr → List String
  | string value => [value]
  | number _ | ident _ => []
  | binary _ left right | concat left right => left.strings ++ right.strings

/-- The strings in a condition, from left to right. -/
def Condition.strings (condition : Condition) : List String :=
  condition.left.strings ++ condition.right.strings

/-- The strings in a first value. -/
def stringsFirst : Option Expr → List String
  | none => []
  | some e => e.strings

mutual

/-- The strings in a statement, from left to right. -/
def Stmt.strings : Stmt → List String
  | .declare _ value => stringsFirst value
  | .assign _ value => value.strings
  | .print value => value.strings
  | .branch condition body orElse =>
    condition.strings ++ (Stmt.stringsAll body ++ orElse.strings)
  | .whileLoop condition body => condition.strings ++ Stmt.stringsAll body
  | .forLoop _ start stop body => (start.strings ++ stop.strings) ++ Stmt.stringsAll body
  | .break | .continue => []

/-- The strings in statements, from left to right. -/
def Stmt.stringsAll : List Stmt → List String
  | [] => []
  | stmt :: more => stmt.strings ++ Stmt.stringsAll more

/-- The strings in what a conditional does when its condition fails, from left to right. -/
def ElseChain.strings : ElseChain → List String
  | .nothing => []
  | .otherwise body => Stmt.stringsAll body
  | .elseIf condition body orElse =>
    condition.strings ++ (Stmt.stringsAll body ++ orElse.strings)

end

/-- The strings in a program, from left to right. -/
def Program.strings (program : Program) : List String := Stmt.stringsAll program.body

open Script (Finds)

/-! ## Expressions -/

theorem Expr.finds_text {e : Expr} (h : e.hasForms plainForms = true) :
    Finds e.lower.text.toList e.strings := by
  -- An addition and a concatenation are written alike, and so are their strings.
  have hbinary {op : ArithOp} {left right : Expr} (hl : Finds left.lower.text.toList left.strings)
      (hr : Finds right.lower.text.toList right.strings) :
      Finds (Script.Expr.binary op left.lower right.lower).text.toList
        (left.strings ++ right.strings) := by
    have hall := (Script.finds_plain (s := ['(']) rfl).append (hl.append
      ((Script.finds_operator op).append (hr.append (Script.finds_plain (s := [')']) rfl))))
    simpa [Script.Expr.text] using hall
  induction e with
  | number digits => exact Script.finds_digits h
  | string value => exact Script.finds_quote value
  | ident name => exact Script.finds_name h
  | binary op left right ihl ihr =>
    rw [hasForms, Bool.and_eq_true] at h
    exact hbinary (ihl h.1) (ihr h.2)
  | concat left right ihl ihr =>
    rw [hasForms, Bool.and_eq_true] at h
    exact hbinary (ihl h.1) (ihr h.2)

theorem Condition.finds_text {c : Condition} (h : c.hasForms plainForms = true) :
    Finds c.lower.text.toList c.strings := by
  rw [hasForms, Bool.and_eq_true] at h
  have hall := (Expr.finds_text h.1).append
    ((Script.finds_comparison c.op).append (Expr.finds_text h.2))
  simpa [lower, Script.Condition.text, strings] using hall

theorem finds_lowerFirst {value : Option Expr} (h : value.all (Expr.hasForms plainForms) = true) :
    Finds (lowerFirst value).text.toList (stringsFirst value) := by
  cases value with
  | none => exact Script.finds_plain (by decide)
  | some e => exact Expr.finds_text h

/-! ## Lines -/

namespace Script

/-- A reader finds the given strings in the lines, each of which is left outside of strings. -/
abbrev FindsLines : List (List Char) → List String → Prop := EachLine Finds

theorem FindsLines.inner {lines : List (List Char)} {values : List String}
    (h : FindsLines lines values) : FindsLines (inner lines) values :=
  EachLine.inner h fun _ _ hline ↦ (finds_plain (by decide)).append hline

theorem findsLines_close : FindsLines [close] [] := .single (finds_plain (by decide))

/-- Lines are read one after another. -/
theorem FindsLines.intercalate {lines : List (List Char)} {values : List String}
    (h : FindsLines lines values) : Finds (['\n'].intercalate lines) values := by
  induction h with
  | nil => exact finds_plain rfl
  | @cons line lines values more hline hlines ih =>
    cases lines with
    | nil =>
      rw [List.intercalate_singleton]
      cases hlines
      rwa [List.append_nil]
    | cons next lines =>
      rw [List.intercalate_cons_cons, List.append_assoc]
      exact hline.append ((finds_plain (s := ['\n']) (by decide)).append ih)

/-- A text between two that open nothing. -/
theorem Finds.between {text : List Char} {values : List String} (h : Finds text values)
    {before after : String} (hbefore : before.toList.all isPlain = true)
    (hafter : after.toList.all isPlain = true) :
    Finds (before.toList ++ (text ++ after.toList)) values := by
  have hall := (finds_plain hbefore).append (h.append (finds_plain hafter))
  rwa [List.nil_append, List.append_nil] at hall

end Script

open Script (FindsLines)

/-! ## Statements -/

theorem Stmt.finds_declare {x : String} {value : Option Expr}
    (h : (Stmt.declare x value).hasForms plainForms = true) :
    Finds (Stmt.declare x value).lower.head.line (stringsFirst value) := by
  rw [Stmt.hasForms, Bool.and_eq_true] at h
  have hbefore : ("let " ++ x ++ " = ").toList.all Script.isPlain = true := by
    simp [Script.isPlain_name h.1, Script.isPlain]
  have hline := (finds_lowerFirst h.2).between hbefore (rfl : ";".toList.all Script.isPlain = true)
  simpa [Stmt.lower, Script.Stmt.head, Script.Head.line, Script.Head.text, Script.Head.mark]
    using hline

theorem Stmt.finds_assign {x : String} {e : Expr}
    (h : (Stmt.assign x e).hasForms plainForms = true) :
    Finds (Stmt.assign x e).lower.head.line e.strings := by
  rw [Stmt.hasForms, Bool.and_eq_true] at h
  have hbefore : (x ++ " = ").toList.all Script.isPlain = true := by
    simp [Script.isPlain_name h.1, Script.isPlain]
  have hline := (Expr.finds_text h.2).between hbefore (rfl : ";".toList.all Script.isPlain = true)
  simpa [Stmt.lower, Script.Stmt.head, Script.Head.line, Script.Head.text, Script.Head.mark]
    using hline

theorem Stmt.finds_print {e : Expr} (h : (Stmt.print e).hasForms plainForms = true) :
    Finds (Stmt.print e).lower.head.line e.strings := by
  rw [Stmt.hasForms] at h
  have hline := (Expr.finds_text h).between
    (rfl : "console.log(".toList.all Script.isPlain = true)
    (rfl : ");".toList.all Script.isPlain = true)
  simpa [Stmt.lower, Script.Stmt.head, Script.Head.line, Script.Head.text, Script.Head.mark]
    using hline

/-- A line that opens the block under a condition. -/
theorem Condition.finds_line {c : Condition} (h : c.hasForms plainForms = true) {before : String}
    (hbefore : before.toList.all Script.isPlain = true) :
    Finds ((before ++ c.lower.text ++ ") ").toList ++ ['\x7b']) c.strings := by
  have hline := (Condition.finds_text h).between hbefore
    (rfl : ") \x7b".toList.all Script.isPlain = true)
  simpa using hline

theorem Stmt.finds_forLoop {x : String} {start stop : Expr} {body : List Stmt}
    (h : (Stmt.forLoop x start stop body).hasForms plainForms = true) :
    Finds (Stmt.forLoop x start stop body).lower.head.line (start.strings ++ stop.strings) := by
  rw [Stmt.hasForms, Bool.and_eq_true, Bool.and_eq_true, Bool.and_eq_true] at h
  obtain ⟨⟨⟨hx, hstart⟩, hstop⟩, -⟩ := h
  have hname := Script.isPlain_name hx
  have hfirst : ("for (let " ++ x ++ " = ").toList.all Script.isPlain = true := by
    simp [hname, Script.isPlain]
  have htest : ("; " ++ x ++ " < ").toList.all Script.isPlain = true := by
    simp [hname, Script.isPlain]
  have hstep : ("; " ++ x ++ "++) \x7b").toList.all Script.isPlain = true := by
    simp [hname, Script.isPlain]
  have hline := ((Expr.finds_text hstart).between hfirst htest).append
    ((Expr.finds_text hstop).between (rfl : "".toList.all Script.isPlain = true) hstep)
  simpa [Stmt.lower, Script.Stmt.head, Script.Head.line, Script.Head.text, Script.Head.mark,
    Script.counting] using hline

mutual

/-- The lines of a statement are read as the strings in it. -/
theorem Stmt.findsLines : ∀ s : Stmt, s.hasForms plainForms = true →
    FindsLines s.lower.lines s.strings
  | .declare x value, h => by
    rw [Stmt.strings]
    exact .single (Stmt.finds_declare h)
  | .assign x e, h => by
    rw [Stmt.strings]
    exact .single (Stmt.finds_assign h)
  | .print e, h => by
    rw [Stmt.strings]
    exact .single (Stmt.finds_print h)
  | .branch c body orElse, h => by
    rw [Stmt.hasForms, Bool.and_eq_true, Bool.and_eq_true] at h
    rw [Stmt.lower, Stmt.strings, Script.Stmt.lines, Script.Stmt.under]
    exact .cons (Condition.finds_line h.1.1 rfl)
      ((Stmt.findsLines_linesAll body h.1.2).inner.append (ElseChain.findsLines orElse h.2))
  | .whileLoop c body, h => by
    rw [Stmt.hasForms, Bool.and_eq_true] at h
    rw [Stmt.lower, Stmt.strings, Script.Stmt.lines, Script.Stmt.under,
      ← List.append_nil (Stmt.stringsAll body)]
    exact .cons (Condition.finds_line h.1 rfl)
      ((Stmt.findsLines_linesAll body h.2).inner.append Script.findsLines_close)
  | .forLoop x start stop body, h => by
    have hline := Stmt.finds_forLoop h
    rw [Stmt.hasForms, Bool.and_eq_true] at h
    rw [Stmt.lower] at hline
    rw [Stmt.lower, Stmt.strings, Script.Stmt.lines, Script.Stmt.under,
      ← List.append_nil (Stmt.stringsAll body)]
    exact .cons hline ((Stmt.findsLines_linesAll body h.2).inner.append Script.findsLines_close)
  | .break, _ => by
    rw [Stmt.strings]
    exact .single (Script.finds_plain rfl)
  | .continue, _ => by
    rw [Stmt.strings]
    exact .single (Script.finds_plain rfl)

theorem Stmt.findsLines_linesAll : ∀ body : List Stmt, Stmt.haveForms plainForms body = true →
    FindsLines (Script.Stmt.linesAll (Stmt.lowerAll body)) (Stmt.stringsAll body)
  | [], _ => by
    rw [Stmt.lowerAll, Script.Stmt.linesAll, Stmt.stringsAll]
    exact .nil
  | s :: more, h => by
    rw [Stmt.haveForms, Bool.and_eq_true] at h
    rw [Stmt.lowerAll, Script.Stmt.linesAll, Stmt.stringsAll]
    exact (Stmt.findsLines s h.1).append (Stmt.findsLines_linesAll more h.2)

theorem ElseChain.findsLines : ∀ chain : ElseChain, chain.hasForms plainForms = true →
    FindsLines chain.lower.lines chain.strings
  | .nothing, _ => by
    rw [ElseChain.lower, Script.Else.lines, ElseChain.strings]
    exact Script.findsLines_close
  | .otherwise [], _ => by
    -- An empty last branch is left out, and there are no strings in it.
    rw [ElseChain.lower, Script.Else.lines, ElseChain.strings, Stmt.stringsAll]
    exact Script.findsLines_close
  | .otherwise (s :: more), h => by
    rw [ElseChain.hasForms] at h
    rw [ElseChain.lower, Script.Else.lines, ElseChain.strings,
      ← List.append_nil (Stmt.stringsAll (s :: more)), ← List.nil_append (_ ++ [])]
    exact .cons (Script.finds_plain rfl)
      ((Stmt.findsLines_linesAll (s :: more) h).inner.append Script.findsLines_close)
  | .elseIf c body orElse, h => by
    rw [ElseChain.hasForms, Bool.and_eq_true, Bool.and_eq_true] at h
    rw [ElseChain.lower, Script.Else.lines, ElseChain.strings]
    exact .cons (Condition.finds_line h.1.1 rfl)
      ((Stmt.findsLines_linesAll body h.1.2).inner.append (ElseChain.findsLines orElse h.2))

end

/-! ## Programs -/

/-- **A string never gets out of its quotes.** Whatever the strings of a program hold, someone who
reads the text of its script for strings meets no string that runs over the end of a line, and
outside of strings no comment and no other kind of string; ends outside of strings; and finds the
strings of the program, in their order, once escapes are undone. -/
theorem Program.finds_code {p : Program} (h : p.hasForms plainForms = true) :
    ∃ raws, Script.literals.Reads (.code, []) p.code.toList (.code, raws) ∧
      raws.map Script.decode? = p.strings.map fun value ↦ some value.toList := by
  have hzero : plainForms.digits "0" = true := by decide
  have hforms : p.lower.hasForms plainForms = true := by rw [Program.hasForms_lower hzero, h]
  refine ⟨p.strings.map Script.rawText, ?_, ?_⟩
  · have hfinds := (Stmt.findsLines_linesAll p.body h).intercalate []
    rw [List.nil_append] at hfinds
    rw [Program.code, Script.text_eq_intercalate Script.oneLine_plainForms hforms]
    exact hfinds
  · rw [List.map_map]
    exact List.map_congr_left fun value _ ↦ Script.decode?_rawText value

/-- Strings that hold quotation marks, line breaks and what would open a comment, in a condition, a
bound and two bodies. -/
theorem Program.finds_code_hostile :
    let p : Program := ⟨[
      .branch ⟨.string "\x22); //", .eq, .string "\\"⟩ [
        .forLoop "i" (.string "\n") (.binary .div (.number "8") (.ident "i"))
          [.print (.concat (.string "/*") (.string "'\r\x60"))]]
        (.otherwise [])]⟩
    p.hasForms plainForms = true ∧ p.strings = ["\x22); //", "\\", "\n", "/*", "'\r\x60"] ∧
      ∃ raws, Script.literals.Reads (.code, []) p.code.toList (.code, raws) ∧
        raws.map Script.decode? = p.strings.map fun value ↦ some value.toList := by
  intro p
  have hforms : p.hasForms plainForms = true := by decide
  exact ⟨hforms, rfl, finds_code hforms⟩

end JPlusPlus
