import JPlusPlus.Proofs.Parse.Print
import JPlusPlus.Proofs.Script.Literals
import JPlusPlus.Proofs.Script.Normal
import JPlusPlus.Proofs.Token.Lines

/-!
# Expressions of a script as source

An expression of a script is an expression of the source language as well. Names and numbers are
written alike in both, and an operation has its parentheses, so the levels of operators have no say.
What is read back is the expression with additions for its concatenations, since a script does not
tell the two apart.

## What keeps tokens apart

Scripts have a single space around an operator where tokens on lines of their own have a line feed,
and a space does not end everything: `ke` and a space may be the start of a keyword. What saves the
name `ke` is the character after the space, which belongs to an operator. So a word is followed by
two characters that are in no word, or by fewer before the end, and this is the condition that is
carried through an expression.

## Strings

Strings are written by one set of escapes and read by another. The two agree on all characters but
one: a carriage return is written as `\r`, which in a source is the letter `r`.
-/

namespace JPlusPlus

namespace Script

open Scan (isWordChar isWordStart scan step phrase? wordToken)

/-! ## Texts that are scanned as tokens -/

/-- No word goes on here, nor does one start after a single character. -/
structure IsGap (rest : List Char) : Prop where
  /-- No word goes on here. -/
  first : Ends isWordChar rest
  /-- No word starts after a single character. -/
  second : Ends isWordChar rest.tail

theorem isGap_nil : IsGap [] := ⟨nofun, nofun⟩

theorem isGap_cons {c : Char} {rest : List Char} (hc : isWordChar c = false)
    (hrest : Ends isWordChar rest) : IsGap (c :: rest) :=
  ⟨ends_cons hc rest, hrest⟩

/-- The text is scanned as the tokens, whatever follows it. -/
def Scans (text : List Char) (tokens : List Token) : Prop :=
  ∀ rest, scan (text ++ rest) = (scan rest).map (tokens ++ ·)

/-- The text is scanned as the tokens, where a gap follows it. -/
def ScansWhole (text : List Char) (tokens : List Token) : Prop :=
  ∀ rest, IsGap rest → scan (text ++ rest) = (scan rest).map (tokens ++ ·)

section

variable {text text' : List Char} {tokens tokens' : List Token}

theorem map_tokens_map_tokens (found : Except ScanFault (List Token)) :
    (found.map (tokens' ++ ·)).map (tokens ++ ·) = found.map (tokens ++ tokens' ++ ·) := by
  cases found with
  | error fault => rfl
  | ok more => exact congrArg Except.ok (List.append_assoc tokens tokens' more).symm

theorem Scans.append (h : Scans text tokens) (h' : ScansWhole text' tokens') :
    ScansWhole (text ++ text') (tokens ++ tokens') := by
  intro rest hrest
  rw [List.append_assoc, h, h' rest hrest, map_tokens_map_tokens]

/-- What follows starts with a gap, if only because a gap follows that. -/
theorem ScansWhole.append (h : ScansWhole text tokens) (h' : ScansWhole text' tokens')
    (hgap : ∀ rest, IsGap rest → IsGap (text' ++ rest)) :
    ScansWhole (text ++ text') (tokens ++ tokens') := by
  intro rest hrest
  rw [List.append_assoc, h _ (hgap rest hrest), h' rest hrest, map_tokens_map_tokens]

/-- A text with nothing after it. -/
theorem ScansWhole.scan_eq (h : ScansWhole text tokens) : scan text = .ok tokens := by
  have hnone := h [] isGap_nil
  rw [List.append_nil, Scan.scan] at hnone
  rw [hnone]
  exact congrArg Except.ok (List.append_nil tokens)

theorem scans_nil : Scans [] [] := by
  intro rest
  rw [List.nil_append]
  cases scan rest <;> rfl

theorem Scans.blank (h : Scans text tokens) : Scans (' ' :: text) tokens := by
  intro rest
  have hstep : step ' ' (text ++ rest) = .ok (none, text ++ rest) := rfl
  rw [List.cons_append, Scan.scan_cons, hstep]
  show (scan (text ++ rest)).map ([] ++ ·) = _
  rw [h, map_tokens_map_tokens, List.nil_append]

/-- A mark of one character. -/
theorem Scans.mark {c : Char} {token : Token}
    (hstep : ∀ rest, step c (text ++ rest) = .ok (some token, text ++ rest))
    (h : Scans text tokens) : Scans (c :: text) (token :: tokens) := by
  intro rest
  rw [List.cons_append, Scan.scan_cons, hstep]
  show (scan (text ++ rest)).map ([token] ++ ·) = _
  rw [h, map_tokens_map_tokens, List.singleton_append]

theorem scans_lparen : Scans ['('] [Delimiter.lparen.token] := .mark (fun _ ↦ rfl) scans_nil

theorem scans_rparen : Scans [')'] [Delimiter.rparen.token] := .mark (fun _ ↦ rfl) scans_nil

/-- An operator between two spaces. A slash opens no comment there. -/
theorem scans_operator (op : ArithOp) :
    Scans ([' '] ++ op.symbol.toList ++ [' ']) [op.mark.token] := by
  rcases op with _ | _ | _ | _ <;> exact .blank (.mark (fun _ ↦ rfl) (.blank scans_nil))

end

/-! ## Words and numbers -/

/-- Before a gap stands no keyword of two words, unless `nahi` does. -/
theorem phrase?_eq_none {w rest : List Char} (hw : ∀ c ∈ w, isWordChar c = true)
    (hnahi : w ≠ "nahi".toList) (hrest : IsGap rest) : phrase? (w ++ rest) = none := by
  have hspace (second more : List Char) : Ends isWordChar (' ' :: second ++ more) :=
    ends_cons (by decide) _
  have hfirst : Scan.afterWord? Keyword.nahiAgar.spelling.toList (w ++ rest) = none := by
    refine Option.eq_none_iff_forall_ne_some.mpr fun more hmore ↦ hnahi ?_
    have htext : w ++ rest = "nahi".toList ++ (' ' :: "agar".toList ++ more) :=
      (Scan.afterWord?_eq_some_iff.mp hmore).trans rfl
    exact (span_append_inj hw (List.all_eq_true.mp rfl) hrest.first (hspace _ _) htext).1
  have hsecond : Scan.afterWord? Keyword.keLiye.spelling.toList (w ++ rest) = none := by
    refine Option.eq_none_iff_forall_ne_some.mpr fun more hmore ↦ ?_
    have htext : w ++ rest = "ke".toList ++ (' ' :: "liye".toList ++ more) :=
      (Scan.afterWord?_eq_some_iff.mp hmore).trans rfl
    obtain ⟨-, hgap⟩ := span_append_inj hw (List.all_eq_true.mp rfl) hrest.first (hspace _ _) htext
    -- The word after the space starts where the gap has no word.
    have hl : isWordChar 'l' = false := hrest.second 'l' (by rw [hgap]; rfl)
    exact absurd hl (by decide)
  rw [phrase?, hfirst, hsecond]

theorem scansWhole_name {x : String} (h : isIdentifier x = true) :
    ScansWhole x.toList [nameToken x] := by
  obtain ⟨hname, hfree⟩ := Bool.and_eq_true_iff.mp h
  have hword := isWordChar_of_isName hname
  obtain ⟨c, cs, hx, hc⟩ := head?_of_isName hname
  have hnahi : x.toList ≠ "nahi".toList := by
    intro he
    rw [String.toList_inj.mp he] at hfree
    exact absurd hfree (by decide)
  intro rest hrest
  have hphrase := phrase?_eq_none hword hnahi hrest
  rw [hx, List.cons_append] at hphrase
  rw [hx, List.forall_mem_cons] at hword
  obtain ⟨htake, hdrop⟩ := span_append hword.2 hrest.first
  have hstep : step c (cs ++ rest) = .ok (some (nameToken x), rest) := by
    rw [Scan.step_of_phrase?_eq_none hword.1 hphrase, if_pos hc, htake, hdrop, ← hx,
      String.ofList_toList, Scan.wordToken_of_isIdentifier h]
    rfl
  rw [hx, List.cons_append, Scan.scan_cons, hstep]
  rfl

theorem scansWhole_number {d : String} (h : isDigits d = true) :
    ScansWhole d.toList [⟨.integer, d⟩] := by
  have hword := isWordChar_of_isDigits h
  obtain ⟨c, cs, hd, hc⟩ := head?_of_isDigits h
  rw [isDigits, Bool.and_eq_true, List.all_eq_true, hd, List.forall_mem_cons] at h
  have hnahi : d.toList ≠ "nahi".toList := by
    intro he
    rw [(List.cons.inj (hd.symm.trans he)).1] at hc
    exact absurd hc (by decide)
  intro rest hrest
  have hends : Ends Char.isDigit rest := by
    intro e he
    refine Bool.eq_false_iff.mpr fun hdigit ↦ ?_
    exact Bool.false_ne_true ((hrest.first e he).symm.trans (Scan.isWordChar_of_isDigit hdigit))
  have hphrase := phrase?_eq_none hword hnahi hrest
  rw [hd, List.cons_append] at hphrase
  obtain ⟨htake, hdrop⟩ := span_append h.2.2 hends
  have hstart : ¬isWordStart c = true := by simp [Scan.isWordStart_of_isDigit hc]
  have hstep : step c (cs ++ rest) = .ok (some ⟨.integer, d⟩, rest) := by
    rw [Scan.step_of_phrase?_eq_none (Scan.isWordChar_of_isDigit hc) hphrase, if_neg hstart, htake,
      hdrop, ← hd, String.ofList_toList]
  rw [hd, List.cons_append, Scan.scan_cons, hstep]
  rfl

/-! ## Strings -/

/-- Of the escapes that scripts use, a source reads all but one as they are meant. -/
theorem unescape_of_escape? {c d : Char} (h : escape? d = some c) (hc : c ≠ '\r') :
    Scan.unescape d = c := by
  unfold escape? at h
  split at h
  · cases h; rfl
  · cases h; rfl
  · cases h; exact absurd rfl hc
  · cases h; rfl
  · cases h; rfl
  · cases h

/-- A string without carriage returns is read as it was written. -/
theorem literal?_escaped {value : List Char} (h : '\r' ∉ value) (rest : List Char) :
    Scan.literal? '\x22' (value.flatMap escapeChar ++ '\x22' :: rest) = some (value, rest) := by
  induction value with
  | nil => exact Scan.literal?_quote rfl rest
  | cons c value ih =>
    rw [List.mem_cons, not_or] at h
    obtain ⟨hc, hvalue⟩ := h
    rw [List.flatMap_cons, List.append_assoc]
    rcases escapeChar_eq c with ⟨hplain, hslash, hquote, -⟩ | ⟨d, hescape, hd⟩
    · rw [hplain, List.singleton_append, Scan.literal?_plain hquote hslash, ih hvalue]
      rfl
    · rw [hescape, List.cons_append, List.singleton_append,
        Scan.literal?_escape (by decide) rfl, ih hvalue, unescape_of_escape? hd (Ne.symm hc)]
      rfl

theorem scansWhole_quote {value : String} (h : '\r' ∉ value.toList) :
    ScansWhole (quote value).toList [⟨.string, value⟩] := by
  intro rest _
  have hstep : step '\x22' (rawText value ++ '\x22' :: rest) =
      .ok (some ⟨.string, value⟩, rest) := by
    rw [Scan.step_of_isQuote (by decide), Scan.char_char, rawText, literal?_escaped h]
    show Except.ok (some (Token.mk .string (String.ofList value.toList)), rest) = _
    rw [String.ofList_toList]
  rw [toList_quote, List.cons_append, List.append_assoc, List.singleton_append, Scan.scan_cons,
    hstep]
  rfl

/-! ## Expressions -/

/-- The tokens of an expression as it is written in a script. -/
def Expr.tokens : Expr → List Token
  | number digits => [⟨.integer, digits⟩]
  | string value => [⟨.string, value⟩]
  | ident name => [nameToken name]
  | binary op left right =>
    Delimiter.lparen.token ::
      (left.tokens ++ op.mark.token :: (right.tokens ++ [Delimiter.rparen.token]))

/-- An operation is scanned as its tokens, if its operands are. -/
theorem Expr.scansWhole_binary (op : ArithOp) {left right : Expr}
    (hl : ScansWhole left.text.toList left.tokens)
    (hr : ScansWhole right.text.toList right.tokens) :
    ScansWhole (binary op left right).text.toList (binary op left right).tokens := by
  have hclose :
      ScansWhole (right.text.toList ++ [')']) (right.tokens ++ [Delimiter.rparen.token]) :=
    hr.append (fun rest _ ↦ scans_rparen rest) fun rest hrest ↦ isGap_cons (by decide) hrest.first
  have hsymbol (rest : List Char) : Ends isWordChar (op.symbol.toList ++ rest) := by
    rcases op with _ | _ | _ | _ <;> exact ends_cons (by decide) rest
  have hmiddle := hl.append ((scans_operator op).append hclose) fun rest _ ↦ by
    simpa using isGap_cons (c := ' ') (by decide) (hsymbol _)
  simpa [text, tokens] using scans_lparen.append hmiddle

end Script

/-- **The text of an expression is scanned as its tokens.** -/
theorem Expr.scansWhole_text {e : Expr} (h : e.isWellFormed = true)
    (hreturn : ∀ value ∈ e.strings, '\r' ∉ value.toList) :
    Script.ScansWhole e.lower.text.toList e.lower.tokens := by
  induction e with
  | number digits => exact Script.scansWhole_number (isDigits_of_isNumeral h)
  | string value => exact Script.scansWhole_quote (hreturn value List.mem_cons_self)
  | ident name => exact Script.scansWhole_name h
  | binary op left right ihl ihr =>
    obtain ⟨hl, hr⟩ := Bool.and_eq_true_iff.mp h
    obtain ⟨hreturnl, hreturnr⟩ := List.forall_mem_append.mp hreturn
    exact Script.Expr.scansWhole_binary op (ihl hl hreturnl) (ihr hr hreturnr)
  | concat left right ihl ihr =>
    obtain ⟨hl, hr⟩ := Bool.and_eq_true_iff.mp h
    obtain ⟨hreturnl, hreturnr⟩ := List.forall_mem_append.mp hreturn
    exact Script.Expr.scansWhole_binary .add (ihl hl hreturnl) (ihr hr hreturnr)

/-- An operation in parentheses is an atom, whatever its operator and its operands. -/
theorem DerivesExpr.parens_binary {us vs : List Token} {left right : Expr} (op : ArithOp)
    (hl : DerivesExpr .atom us left) (hr : DerivesExpr .atom vs right) :
    DerivesExpr .atom
      (Delimiter.lparen.token :: (us ++ op.mark.token :: (vs ++ [Delimiter.rparen.token])))
      (.binary op left right) := by
  have hinner : DerivesExpr .sum (us ++ op.mark.token :: vs) (.binary op left right) := by
    rcases op with _ | _ | _ | _
    · exact .sum (hl.loosen (by decide)) (.inl rfl) rfl (hr.loosen (by decide))
    · exact .sum (hl.loosen (by decide)) (.inr rfl) rfl (hr.loosen (by decide))
    · exact (DerivesExpr.product (hl.loosen (by decide)) (.inl rfl) rfl hr).loosen (by decide)
    · exact (DerivesExpr.product (hl.loosen (by decide)) (.inr rfl) rfl hr).loosen (by decide)
  have hatom := DerivesExpr.parens (l := Delimiter.lparen.token) (r := Delimiter.rparen.token) rfl
    hinner rfl
  rwa [List.cons_append, List.append_assoc, List.cons_append] at hatom

/-- The tokens of an expression's script spell the normal form of the expression. -/
theorem Expr.derives_lower_tokens {e : Expr} (h : e.isWellFormed = true) :
    DerivesExpr .atom e.lower.tokens e.normal := by
  induction e with
  | number digits =>
    have hnumber := DerivesExpr.number (t := ⟨.integer, digits⟩) rfl
    rwa [normalDigits_of_isNumeral h] at hnumber
  | string value => exact .string (t := ⟨.string, value⟩) rfl
  | ident name => exact .ident (t := nameToken name) rfl
  | binary op left right ihl ihr =>
    obtain ⟨hl, hr⟩ := Bool.and_eq_true_iff.mp h
    exact .parens_binary op (ihl hl) (ihr hr)
  | concat left right ihl ihr =>
    obtain ⟨hl, hr⟩ := Bool.and_eq_true_iff.mp h
    exact .parens_binary .add (ihl hl) (ihr hr)

/-! ## Printing an expression -/

theorem Script.scans_bol : Scans "bol ".toList [Keyword.bol.token] := by
  intro rest
  have hstep : Scan.step 'b' ('o' :: 'l' :: ' ' :: rest) =
      .ok (some Keyword.bol.token, ' ' :: rest) := rfl
  show Scan.scan ('b' :: 'o' :: 'l' :: ' ' :: rest) = _
  rw [Scan.scan_cons, hstep]
  show (Scan.scan ([' '] ++ rest)).map ([Keyword.bol.token] ++ ·) = _
  rw [Scans.blank scans_nil, map_tokens_map_tokens]
  rfl

theorem derives_print {us : List Token} {e : Expr} (h : DerivesExpr .sum us e) :
    Derives (Keyword.bol.token :: us) ⟨[.print e]⟩ := by
  have hprint : DerivesStmt false (Keyword.bol.token :: us) ([] ++ []) (.print e) :=
    .print rfl ⟨h, nofun⟩
  have hall : DerivesStmts false false (Keyword.bol.token :: us ++ []) [] [.print e] :=
    .cons hprint .nil
  rwa [List.append_nil] at hall

/-- **An expression of a script is read back as source.** Put after `bol` and a space, the text of
an expression has tokens, and the parser makes of them the statement that prints the expression,
with additions for its concatenations. -/
theorem Expr.parse_tokenize_text {e : Expr} (h : e.isWellFormed = true)
    (hreturn : ∀ value ∈ e.strings, '\r' ∉ value.toList) :
    ∃ tokens, tokenize ("bol " ++ e.lower.text) = .ok tokens ∧
      parse tokens = .ok ⟨[.print e.normal]⟩ := by
  refine ⟨Keyword.bol.token :: e.lower.tokens, ?_, ?_⟩
  · rw [tokenize_eq_scan, String.toList_append]
    exact (Script.scans_bol.append (Expr.scansWhole_text h hreturn)).scan_eq
  · exact (derives_print ((Expr.derives_lower_tokens h).loosen (by decide))).parse_eq

/-- The name `ke` before a space, the name `nahi_agar`, a quotient that could open a comment, and a
string that holds every other character with an escape and both quotation marks. -/
theorem Expr.parse_tokenize_text_ke :
    let e : Expr := .binary .div (.binary .mul (.ident "ke") (.ident "nahi_agar"))
      (.concat (.string "\\\x22'\n\t//\x00é") (.number "10"))
    e.lower.text = "((ke * nahi_agar) / (\"\\\\\\\"'\\n\\t//\x00é\" + 10))" ∧
      ∃ tokens, tokenize ("bol " ++ e.lower.text) = .ok tokens ∧ parse tokens =
        .ok ⟨[.print (.binary .div (.binary .mul (.ident "ke") (.ident "nahi_agar"))
          (.binary .add (.string "\\\x22'\n\t//\x00é") (.number "10")))]⟩ := by
  intro e
  exact ⟨by decide, Expr.parse_tokenize_text (e := e) (by decide) (by decide)⟩

end JPlusPlus
