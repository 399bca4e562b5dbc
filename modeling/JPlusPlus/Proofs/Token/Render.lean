import JPlusPlus.Proofs.Token.Units

/-!
# Tokens written as source

Tokens are written one on each line, and scanning what is written gives them back. The line feed
after each token is what keeps it apart from the next one: without it `nahi` and `agar`, `=` and
`=`, or a slash and a star would be read as something else.

Only tokens that a scan can give are written faithfully. A token of a fixed kind carries the
spelling of its kind, a name has the form of a name and is no keyword, a number is a run of digits,
and a string is any text at all.
-/

namespace JPlusPlus

/-! ## Names and numbers -/

/-- A name: an ASCII letter or an underscore, then ASCII letters, digits and underscores. -/
def isName (text : String) : Bool :=
  match text.toList with
  | [] => false
  | c :: cs => Scan.isWordStart c && cs.all Scan.isWordChar

/-- The words that cannot be names. -/
def reservedWords : List String :=
  ["ye", "bol", "agar", "nahi", "jabtak", "tak", "break", "continue"]

/-- A name that is no keyword. -/
def isIdentifier (text : String) : Bool := isName text && !reservedWords.contains text

/-- A run of ASCII digits that is not empty. -/
def isDigits (text : String) : Bool := !text.toList.isEmpty && text.toList.all Char.isDigit

/-! ## Writing -/

/-- The characters of a string as they stand between double quotes: only the backslash and the
double quote are escaped. -/
def Token.escapeChar (c : Char) : List Char :=
  if c = '\\' then ['\\', '\\'] else if c = '\x22' then ['\\', '\x22'] else [c]

/-- A token as it is written. -/
def Token.source (token : Token) : String :=
  match token.kind with
  | .string => Text.quoted Token.escapeChar token.text
  | _ => token.text

/-- Tokens as they are written, each followed by a line feed. -/
def render (tokens : List Token) : String :=
  String.ofList (tokens.flatMap fun token ↦ token.source.toList ++ ['\n'])

/-- A token that a scan can give. -/
def Token.isLexable (token : Token) : Bool :=
  match token.kind with
  | .ident => isIdentifier token.text
  | .integer => isDigits token.text
  | .string => true
  | kind => kind.spelling? = some token.text

@[simp] theorem Keyword.isLexable_token (k : Keyword) : k.token.isLexable = true :=
  decide_eq_true rfl

@[simp] theorem Operator.isLexable_token (o : Operator) : o.token.isLexable = true :=
  decide_eq_true rfl

@[simp] theorem Delimiter.isLexable_token (d : Delimiter) : d.token.isLexable = true :=
  decide_eq_true rfl

namespace Scan

/-! ## Words -/

theorem afterWord?_eq_some_iff {word us rest : List Char} :
    afterWord? word us = some rest ↔ us = word ++ rest := by
  induction word generalizing us with
  | nil => simp [afterWord?]
  | cons c word ih =>
    cases us with
    | nil => simp [afterWord?]
    | cons u us =>
      rw [afterWord?, char_char]
      by_cases h : u = c
      · rw [if_pos h, ih, h, List.cons_append, List.cons.injEq]
        simp
      · rw [if_neg h, List.cons_append, List.cons.injEq]
        simp [h]

theorem dropWhile_append_stop {p : Char → Bool} {w : List Char} {c : Char} (cs : List Char)
    (hw : ∀ d ∈ w, p d = true) (hc : p c = false) : (w ++ c :: cs).dropWhile p = c :: cs := by
  rw [List.dropWhile_append_of_pos hw, List.dropWhile_cons_of_neg (by simp [hc])]

theorem takeWhile_append_stop {p : Char → Bool} {w : List Char} {c : Char} (cs : List Char)
    (hw : ∀ d ∈ w, p d = true) (hc : p c = false) : (w ++ c :: cs).takeWhile p = w := by
  rw [List.takeWhile_append_of_pos hw, List.takeWhile_cons_of_neg (by simp [hc]), List.append_nil]

/-- Two words with a space between them do not start at a word that a line feed ends. -/
theorem afterWord?_eq_none_of_word {first second w : List Char}
    (hfirst : first.all isWordChar = true) (hw : ∀ d ∈ w, isWordChar d = true) (cs : List Char) :
    afterWord? (first ++ ' ' :: second) (w ++ '\n' :: cs) = none := by
  refine Option.eq_none_iff_forall_ne_some.mpr fun rest hr ↦ ?_
  -- Whatever is left after the first word tells the two apart: there a space, here a line feed.
  have hspace : (w ++ '\n' :: cs).dropWhile isWordChar = ' ' :: (second ++ rest) := by
    rw [afterWord?_eq_some_iff.mp hr, List.append_assoc, List.cons_append]
    exact dropWhile_append_stop _ (List.all_eq_true.mp hfirst) (by decide)
  rw [dropWhile_append_stop cs hw (by decide)] at hspace
  exact absurd (List.cons.inj hspace).1 (by decide)

theorem phrase?_eq_none_of_word {w : List Char} (hw : ∀ d ∈ w, isWordChar d = true)
    (cs : List Char) : phrase? (w ++ '\n' :: cs) = none := by
  have hnahi : afterWord? Keyword.nahiAgar.spelling.toList (w ++ '\n' :: cs) = none :=
    @afterWord?_eq_none_of_word "nahi".toList "agar".toList w (by decide) hw cs
  have hke : afterWord? Keyword.keLiye.spelling.toList (w ++ '\n' :: cs) = none :=
    @afterWord?_eq_none_of_word "ke".toList "liye".toList w (by decide) hw cs
  rw [phrase?, hnahi, hke]

theorem isWordChar_of_isWordStart {c : Char} (h : isWordStart c = true) : isWordChar c = true := by
  simp only [isWordStart, isWordChar, Char.isAlphanum, Bool.or_eq_true] at h ⊢
  rcases h with h | h
  · exact .inl (.inl h)
  · exact .inr h

theorem isWordChar_of_isDigit {c : Char} (h : c.isDigit = true) : isWordChar c = true := by
  simp [isWordChar, Char.isAlphanum, h]

theorem isWordStart_of_isDigit {c : Char} (h : c.isDigit = true) : isWordStart c = false := by
  rw [isDigit_iff] at h
  refine Bool.eq_false_iff.mpr fun hs ↦ ?_
  rw [isWordStart, Bool.or_eq_true, isAlpha_iff, decide_eq_true_eq] at hs
  rcases hs with hs | rfl
  · omega
  · exact absurd h.2 (by decide)

/-- Where no keyword of two words stands, a step from a character of words reads a word or a
number. -/
theorem step_of_phrase?_eq_none {c : Char} {cs : List Char} (hc : isWordChar c = true)
    (hphrase : phrase? (c :: cs) = none) :
    step c cs =
      if isWordStart c then
        .ok (some (wordToken (String.ofList (c :: cs.takeWhile isWordChar))),
          cs.dropWhile isWordChar)
      else .ok (some ⟨.integer, String.ofList (c :: cs.takeWhile Char.isDigit)⟩,
        cs.dropWhile Char.isDigit) := by
  have hblank : ¬isBlank c = true := by
    intro h
    simp only [isBlank, Bool.or_eq_true, decide_eq_true_eq] at h
    rcases h with (((rfl | rfl) | rfl) | rfl) | rfl <;> exact absurd hc (by decide)
  have hquote : ¬isQuote c = true := by
    intro h
    simp only [isQuote, Bool.or_eq_true, decide_eq_true_eq] at h
    rcases h with rfl | rfl <;> exact absurd hc (by decide)
  have hslash : ∀ k, ¬(decide (c = '/') && nextIs k cs) = true := by
    intro k h
    obtain rfl : c = '/' := of_decide_eq_true (Bool.and_eq_true_iff.mp h).1
    exact absurd hc (by decide)
  -- What is left of the step is the choice between a word and a number.
  simp only [step, char_char, if_neg hblank, if_neg (hslash _), if_neg hquote, hphrase]
  by_cases hstart : isWordStart c = true
  · rw [if_pos hstart, if_pos hstart]
    rfl
  · have hdigit : c.isDigit = true := by
      rw [isWordStart, Bool.or_eq_true, not_or] at hstart
      rw [isWordChar, Char.isAlphanum, Bool.or_eq_true, Bool.or_eq_true] at hc
      exact hc.resolve_right hstart.2 |>.resolve_left hstart.1
    rw [if_neg hstart, if_neg hstart, if_pos hdigit]
    rfl

/-- What stands before the rules for words and numbers in a step does not concern a word that a
line feed ends. -/
theorem step_of_isWordChar {c : Char} {w : List Char} (hc : isWordChar c = true)
    (hw : ∀ d ∈ w, isWordChar d = true) (cs : List Char) :
    step c (w ++ '\n' :: cs) =
      if isWordStart c then .ok (some (wordToken (String.ofList (c :: w))), '\n' :: cs)
      else .ok (some ⟨.integer, String.ofList (c :: (w ++ '\n' :: cs).takeWhile Char.isDigit)⟩,
        (w ++ '\n' :: cs).dropWhile Char.isDigit) := by
  have hphrase : phrase? (c :: (w ++ '\n' :: cs)) = none :=
    phrase?_eq_none_of_word (List.forall_mem_cons.mpr ⟨hc, hw⟩) cs
  rw [step_of_phrase?_eq_none hc hphrase, takeWhile_append_stop cs hw (by decide),
    dropWhile_append_stop cs hw (by decide)]

/-- A step from the start of a word reads the word. -/
theorem step_word {c : Char} {w : List Char} (hc : isWordStart c = true)
    (hw : ∀ d ∈ w, isWordChar d = true) (cs : List Char) :
    step c (w ++ '\n' :: cs) = .ok (some (wordToken (String.ofList (c :: w))), '\n' :: cs) := by
  rw [step_of_isWordChar (isWordChar_of_isWordStart hc) hw, if_pos hc]

/-- A step from the start of a number reads the number. -/
theorem step_number {c : Char} {w : List Char} (hc : c.isDigit = true)
    (hw : ∀ d ∈ w, d.isDigit = true) (cs : List Char) :
    step c (w ++ '\n' :: cs) = .ok (some ⟨.integer, String.ofList (c :: w)⟩, '\n' :: cs) := by
  rw [step_of_isWordChar (isWordChar_of_isDigit hc) fun d hd ↦ isWordChar_of_isDigit (hw d hd),
    isWordStart_of_isDigit hc, if_neg Bool.false_ne_true, takeWhile_append_stop cs hw (by decide),
    dropWhile_append_stop cs hw (by decide)]

/-! ## Quoted texts -/

/-- The contents of a text that is written between double quotes are the text. -/
theorem literal?_escapeChar (w cs : List Char) :
    literal? '\x22' (w.flatMap Token.escapeChar ++ '\x22' :: cs) = some (w, cs) := by
  induction w with
  | nil => exact literal?_quote rfl cs
  | cons c w ih =>
    rw [List.flatMap_cons, List.append_assoc, Token.escapeChar]
    by_cases hslash : c = '\\'
    · rw [if_pos hslash, hslash]
      show literal? '\x22' ('\\' :: '\\' :: (w.flatMap Token.escapeChar ++ '\x22' :: cs)) = _
      rw [literal?_escape (by decide) rfl, ih]
      rfl
    by_cases hquote : c = '\x22'
    · rw [if_neg hslash, if_pos hquote, hquote]
      show literal? '\x22' ('\\' :: '\x22' :: (w.flatMap Token.escapeChar ++ '\x22' :: cs)) = _
      rw [literal?_escape (by decide) rfl, ih]
      rfl
    · rw [if_neg hslash, if_neg hquote]
      show literal? '\x22' (c :: (w.flatMap Token.escapeChar ++ '\x22' :: cs)) = _
      rw [literal?_plain hquote hslash, ih]
      rfl

theorem step_quoted (w cs : List Char) :
    step '\x22' (w.flatMap Token.escapeChar ++ '\x22' :: cs) =
      .ok (some ⟨.string, String.ofList w⟩, cs) := by
  have hblank : ¬isBlank '\x22' = true := by decide
  have hslash : '\x22' ≠ '/' := by decide
  have hquote : isQuote '\x22' = true := by decide
  rw [step, char_char, if_neg hblank, decide_eq_false hslash, Bool.false_and,
    if_neg Bool.false_ne_true, Bool.false_and, if_neg Bool.false_ne_true, if_pos hquote,
    literal?_escapeChar]
  rfl

/-! ## Fixed spellings -/

/-- A step from the start of the spelling of a kind reads a token of that kind. -/
theorem step_spelling {kind : Kind} {spelling : String} (h : kind.spelling? = some spelling)
    (cs : List Char) :
    ∃ c w, spelling.toList = c :: w ∧
      step c (w ++ '\n' :: cs) = .ok (some ⟨kind, spelling⟩, '\n' :: cs) := by
  cases kind with
  | ident | integer | string => cases h
  | delimiter d => cases h; cases d <;> exact ⟨_, _, rfl, rfl⟩
  | operator o => cases h; cases o <;> exact ⟨_, _, rfl, rfl⟩
  | keyword k => cases h; cases k <;> exact ⟨_, _, rfl, rfl⟩

/-- A word that is not reserved is a name. -/
theorem wordToken_of_isIdentifier {word : String} (h : isIdentifier word = true) :
    wordToken word = ⟨.ident, word⟩ := by
  have hword : keyword? word = none := by
    rw [isIdentifier, Bool.and_eq_true] at h
    refine List.find?_eq_none.mpr fun k hk ↦ ?_
    have hmem : k.spelling ∈ reservedWords := by
      revert hk k
      decide
    intro he
    rw [of_decide_eq_true he] at hmem
    simp [hmem] at h
  rw [wordToken, hword]

/-! ## One token and many -/

/-- A step from the start of a written token reads the token and leaves its line feed. -/
theorem step_source {token : Token} (h : token.isLexable = true) (cs : List Char) :
    ∃ c w, token.source.toList = c :: w ∧
      step c (w ++ '\n' :: cs) = .ok (some token, '\n' :: cs) := by
  obtain ⟨kind, text⟩ := token
  have hspelling (h : kind.spelling? = some text) (hs : Token.source ⟨kind, text⟩ = text) :
      ∃ c w, (Token.source ⟨kind, text⟩).toList = c :: w ∧
        step c (w ++ '\n' :: cs) = .ok (some ⟨kind, text⟩, '\n' :: cs) := by
    rw [hs]
    exact step_spelling h cs
  cases kind with
  | ident =>
    obtain ⟨hname, -⟩ := Bool.and_eq_true_iff.mp (show isIdentifier text = true from h)
    rw [isName] at hname
    split at hname
    · cases hname
    · next c w hw =>
      rw [Bool.and_eq_true, List.all_eq_true] at hname
      refine ⟨c, w, hw, ?_⟩
      rw [step_word hname.1 hname.2, ← hw, String.ofList_toList, wordToken_of_isIdentifier h]
  | integer =>
    have hdigits : isDigits text = true := h
    rw [isDigits, Bool.and_eq_true, List.all_eq_true] at hdigits
    obtain ⟨c, w, hw⟩ : ∃ c w, text.toList = c :: w := by
      cases ht : text.toList with
      | nil => simp [ht] at hdigits
      | cons c w => exact ⟨c, w, rfl⟩
    rw [hw] at hdigits
    obtain ⟨hc, hd⟩ := List.forall_mem_cons.mp hdigits.2
    refine ⟨c, w, hw, ?_⟩
    rw [step_number hc hd, ← hw, String.ofList_toList]
  | string =>
    refine ⟨'\x22', text.toList.flatMap Token.escapeChar ++ ['\x22'],
      String.toList_ofList .., ?_⟩
    rw [List.append_assoc, List.singleton_append, step_quoted, String.ofList_toList]
  | delimiter d => exact hspelling (of_decide_eq_true h) rfl
  | operator o => exact hspelling (of_decide_eq_true h) rfl
  | keyword k => exact hspelling (of_decide_eq_true h) rfl

theorem scan_lineFeed (cs : List Char) : scan ('\n' :: cs) = scan cs := by
  rw [scan_cons]
  show (scan cs).map ([] ++ ·) = scan cs
  cases scan cs <;> rfl

/-- Scanning a written token gives the token and what the rest gives. -/
theorem scan_source {token : Token} (h : token.isLexable = true) (cs : List Char) :
    scan (token.source.toList ++ '\n' :: cs) = (scan cs).map (token :: ·) := by
  obtain ⟨c, w, hsource, hstep⟩ := step_source h cs
  rw [hsource, List.cons_append, scan_cons, hstep]
  show (scan ('\n' :: cs)).map (token :: ·) = _
  rw [scan_lineFeed]

end Scan

/-- **Written tokens are read back.** -/
theorem tokenize_render {tokens : List Token} (h : ∀ token ∈ tokens, token.isLexable = true) :
    tokenize (render tokens) = .ok tokens := by
  rw [tokenize_eq_scan, render, String.toList_ofList]
  induction tokens with
  | nil => rw [List.flatMap_nil, Scan.scan]
  | cons token tokens ih =>
    obtain ⟨htoken, htokens⟩ := List.forall_mem_cons.mp h
    rw [List.flatMap_cons, List.append_assoc, List.singleton_append, Scan.scan_source htoken,
      ih htokens]
    rfl

end JPlusPlus
