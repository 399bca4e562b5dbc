import JPlusPlus.Proofs.Token.Slices

/-!
# The tokens that scans give

Every token that a scan gives has the form that its kind asks for: a name is a name and no keyword,
a number is a run of digits, and a token of a fixed kind is spelled as its kind is, whatever the
source had between the two words of a keyword or around it. These are the tokens that can be written
as source and read back, so the tokens of any source are the tokens of a source that writes them one
on each line.
-/

namespace JPlusPlus

namespace Scan

/-! ## One token -/

/-- A reserved word is the spelling of a keyword. -/
theorem not_mem_reservedWords {word : String} (h : keyword? word = none) :
    word ∉ reservedWords := by
  intro hmem
  have hall : ∀ w ∈ reservedWords, (keyword? w).isSome = true := by decide
  have hsome : (keyword? word).isSome = true := hall word hmem
  rw [h] at hsome
  exact absurd hsome Bool.false_ne_true

theorem isLexable_wordToken {c : Char} {w : List Char} (hc : isWordStart c = true)
    (hw : ∀ d ∈ w, isWordChar d = true) :
    (wordToken (String.ofList (c :: w))).isLexable = true := by
  have hname : isName (String.ofList (c :: w)) = true := by
    rw [isName, String.toList_ofList]
    exact Bool.and_eq_true_iff.mpr ⟨hc, List.all_eq_true.mpr hw⟩
  rw [wordToken]
  split
  · next k _ => exact k.isLexable_token
  · next hword =>
    have hfree : reservedWords.contains (String.ofList (c :: w)) = false := by
      simpa using not_mem_reservedWords hword
    show isIdentifier (String.ofList (c :: w)) = true
    rw [isIdentifier, hname, hfree]
    rfl

theorem isLexable_number {c : Char} {w : List Char} (hc : c.isDigit = true)
    (hw : ∀ d ∈ w, d.isDigit = true) :
    Token.isLexable ⟨.integer, String.ofList (c :: w)⟩ = true := by
  show isDigits (String.ofList (c :: w)) = true
  rw [isDigits, String.toList_ofList, List.isEmpty_cons, Bool.not_false, Bool.true_and]
  exact List.all_eq_true.mpr (List.forall_mem_cons.mpr ⟨hc, hw⟩)

theorem isLexable_of_mark? {c : Char} {token : Token} (h : mark? c = some token) :
    token.isLexable = true := by
  have hkind : (∃ o : Operator, token = o.token) ∨ ∃ d : Delimiter, token = d.token := by
    rw [mark?] at h
    repeat' split at h
    all_goals
      cases h <;> first | exact .inl ⟨_, rfl⟩ | exact .inr ⟨_, rfl⟩
  rcases hkind with ⟨o, rfl⟩ | ⟨d, rfl⟩
  · exact o.isLexable_token
  · exact d.isLexable_token

/-- A step over characters gives a token of the form that its kind asks for. -/
theorem isLexable_of_step {c : Char} {cs rest : List Char} {token : Token}
    (h : step c cs = .ok (some token, rest)) : token.isLexable = true := by
  have hspan (p : Char → Bool) : ∀ d ∈ cs.takeWhile p, p d = true :=
    List.all_eq_true.mp List.all_takeWhile
  generalize hresult : some token = result at h
  cases takes_of_step h with
  | blank | line | comment => cases hresult
  | literal => cases hresult; rfl
  | @phrase k => cases hresult; exact k.isLexable_token
  | word _ hstart => cases hresult; exact isLexable_wordToken hstart (hspan _)
  | number hdigit => cases hresult; exact isLexable_number hdigit (hspan _)
  | dot => cases hresult; rfl
  | @long _ o => cases hresult; exact o.isLexable_token
  | @short o _ => cases hresult; exact o.isLexable_token
  | mark => exact isLexable_of_mark? hresult.symm

/-! ## All tokens of a source -/

theorem scan_cons_eq_ok {c : Char} {cs : List Char} {tokens : List Token} :
    scan (c :: cs) = .ok tokens ↔ ∃ first rest more, step c cs = .ok (first, rest) ∧
      scan rest = .ok more ∧ tokens = first.toList ++ more := by
  rw [scan_cons]
  constructor
  · intro h
    rcases hstep : step c cs with fault | ⟨first, rest⟩
    · rw [hstep] at h
      cases h
    · rw [hstep] at h
      change (scan rest).map (first.toList ++ ·) = .ok tokens at h
      rcases hrest : scan rest with fault | more
      · rw [hrest] at h
        cases h
      · rw [hrest] at h
        cases h
        exact ⟨first, rest, more, rfl, hrest, rfl⟩
  · rintro ⟨first, rest, more, hstep, hrest, rfl⟩
    rw [hstep]
    show (scan rest).map (first.toList ++ ·) = _
    rw [hrest]
    rfl

/-- A scan over characters gives tokens of the form that their kinds ask for. -/
theorem isLexable_of_scan {cs : List Char} {tokens : List Token} (h : scan cs = .ok tokens) :
    ∀ token ∈ tokens, token.isLexable = true := by
  induction hn : cs.length using Nat.strongRecOn generalizing cs tokens with
  | ind n ih =>
    cases cs with
    | nil =>
      rw [scan] at h
      cases h
      exact List.forall_mem_nil _
    | cons c cs =>
      obtain ⟨first, rest, more, hstep, hrest, rfl⟩ := scan_cons_eq_ok.mp h
      have hshort : rest.length < n := by
        have hle := step_length_le hstep
        rw [List.length_cons] at hn
        omega
      intro token hmem
      rcases List.mem_append.mp hmem with hfirst | hmore
      · rw [Option.mem_toList] at hfirst
        subst hfirst
        exact isLexable_of_step hstep
      · exact ih _ hshort hrest rfl token hmore

end Scan

/-- The tokens of a source have the forms that their kinds ask for. -/
theorem isLexable_of_tokenize {source : String} {tokens : List Token}
    (h : tokenize source = .ok tokens) : ∀ token ∈ tokens, token.isLexable = true := by
  rw [tokenize_eq_scan] at h
  exact Scan.isLexable_of_scan h

/-- **Tokens go through text and back.** What a source gives can be written as source; what can be
written is read back as it was; and so scanning a source, writing its tokens and scanning again
gives the same tokens. -/
theorem tokenize_render_tokenize :
    (∀ source tokens, tokenize source = .ok tokens → ∀ token ∈ tokens, token.isLexable = true) ∧
      (∀ tokens : List Token, (∀ token ∈ tokens, token.isLexable = true) →
        tokenize (render tokens) = .ok tokens) ∧
      ∀ source tokens, tokenize source = .ok tokens → tokenize (render tokens) = .ok tokens := by
  refine ⟨fun _ _ h ↦ isLexable_of_tokenize h, fun _ h ↦ tokenize_render h, ?_⟩
  intro source tokens h
  exact tokenize_render (isLexable_of_tokenize h)

/-- Tokens that only the line feeds between them keep apart, and a string with a quotation mark, a
backslash, a line feed and what would open a comment. -/
theorem tokenize_render_tokenize_apart :
    let tokens : List Token := [⟨.ident, "ke"⟩, ⟨.ident, "liye"⟩, Keyword.nahi.token,
      Keyword.agar.token, Operator.slash.token, Operator.star.token, Operator.dot.token,
      Operator.dot.token, Operator.assign.token, Operator.assign.token, ⟨.integer, "007"⟩,
      ⟨.integer, "1"⟩, ⟨.string, "\x22\\\n/*"⟩]
    (∀ token ∈ tokens, token.isLexable = true) ∧ tokenize (render tokens) = .ok tokens := by
  intro tokens
  have hlexable : ∀ token ∈ tokens, token.isLexable = true := by decide
  exact ⟨hlexable, tokenize_render_tokenize.2.1 tokens hlexable⟩

end JPlusPlus
