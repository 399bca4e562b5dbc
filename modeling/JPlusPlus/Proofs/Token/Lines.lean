import JPlusPlus.Proofs.Token.Lexable

/-!
# Sources put together from lines

A rule of scanning looks ahead: at the next unit for marks of two characters and for the start of a
comment, at the rest of a keyword of two words and one unit past it, at what comes up to the end of
a string or a comment. A line feed ends all of this. It goes on with no word, number, mark or
keyword, so a rule that meets a line feed where the source would have ended decides the same.

Two things run over line feeds. A string that does not end is a fault already, and a comment that
does not end takes everything after it. Where the scan of a source comes to neither, putting another
source on the lines after it changes nothing for the first, and the scan of the other one starts
afresh.

## Main statements

* `Scan.step_append`: a step does the same with another line after the units.
* `Scan.scan_append`: so does a scan, which then goes on with the other line.
-/

namespace JPlusPlus

namespace Scan

open SourceUnit

variable {α : Type} [SourceUnit α]

/-! ## Comments that do not end -/

/-- The units have `*/` in them. -/
def Closes (us : List α) : Prop :=
  ∃ star slash rest, star :: slash :: rest <:+ us ∧ char star = '*' ∧ char slash = '/'

/-- The scan of the units comes to a comment that does not end. -/
def OpensComment (us : List α) : Prop :=
  ∃ u here, Reaches us (u :: here) ∧ char u = '/' ∧ nextIs '*' here = true ∧ ¬Closes here.tail

theorem not_opensComment_nil : ¬OpensComment ([] : List α) := by
  rintro ⟨u, here, hreach, -⟩
  exact absurd (List.suffix_nil.mp hreach.isSuffix) (List.cons_ne_nil u here)

/-- A scan goes on from where its first step leaves it. -/
theorem Reaches.of_step {u : α} {us rest here : List α} {token : Option Token}
    (hstep : step u us = .ok (token, rest)) (h : Reaches rest here) : Reaches (u :: us) here := by
  induction h with
  | start => exact .next .start hstep
  | next _ hnext ih => exact .next ih hnext

theorem Reaches.eq_or_of_step {us here : List α} (h : Reaches us here) :
    here = us ∨ ∃ u more token rest, us = u :: more ∧ step u more = .ok (token, rest) ∧
      Reaches rest here := by
  induction h with
  | start => exact .inl rfl
  | @next u here rest token _ hstep ih =>
    rcases ih with rfl | ⟨w, more, first, mid, rfl, hfirst, hmid⟩
    · exact .inr ⟨u, here, token, rest, rfl, hstep, .start⟩
    · exact .inr ⟨w, more, first, mid, rfl, hfirst, .next hmid hstep⟩

/-- A comment that does not end starts here, or the scan comes to it after a step. -/
theorem opensComment_cons {u : α} {us : List α} :
    OpensComment (u :: us) ↔ (char u = '/' ∧ nextIs '*' us = true ∧ ¬Closes us.tail) ∨
      ∃ token rest, step u us = .ok (token, rest) ∧ OpensComment rest := by
  constructor
  · rintro ⟨w, here, hreach, hopens⟩
    rcases hreach.eq_or_of_step with heq | ⟨u', us', token, rest, heq, hstep, hrest⟩
    · obtain ⟨rfl, rfl⟩ := List.cons.inj heq
      exact .inl hopens
    · obtain ⟨rfl, rfl⟩ := List.cons.inj heq
      exact .inr ⟨token, rest, hstep, w, here, hrest, hopens⟩
  · rintro (hopens | ⟨token, rest, hstep, w, here, hreach, hopens⟩)
    · exact ⟨u, us, .start, hopens⟩
    · exact ⟨w, here, .of_step hstep hreach, hopens⟩

/-- Where no comment goes without an end, the one that starts here has one. -/
theorem closes_of_not_opensComment {u : α} {us : List α} (h : ¬OpensComment (u :: us))
    (hslash : char u = '/') (hstar : nextIs '*' us = true) : Closes us.tail :=
  Classical.byContradiction fun hopen ↦ h (opensComment_cons.mpr (.inl ⟨hslash, hstar, hopen⟩))

theorem afterComment_eq_nil {us : List α} (h : ¬Closes us) : afterComment us = [] := by
  induction us with
  | nil => rfl
  | cons u us ih =>
    have hus : ¬Closes us := fun ⟨star, slash, rest, hsuffix, hmarks⟩ ↦
      h ⟨star, slash, rest, hsuffix.trans (List.suffix_cons u us), hmarks⟩
    rw [afterComment_cons, if_neg, ih hus]
    rintro ⟨hstar, hslash⟩
    cases us with
    | nil => cases hslash
    | cons w us => exact h ⟨u, w, us, List.suffix_refl _, hstar, of_decide_eq_true hslash⟩

theorem step_comment {u : α} {us : List α} (hslash : char u = '/') (hstar : nextIs '*' us = true) :
    step u us = .ok (none, afterComment us.tail) := by
  have hblank : ¬isBlank '/' = true := by decide
  have hnext : nextIs '/' us = false := by
    cases us with
    | nil => cases hstar
    | cons w us =>
      have hw : char w = '*' := of_decide_eq_true hstar
      exact decide_eq_false (by rw [hw]; decide)
  rw [step, hslash, if_neg hblank, hnext, Bool.and_false, if_neg Bool.false_ne_true, hstar]
  rfl

theorem step_of_isQuote {u : α} {us : List α} (h : isQuote (char u) = true) :
    step u us = (literal? (char u) us).elim (.error .unclosedString)
      fun r ↦ .ok (some ⟨.string, text r.1⟩, r.2) := by
  have hc : ¬isBlank (char u) = true ∧ char u ≠ '/' := by
    simp only [isQuote, Bool.or_eq_true, decide_eq_true_eq] at h
    rcases h with hc | hc <;> rw [hc] <;> decide
  rw [step, if_neg hc.1, decide_eq_false hc.2, Bool.false_and, if_neg Bool.false_ne_true,
    Bool.false_and, if_neg Bool.false_ne_true, if_pos h]
  cases literal? (char u) us <;> rfl

/-- A comment that does not end keeps the scan from all faults after it. -/
theorem OpensComment.exists_scan {us : List α} (h : OpensComment us) :
    ∃ tokens, scan us = .ok tokens := by
  obtain ⟨u, here, hreach, hslash, hstar, hopen⟩ := h
  have hend : ∃ tokens, scan (u :: here) = .ok tokens := by
    refine ⟨[], ?_⟩
    rw [scan_cons, step_comment hslash hstar, afterComment_eq_nil hopen]
    show (scan ([] : List α)).map _ = _
    rw [scan]
    rfl
  generalize u :: here = rest at hreach hend
  induction hreach with
  | start => exact hend
  | @next w before rest token _ hstep ih =>
    refine ih ?_
    obtain ⟨tokens, hscan⟩ := hend
    refine ⟨token.toList ++ tokens, ?_⟩
    rw [scan_cons, hstep]
    show (scan rest).map _ = _
    rw [hscan]
    rfl

/-! ## What a line feed ends

From here on a line feed stands after the units, and then any other units. -/

theorem tail_append_of_nextIs {c : Char} {us : List α} (h : nextIs c us = true) (more : List α) :
    (us ++ more).tail = us.tail ++ more := by
  cases us with
  | nil => cases h
  | cons u us => rfl

/-- A quoted text that ends goes no further than its end. -/
theorem literal?_append_of_some {quote : Char} {us contents rest : List α}
    (h : literal? quote us = some (contents, rest)) (more : List α) :
    literal? quote (us ++ more) = some (contents, rest ++ more) := by
  fun_induction literal? quote us generalizing contents with
  | case1 | case3 => cases h
  | case2 u us hu =>
    cases h
    exact literal?_quote hu _
  | case4 u hu hescape w ws ih =>
    obtain ⟨⟨contents, rest⟩, hw, he⟩ := Option.map_eq_some_iff.mp h
    cases he
    rw [List.cons_append, List.cons_append, literal?_escape hu hescape, ih hw]
    rfl
  | case5 u us hu hescape ih =>
    obtain ⟨⟨contents, rest⟩, hus, he⟩ := Option.map_eq_some_iff.mp h
    cases he
    rw [List.cons_append, literal?_plain hu hescape, ih hus]
    rfl

section

variable {feed : α} (hfeed : char feed = '\n') (more : List α)

include hfeed

theorem nextIs_append {c : Char} (hc : c ≠ '\n') (us : List α) :
    nextIs c (us ++ feed :: more) = nextIs c us := by
  cases us with
  | nil => exact decide_eq_false (by rw [hfeed]; exact hc.symm)
  | cons u us => rfl

theorem dropWhile_append_feed {p : Char → Bool} (hp : p '\n' = false) (us : List α) :
    (us ++ feed :: more).dropWhile (fun u ↦ p (char u)) =
      us.dropWhile (fun u ↦ p (char u)) ++ feed :: more := by
  induction us with
  | nil => exact List.dropWhile_cons_of_neg (by simp [hfeed, hp])
  | cons u us ih =>
    rw [List.cons_append, List.dropWhile_cons, List.dropWhile_cons, ih]
    split <;> rfl

theorem takeWhile_append_feed {p : Char → Bool} (hp : p '\n' = false) (us : List α) :
    (us ++ feed :: more).takeWhile (fun u ↦ p (char u)) = us.takeWhile fun u ↦ p (char u) := by
  induction us with
  | nil => exact List.takeWhile_cons_of_neg (by simp [hfeed, hp])
  | cons u us ih => rw [List.cons_append, List.takeWhile_cons, List.takeWhile_cons, ih]

theorem afterLine_append_feed (us : List α) :
    afterLine (us ++ feed :: more) = afterLine us ++ feed :: more :=
  dropWhile_append_feed hfeed more (p := fun c ↦ c ≠ '\n') (by decide) us

theorem afterComment_append_feed {us : List α} (h : Closes us) :
    afterComment (us ++ feed :: more) = afterComment us ++ feed :: more := by
  induction us with
  | nil =>
    obtain ⟨star, slash, rest, hsuffix, -⟩ := h
    cases List.suffix_nil.mp hsuffix
  | cons u us ih =>
    rw [List.cons_append, afterComment_cons, afterComment_cons,
      nextIs_append hfeed more (by decide)]
    split
    · next hclose => exact tail_append_of_nextIs hclose.2 _
    · next hgo =>
      refine ih ?_
      obtain ⟨star, slash, rest, hsuffix, hstar, hslash⟩ := h
      rcases List.suffix_cons_iff.mp hsuffix with heq | hsuffix
      · obtain ⟨rfl, rfl⟩ := List.cons.inj heq
        exact absurd ⟨hstar, decide_eq_true hslash⟩ hgo
      · exact ⟨star, slash, rest, hsuffix, hstar, hslash⟩

theorem afterWord?_append {word : List Char} (hword : '\n' ∉ word) (us : List α) :
    afterWord? word (us ++ feed :: more) = (afterWord? word us).map (· ++ feed :: more) := by
  induction word generalizing us with
  | nil => rfl
  | cons c word ih =>
    rw [List.mem_cons, not_or] at hword
    obtain ⟨hc, hword⟩ := hword
    cases us with
    | nil => exact if_neg (by rwa [hfeed])
    | cons u us =>
      rw [List.cons_append, afterWord?, afterWord?]
      split
      · exact ih hword us
      · rfl

theorem atWordEnd_append (us : List α) : atWordEnd (us ++ feed :: more) = atWordEnd us := by
  cases us with
  | nil =>
    have hend : isWordChar '\n' = false := by decide
    simp [atWordEnd, hfeed, hend]
  | cons u us => rfl

theorem phrase?_append (us : List α) :
    phrase? (us ++ feed :: more) = (phrase? us).map fun r ↦ (r.1, r.2 ++ feed :: more) := by
  rw [phrase?, phrase?, afterWord?_append hfeed more (by decide),
    afterWord?_append hfeed more (by decide)]
  cases afterWord? Keyword.nahiAgar.spelling.toList us with
  | some rest => rfl
  | none =>
    cases afterWord? Keyword.keLiye.spelling.toList us with
    | none => rfl
    | some rest =>
      simp only [Option.map_none, Option.map_some, atWordEnd_append hfeed more]
      split <;> rfl

/-- **A line feed leaves a step as it is**, but for a comment or a string that would run over it. -/
theorem step_append {u : α} {us : List α}
    (hcomment : char u = '/' → nextIs '*' us = true → Closes us.tail)
    (hstring : step u us ≠ .error .unclosedString) :
    step u (us ++ feed :: more) = (step u us).map fun r ↦ (r.1, r.2 ++ feed :: more) := by
  by_cases h₁ : isQuote (char u) = true
  · rw [step_of_isQuote h₁] at hstring
    rw [step_of_isQuote h₁, step_of_isQuote h₁]
    cases hliteral : literal? (char u) us with
    | none =>
      rw [hliteral] at hstring
      exact absurd rfl hstring
    | some r =>
      rw [literal?_append_of_some hliteral]
      rfl
  clear hstring
  unfold step
  simp only [nextIs_append hfeed more (c := '/') (by decide),
    nextIs_append hfeed more (c := '*') (by decide),
    nextIs_append hfeed more (c := '.') (by decide),
    nextIs_append hfeed more (c := '=') (by decide), ← List.cons_append,
    phrase?_append hfeed more]
  -- Now both sides try the same rules on the same unit, in the order of `step`.
  by_cases h₂ : isBlank (char u) = true
  · rw [if_pos h₂, if_pos h₂]
    rfl
  rw [if_neg h₂, if_neg h₂]
  by_cases h₃ : (decide (char u = '/') && nextIs '/' us) = true
  · rw [if_pos h₃, if_pos h₃, afterLine_append_feed hfeed]
    rfl
  rw [if_neg h₃, if_neg h₃]
  by_cases h₄ : (decide (char u = '/') && nextIs '*' us) = true
  · obtain ⟨hslash, hstar⟩ := Bool.and_eq_true_iff.mp h₄
    have hcloses := hcomment (of_decide_eq_true hslash) hstar
    rw [if_pos h₄, if_pos h₄, tail_append_of_nextIs hstar,
      afterComment_append_feed hfeed more hcloses]
    rfl
  rw [if_neg h₄, if_neg h₄, if_neg h₁, if_neg h₁]
  cases phrase? (u :: us) with
  | some r => rfl
  | none =>
    simp only [Option.map_none]
    by_cases h₅ : isWordStart (char u) = true
    · rw [if_pos h₅, if_pos h₅, takeWhile_append_feed hfeed more (by decide),
        dropWhile_append_feed hfeed more (by decide)]
      rfl
    rw [if_neg h₅, if_neg h₅]
    by_cases h₆ : (char u).isDigit = true
    · rw [if_pos h₆, if_pos h₆, takeWhile_append_feed hfeed more (p := Char.isDigit) (by decide),
        dropWhile_append_feed hfeed more (p := Char.isDigit) (by decide)]
      rfl
    rw [if_neg h₆, if_neg h₆]
    by_cases h₇ : char u = '.'
    · rw [if_pos h₇, if_pos h₇]
      cases nextIs '.' us <;> rfl
    rw [if_neg h₇, if_neg h₇]
    cases pair? (char u) with
    | none => rfl
    | some pair =>
      by_cases h₈ : nextIs '=' us = true
      · simp only [if_pos h₈, tail_append_of_nextIs h₈]
        rfl
      · simp only [if_neg h₈]
        rfl

/-! ## Whole scans -/

theorem scan_feed : scan (feed :: more) = scan more := by
  have hstep : step feed more = .ok (none, more) := by
    rw [step, hfeed]
    rfl
  rw [scan_cons, hstep]
  show (scan more).map ([] ++ ·) = scan more
  cases scan more <;> rfl

/-- **Scanning goes on afresh after a line feed**, when no comment runs over it. A fault before the
line feed stays the fault, unless it is that a string runs to the end. -/
theorem scan_append (us : List α) (hopens : ¬OpensComment us)
    (hstring : scan us ≠ .error .unclosedString) :
    scan (us ++ feed :: more) = scan us >>= fun tokens ↦ (scan more).map (tokens ++ ·) := by
  induction us using scan.induct with
  | case1 =>
    rw [List.nil_append, scan_feed hfeed, scan]
    show scan more = (scan more).map ([] ++ ·)
    cases scan more <;> rfl
  | case2 u us fault hstep =>
    rw [scan_cons, hstep] at hstring
    have hfault : step u us ≠ .error .unclosedString := by
      rw [hstep]
      exact fun he ↦ hstring (by cases he; rfl)
    rw [List.cons_append, scan_cons, scan_cons,
      step_append hfeed more (closes_of_not_opensComment hopens) hfault, hstep]
    rfl
  | case3 u us token rest hstep ih =>
    rw [scan_cons, hstep] at hstring
    have hrest : scan rest ≠ .error .unclosedString := fun he ↦
      hstring (congrArg (Except.map (token.toList ++ ·)) he)
    have hlater : ¬OpensComment rest := fun h ↦
      hopens (opensComment_cons.mpr (.inr ⟨token, rest, hstep, h⟩))
    rw [List.cons_append, scan_cons, scan_cons,
      step_append hfeed more (closes_of_not_opensComment hopens) (by simp [hstep]), hstep]
    show (scan (rest ++ feed :: more)).map (token.toList ++ ·) =
      (scan rest).map (token.toList ++ ·) >>= _
    rw [ih hlater hrest]
    cases scan rest with
    | error fault => rfl
    | ok tokens =>
      show ((scan more).map (tokens ++ ·)).map (token.toList ++ ·) =
        (scan more).map (token.toList ++ tokens ++ ·)
      cases scan more with
      | error fault => rfl
      | ok later => simp [Except.map]

end

end Scan

/-! ## Sources -/

theorem Utf8.bytes_append (s t : String) : bytes (s ++ t) = bytes s ++ bytes t := by
  rw [bytes_eq_encode, bytes_eq_encode, bytes_eq_encode, String.toList_append, encode, encode,
    encode, List.flatMap_append]

theorem tokenize_append_feed {s : String} (hopens : ¬Scan.OpensComment (Utf8.bytes s))
    (hstring : tokenize s ≠ .error .unclosedString) (t : String) :
    tokenize (s ++ "\n" ++ t) = tokenize s >>= fun tokens ↦ (tokenize t).map (tokens ++ ·) := by
  have hbytes : Utf8.bytes (s ++ "\n" ++ t) = Utf8.bytes s ++ 10 :: Utf8.bytes t := by
    rw [Utf8.bytes_append, Utf8.bytes_append, List.append_assoc]
    rfl
  rw [tokenize, hbytes]
  exact Scan.scan_append rfl (Utf8.bytes t) (Utf8.bytes s) hopens hstring

/-- **Sources may be scanned part by part at line feeds.** When a source has tokens and its scan
does not come to a comment without an end, then with another source on the lines after it the
tokens are followed by those of the other source, and a fault of the other source is the fault of
both. When a source has the mark `..` in it, so does the source with anything on the lines after
it. -/
theorem tokenize_append_line (s t : String) :
    (∀ tokens, tokenize s = .ok tokens → ¬Scan.OpensComment (Utf8.bytes s) →
      (∀ more, tokenize t = .ok more → tokenize (s ++ "\n" ++ t) = .ok (tokens ++ more)) ∧
        ∀ fault, tokenize t = .error fault → tokenize (s ++ "\n" ++ t) = .error fault) ∧
      (tokenize s = .error .doubleDot → tokenize (s ++ "\n" ++ t) = .error .doubleDot) := by
  constructor
  · intro tokens hs hopens
    have happend := tokenize_append_feed hopens (by simp [hs]) t
    rw [hs] at happend
    constructor
    · intro more ht
      rw [happend, ht]
      rfl
    · intro fault ht
      rw [happend, ht]
      rfl
  · intro hs
    have hopens : ¬Scan.OpensComment (Utf8.bytes s) := by
      intro h
      obtain ⟨tokens, hscan⟩ := h.exists_scan
      cases hs.symm.trans hscan
    rw [tokenize_append_feed hopens (by simp [hs]) t, hs]
    rfl

/-- A slash and a star on two lines open no comment, and what would open one after `..` changes
nothing. -/
theorem tokenize_append_line_slash :
    tokenize "/" = .ok [Operator.slash.token] ∧ ¬Scan.OpensComment (Utf8.bytes "/") ∧
      tokenize "*" = .ok [Operator.star.token] ∧
      tokenize "/\n*" = .ok [Operator.slash.token, Operator.star.token] ∧
      tokenize ".." = .error .doubleDot ∧ tokenize "..\n/*" = .error .doubleDot := by
  have hmark {c : Char} {token : Token} (h : Scan.step c [] = .ok (some token, [])) :
      Scan.scan [c] = .ok [token] :=
    Scan.scan_cons_eq_ok.mpr ⟨some token, [], [], h, by rw [Scan.scan], rfl⟩
  have hslash : tokenize "/" = .ok [Operator.slash.token] := by
    rw [tokenize_eq_scan]
    exact hmark rfl
  have hstar : tokenize "*" = .ok [Operator.star.token] := by
    rw [tokenize_eq_scan]
    exact hmark rfl
  have hdots : tokenize ".." = .error .doubleDot := by
    rw [tokenize_eq_scan, show "..".toList = ['.', '.'] from rfl, Scan.scan_cons]
    rfl
  have hopens : ¬Scan.OpensComment (Utf8.bytes "/") := by
    intro h
    rcases Scan.opensComment_cons.mp h with ⟨-, hnext, -⟩ | ⟨token, rest, hstep, hrest⟩
    · cases hnext
    · cases hstep
      exact Scan.not_opensComment_nil hrest
  exact ⟨hslash, hopens, hstar, ((tokenize_append_line "/" "*").1 _ hslash hopens).1 _ hstar, hdots,
    (tokenize_append_line ".." "/*").2 hdots⟩

end JPlusPlus
