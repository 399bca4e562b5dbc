import JPlusPlus.Proofs.Token.Render

/-!
# What a token is read from

The scan of a source goes byte by byte and may come to stand inside of a character. It never reads a
token from there: where a step gives a token, the bytes it takes are those of whole characters of
the source. So a token other than a string is the very text it was read from, and the bytes that are
gathered for a string spell a text, in which nothing has to be replaced.

The reason is that a scan of bytes goes along with the scan of the characters. Either it stands
where the other one does, or it is behind by some bytes of one character, and then those bytes are
outside of ASCII and are passed over.

The main statement says this of every source: the tokens and faults are those of its characters, and
every token is read from whole characters. What a quoted text says is said by its characters too, in
`Scan.Spells`.
-/

namespace JPlusPlus

namespace Utf8

theorem bytes_ofList (cs : List Char) : bytes (String.ofList cs) = encode cs := by
  rw [bytes_eq_encode, String.toList_ofList]

/-- The bytes of characters can be read strictly. -/
theorem strict?_encode (cs : List Char) : strict? (encode cs) = some (String.ofList cs) := by
  have hbytes : (encode cs).toByteArray = cs.utf8Encode := by
    rw [List.utf8Encode, encode]
  rw [strict?, hbytes, String.fromUTF8?, dif_pos ⟨cs, rfl⟩]
  rfl

end Utf8

namespace Scan

open SourceUnit
open Utf8 (encode encode_nil encode_cons)

/-! ## The points that a scan comes to -/

section Reaches

variable {α : Type} [SourceUnit α]

/-- The scan of the first units comes to stand before the second ones. -/
inductive Reaches (us : List α) : List α → Prop where
  /-- It starts before all of them. -/
  | start : Reaches us us
  /-- It goes on by steps. -/
  | next {u : α} {here rest : List α} {token : Option Token} :
      Reaches us (u :: here) → step u here = .ok (token, rest) → Reaches us rest

theorem afterComment_isSuffix (us : List α) : afterComment us <:+ us := by
  fun_induction afterComment us with
  | case1 u v us => exact List.suffix_append [u, v] us
  | case2 u v us _ ih => exact ih.trans (List.suffix_cons u _)
  | case3 => exact List.nil_suffix

theorem literal?_isSuffix {quote : Char} {us contents rest : List α}
    (h : literal? quote us = some (contents, rest)) : rest <:+ us := by
  fun_induction literal? quote us generalizing contents with
  | case1 | case3 => cases h
  | case2 u us =>
    cases h
    exact List.suffix_cons u _
  | case4 u _ _ v vs ih =>
    obtain ⟨⟨more, rest⟩, hmore, he⟩ := Option.map_eq_some_iff.mp h
    cases he
    exact (ih hmore).trans (List.suffix_append [u, v] vs)
  | case5 u us _ _ ih =>
    obtain ⟨⟨more, rest⟩, hmore, he⟩ := Option.map_eq_some_iff.mp h
    cases he
    exact (ih hmore).trans (List.suffix_cons u us)

theorem afterWord?_isSuffix {word : List Char} {us rest : List α}
    (h : afterWord? word us = some rest) : rest <:+ us := by
  fun_induction afterWord? word us with
  | case1 =>
    cases h
    exact List.suffix_refl _
  | case2 | case4 => cases h
  | case3 word u us ih => exact (ih h).trans (List.suffix_cons u us)

/-- A keyword of two words does not end before its first letter. -/
theorem phrase?_isSuffix {u : α} {us rest : List α} {k : Keyword}
    (h : phrase? (u :: us) = some (k, rest)) : rest <:+ us := by
  have hrest : rest <:+ u :: us := by
    rw [phrase?] at h
    split at h
    · next hword =>
      cases h
      exact afterWord?_isSuffix hword
    · split at h
      · next hword =>
        split at h
        · cases h
          exact afterWord?_isSuffix hword
        · cases h
      · cases h
  rcases List.suffix_cons_iff.mp hrest with rfl | hrest
  · exact absurd (phrase?_length_lt h) (Nat.lt_irrefl _)
  · exact hrest

/-- What a step that finds no fault can do, rule by rule. -/
inductive Takes (u : α) (us : List α) : Option Token → List α → Prop where
  | blank : isBlank (char u) = true → Takes u us none us
  | line : char u = '/' → nextIs '/' us = true → Takes u us none (afterLine us)
  | comment : char u = '/' → nextIs '*' us = true → Takes u us none (afterComment us.tail)
  | literal {contents rest : List α} : isQuote (char u) = true →
      literal? (char u) us = some (contents, rest) →
      Takes u us (some ⟨.string, text contents⟩) rest
  | phrase {k : Keyword} {rest : List α} : phrase? (u :: us) = some (k, rest) →
      Takes u us (some k.token) rest
  | word : phrase? (u :: us) = none → isWordStart (char u) = true →
      Takes u us (some (wordToken (text (u :: us.takeWhile fun v ↦ isWordChar (char v)))))
        (us.dropWhile fun v ↦ isWordChar (char v))
  | number : (char u).isDigit = true →
      Takes u us (some ⟨.integer, text (u :: us.takeWhile fun v ↦ (char v).isDigit)⟩)
        (us.dropWhile fun v ↦ (char v).isDigit)
  | dot : char u = '.' → Takes u us (some Operator.dot.token) us
  | long {short long : Operator} : pair? (char u) = some (short, long) → nextIs '=' us = true →
      Takes u us (some long.token) us.tail
  | short {short long : Operator} : pair? (char u) = some (short, long) →
      Takes u us (some short.token) us
  | mark : pair? (char u) = none → Takes u us (mark? (char u)) us

theorem takes_of_step {u : α} {us rest : List α} {token : Option Token}
    (h : step u us = .ok (token, rest)) : Takes u us token rest := by
  unfold step at h
  dsimp only at h
  split at h
  · next hblank => cases h; exact .blank hblank
  split at h
  · next hline =>
    rw [Bool.and_eq_true, decide_eq_true_eq] at hline
    cases h
    exact .line hline.1 hline.2
  split at h
  · next hcomment =>
    rw [Bool.and_eq_true, decide_eq_true_eq] at hcomment
    cases h
    exact .comment hcomment.1 hcomment.2
  split at h
  · next hquote =>
    split at h
    · next hliteral => cases h; exact .literal hquote hliteral
    · cases h
  split at h
  · next hphrase => cases h; exact .phrase hphrase
  next hphrase =>
  split at h
  · next hstart => cases h; exact .word hphrase hstart
  split at h
  · next hdigit => cases h; exact .number hdigit
  split at h
  · next hdot =>
    split at h
    · cases h
    · cases h; exact .dot hdot
  split at h
  · next hpair =>
    split at h
    · next hequals => cases h; exact .long hpair hequals
    · cases h; exact .short hpair
  · next hpair => cases h; exact .mark hpair

/-- A step leaves the last of the units after the one it starts at. -/
theorem step_isSuffix {u : α} {us rest : List α} {token : Option Token}
    (h : step u us = .ok (token, rest)) : rest <:+ us := by
  cases takes_of_step h with
  | blank | dot | short | mark => exact List.suffix_refl us
  | line | word | number => exact List.dropWhile_suffix _
  | comment => exact (afterComment_isSuffix us.tail).trans (List.tail_suffix us)
  | literal _ hliteral => exact literal?_isSuffix hliteral
  | phrase hphrase => exact phrase?_isSuffix hphrase
  | long => exact List.tail_suffix us

/-- However far a scan has come, what is left is an end of the source. -/
theorem Reaches.isSuffix {us rest : List α} (h : Reaches us rest) : rest <:+ us := by
  induction h with
  | start => exact List.suffix_refl us
  | @next u _ _ _ _ hstep ih => exact (step_isSuffix hstep).trans ((List.suffix_cons u _).trans ih)

end Reaches

/-- The scan of bytes is where that of the characters is, or some bytes outside of ASCII behind. -/
theorem Reaches.exists_encode {cs : List Char} {us : List UInt8} (h : Reaches (encode cs) us) :
    ∃ bs rest, us = bs ++ encode rest ∧ (∀ x ∈ bs, Outside x) ∧ Reaches cs rest := by
  induction h with
  | start => exact ⟨[], cs, rfl, by simp, .start⟩
  | @next u here rest token _ hstep ih =>
    obtain ⟨bs, chars, hus, hbs, hreach⟩ := ih
    cases bs with
    | cons b bs =>
      obtain ⟨rfl, rfl⟩ := List.cons.inj hus
      obtain ⟨hb, hmore⟩ := List.forall_mem_cons.mp hbs
      rw [step_of_outside hb] at hstep
      cases hstep
      exact ⟨bs, chars, rfl, hmore, hreach⟩
    | nil =>
      cases chars with
      | nil => cases hus
      | cons c chars =>
        rw [List.nil_append] at hus
        by_cases hc : c.toNat < 128
        · rw [encode_cons_of_lt hc] at hus
          obtain ⟨rfl, rfl⟩ := List.cons.inj hus
          rw [step_encode hc] at hstep
          cases hr : step c chars with
          | error fault => simp [hr, Except.map] at hstep
          | ok r =>
            rw [hr] at hstep
            cases hstep
            exact ⟨[], r.2, rfl, by simp, hreach.next hr⟩
        · -- The character is passed over as a whole, its bytes one by one.
          obtain ⟨b, bs, hchar, hb, hmore⟩ := exists_utf8EncodeChar hc
          rw [encode_cons, hchar, List.cons_append] at hus
          obtain ⟨rfl, rfl⟩ := List.cons.inj hus
          rw [step_of_outside hb] at hstep
          cases hstep
          have hpass : step c chars = .ok (none, chars) := step_of_outside (Nat.le_of_not_lt hc) _
          exact ⟨bs, chars, rfl, hmore, hreach.next hpass⟩

/-- Where the scan of bytes reads a token, the scan of the characters reads it too. -/
theorem Reaches.exists_step {cs : List Char} {b : UInt8} {bs rest : List UInt8} {token : Token}
    (h : Reaches (encode cs) (b :: bs)) (hstep : step b bs = .ok (some token, rest)) :
    ∃ c here after, c.toNat < 128 ∧ b :: bs = encode (c :: here) ∧ rest = encode after ∧
      Reaches cs (c :: here) ∧ step c here = .ok (some token, after) := by
  obtain ⟨behind, chars, hus, hout, hreach⟩ := h.exists_encode
  cases behind with
  | cons x behind =>
    obtain ⟨rfl, rfl⟩ := List.cons.inj hus
    rw [step_of_outside (hout b List.mem_cons_self)] at hstep
    cases hstep
  | nil =>
    rw [List.nil_append] at hus
    cases chars with
    | nil => cases hus
    | cons c chars =>
      by_cases hc : c.toNat < 128
      · refine ⟨c, chars, ?_⟩
        rw [encode_cons_of_lt hc] at hus
        obtain ⟨rfl, rfl⟩ := List.cons.inj hus
        rw [step_encode hc] at hstep
        cases hr : step c chars with
        | error fault => simp [hr, Except.map] at hstep
        | ok r =>
          obtain ⟨read, after⟩ := r
          rw [hr] at hstep
          cases hstep
          exact ⟨after, hc, (encode_cons_of_lt hc chars).symm, rfl, hreach, rfl⟩
      · obtain ⟨x, xs, hchar, hx, -⟩ := exists_utf8EncodeChar hc
        rw [encode_cons, hchar, List.cons_append] at hus
        obtain ⟨rfl, rfl⟩ := List.cons.inj hus
        rw [step_of_outside hx] at hstep
        cases hstep

/-! ## Quoted texts -/

/-- What the characters between two quotation marks say: a backslash and the character after it say
one character, and every other character says itself. -/
inductive Spells (quote : Char) : List Char → List Char → Prop where
  | nil : Spells quote [] []
  | plain {c : Char} {written contents : List Char} : c ≠ quote → c ≠ '\\' →
      Spells quote written contents → Spells quote (c :: written) (c :: contents)
  | escape {c : Char} {written contents : List Char} : Spells quote written contents →
      Spells quote ('\\' :: c :: written) (unescape c :: contents)

theorem Spells.of_literal? {quote : Char} {cs contents rest : List Char}
    (h : literal? quote cs = some (contents, rest)) :
    ∃ written, cs = written ++ quote :: rest ∧ Spells quote written contents := by
  fun_induction literal? quote cs generalizing contents with
  | case1 => cases h
  | case2 c cs hc =>
    cases h
    exact ⟨[], by rw [← hc]; rfl, .nil⟩
  | case3 => cases h
  | case4 c _ hescape d cs ih =>
    obtain ⟨⟨more, rest⟩, hmore, he⟩ := Option.map_eq_some_iff.mp h
    cases he
    obtain ⟨written, rfl, hspells⟩ := ih hmore
    obtain rfl : c = '\\' := hescape
    exact ⟨'\\' :: d :: written, rfl, .escape hspells⟩
  | case5 c cs hquote hescape ih =>
    obtain ⟨⟨more, rest⟩, hmore, he⟩ := Option.map_eq_some_iff.mp h
    cases he
    obtain ⟨written, rfl, hspells⟩ := ih hmore
    exact ⟨c :: written, rfl, .plain hquote hescape hspells⟩

/-! ## Other tokens -/

/-- The token is the very text of the characters. -/
structure Quotes (token : Token) (taken : List Char) : Prop where
  /-- The token is no string. -/
  kind : token.kind ≠ .string
  /-- The token says what the characters are. -/
  text : token.text = String.ofList taken

theorem quotes_keyword (k : Keyword) : Quotes k.token k.spelling.toList :=
  ⟨nofun, String.ofList_toList.symm⟩

theorem quotes_operator (o : Operator) : Quotes o.token o.spelling.toList :=
  ⟨nofun, String.ofList_toList.symm⟩

theorem quotes_delimiter (d : Delimiter) : Quotes d.token d.spelling.toList :=
  ⟨nofun, String.ofList_toList.symm⟩

theorem quotes_wordToken (taken : List Char) :
    Quotes (wordToken (String.ofList taken)) taken := by
  rw [wordToken]
  cases hk : keyword? (String.ofList taken) with
  | none => exact ⟨by simp, rfl⟩
  | some k =>
    have hspelling : k.spelling = String.ofList taken := by
      rw [keyword?] at hk
      simpa using List.find?_some hk
    exact ⟨(quotes_keyword k).kind, hspelling⟩

theorem Quotes.of_phrase? {us rest : List Char} {k : Keyword} (h : phrase? us = some (k, rest)) :
    ∃ taken, us = taken ++ rest ∧ Quotes k.token taken := by
  rw [phrase?] at h
  split at h
  · next hword =>
    cases h
    exact ⟨_, afterWord?_eq_some_iff.mp hword, quotes_keyword .nahiAgar⟩
  · split at h
    · next hword =>
      split at h
      · cases h
        exact ⟨_, afterWord?_eq_some_iff.mp hword, quotes_keyword .keLiye⟩
      · cases h
    · cases h

theorem quotes_of_pair? {c : Char} {short long : Operator} (h : pair? c = some (short, long)) :
    Quotes short.token [c] ∧ Quotes long.token [c, '='] := by
  rw [pair?] at h
  split at h
  · next hc => cases h; subst hc; exact ⟨quotes_operator .assign, quotes_operator .eqEq⟩
  split at h
  · next hc => cases h; subst hc; exact ⟨quotes_operator .bang, quotes_operator .notEq⟩
  split at h
  · next hc => cases h; subst hc; exact ⟨quotes_operator .less, quotes_operator .lessEq⟩
  split at h
  · next hc => cases h; subst hc; exact ⟨quotes_operator .greater, quotes_operator .greaterEq⟩
  · cases h

theorem Quotes.of_mark? {c : Char} {token : Token} (h : mark? c = some token) :
    Quotes token [c] := by
  rw [mark?] at h
  split at h
  · next hc => cases h; subst hc; exact quotes_operator .plus
  split at h
  · next hc => cases h; subst hc; exact quotes_operator .minus
  split at h
  · next hc => cases h; subst hc; exact quotes_operator .star
  split at h
  · next hc => cases h; subst hc; exact quotes_operator .slash
  split at h
  · next hc => cases h; subst hc; exact quotes_delimiter .lbrace
  split at h
  · next hc => cases h; subst hc; exact quotes_delimiter .rbrace
  split at h
  · next hc => cases h; subst hc; exact quotes_delimiter .lparen
  split at h
  · next hc => cases h; subst hc; exact quotes_delimiter .rparen
  · cases h

/-! ## One step -/

/-- A step over characters that gives a token reads it from the characters it passes: a string from
what its quotation marks enclose, and any other token as it stands. -/
theorem exists_taken_of_step {c : Char} {cs rest : List Char} {token : Token}
    (h : step c cs = .ok (some token, rest)) :
    (∃ taken, c :: cs = taken ++ rest ∧ Quotes token taken) ∨
      ∃ contents, isQuote c = true ∧ literal? c cs = some (contents, rest) ∧
        token = ⟨.string, String.ofList contents⟩ := by
  have hspan (p : Char → Bool) : c :: cs = (c :: cs.takeWhile p) ++ cs.dropWhile p := by
    rw [List.cons_append, List.takeWhile_append_dropWhile]
  have hnext {d : Char} (hd : nextIs d cs = true) : cs = d :: cs.tail := by
    cases cs with
    | nil => cases hd
    | cons e cs => rw [show e = d from of_decide_eq_true hd, List.tail_cons]
  generalize htoken : some token = result at h
  cases takes_of_step h with
  | blank | line | comment => cases htoken
  | literal hquote hliteral =>
    cases htoken
    exact .inr ⟨_, hquote, hliteral, rfl⟩
  | phrase hphrase =>
    cases htoken
    exact .inl (Quotes.of_phrase? hphrase)
  | word =>
    cases htoken
    exact .inl ⟨_, hspan _, quotes_wordToken _⟩
  | number =>
    cases htoken
    exact .inl ⟨_, hspan _, nofun, rfl⟩
  | dot hdot =>
    cases htoken
    rw [char_char] at hdot
    exact .inl ⟨[c], rfl, nofun, by rw [hdot]; rfl⟩
  | long hpair hequals =>
    cases htoken
    exact .inl ⟨[c, '='], congrArg (c :: ·) (hnext hequals), (quotes_of_pair? hpair).2⟩
  | short hpair =>
    cases htoken
    exact .inl ⟨[c], rfl, (quotes_of_pair? hpair).1⟩
  | mark => exact .inl ⟨[c], rfl, Quotes.of_mark? htoken.symm⟩

end Scan

/-! ## A whole source -/

/-- The bytes from `here` up to `rest` are those of whole characters of the source. -/
structure CutsOut (source : String) (here rest : List UInt8) (before taken after : String) :
    Prop where
  /-- The characters stand in the source. -/
  source_eq : source = before ++ taken ++ after
  /-- The bytes start where a character starts. -/
  here_eq : here = Utf8.bytes (taken ++ after)
  /-- The bytes end where a character ends. -/
  rest_eq : rest = Utf8.bytes after

/-- **Scanning bytes is scanning characters.** A source has the tokens, or the fault, that its
characters have under the same rules. Wherever the scan of the bytes reads a token, it takes whole
characters of the source: a token that is no string has the text of those characters, and a string
has the text that the characters between its quotation marks say, the bytes gathered for it being
well-formed throughout. -/
theorem tokenize_characterwise (source : String) :
    tokenize source = Scan.scan source.toList ∧
      ∀ b bs token rest, Scan.Reaches (Utf8.bytes source) (b :: bs) →
        Scan.step b bs = .ok (some token, rest) →
        ∃ before taken after, CutsOut source (b :: bs) rest before taken after ∧
          (token.kind ≠ .string → token.text = taken) ∧
          (token.kind = .string → ∃ quote written contents buffer,
            Scan.isQuote quote = true ∧ taken.toList = quote :: written ++ [quote] ∧
            Scan.Spells quote written contents ∧ token.text = String.ofList contents ∧
            Scan.literal? quote bs = some (buffer, rest) ∧
            Utf8.strict? buffer = some token.text) := by
  refine ⟨tokenize_eq_scan source, fun b bs token rest hreach hstep ↦ ?_⟩
  rw [Utf8.bytes_eq_encode] at hreach
  obtain ⟨c, here, after, hc, hbytes, rfl, hreach, hstep⟩ := hreach.exists_step hstep
  obtain ⟨before, hbefore⟩ := hreach.isSuffix
  -- Whatever stands from the start of the token on, this much of it has been taken.
  have hcut {taken : List Char} (htaken : c :: here = taken ++ after) :
      CutsOut source (b :: bs) (Utf8.encode after) (String.ofList before) (String.ofList taken)
        (String.ofList after) := by
    constructor
    · rw [← String.ofList_append, ← String.ofList_append, List.append_assoc, ← htaken, hbefore,
        String.ofList_toList]
    · rw [← String.ofList_append, Utf8.bytes_ofList, ← htaken, hbytes]
    · rw [Utf8.bytes_ofList]
  rcases Scan.exists_taken_of_step hstep with ⟨taken, htaken, hquotes⟩ | ⟨contents, hquote, hl, rfl⟩
  · exact ⟨_, _, _, hcut htaken, fun _ ↦ hquotes.text, fun hs ↦ absurd hs hquotes.kind⟩
  · obtain ⟨written, hwritten, hspells⟩ := Scan.Spells.of_literal? hl
    have htaken : c :: here = c :: written ++ [c] ++ after := by
      rw [hwritten, List.append_assoc, List.cons_append]
      rfl
    have hbs : bs = Utf8.encode here := by
      rw [Scan.encode_cons_of_lt hc] at hbytes
      exact (List.cons.inj hbytes).2
    have hbuffer : Scan.literal? c bs = some (Utf8.encode contents, Utf8.encode after) := by
      rw [hbs, Scan.literal?_encode hc, hl]
      rfl
    refine ⟨_, _, _, hcut htaken, fun hne ↦ absurd rfl hne, fun _ ↦ ?_⟩
    exact ⟨c, written, contents, Utf8.encode contents, hquote, String.toList_ofList .., hspells,
      rfl, hbuffer, Utf8.strict?_encode contents⟩

/-- In `é'\ü'` the scan passes over the two bytes of the first character and then reads a string,
in which the backslash escapes the first byte of the other character. -/
theorem tokenize_characterwise_escaped :
    tokenize "é'\\ü'" = Scan.scan ['é', '\x27', '\\', 'ü', '\x27'] ∧
      Scan.Reaches (Utf8.bytes "é'\\ü'") (Utf8.bytes "'\\ü'") ∧
      Scan.step 0x27 (Utf8.bytes "\\ü'") = .ok (some ⟨.string, "ü"⟩, []) ∧
      ∃ before taken after, CutsOut "é'\\ü'" (Utf8.bytes "'\\ü'") [] before taken after ∧
        ∃ quote written contents buffer, taken.toList = quote :: written ++ [quote] ∧
          Scan.Spells quote written contents ∧ "ü" = String.ofList contents ∧
          Scan.literal? quote (Utf8.bytes "\\ü'") = some (buffer, []) ∧
          Utf8.strict? buffer = some "ü" := by
  have hreach : Scan.Reaches (Utf8.bytes "é'\\ü'") (Utf8.bytes "'\\ü'") :=
    .next (u := 0xA9) (.next (u := 0xC3) .start rfl) rfl
  have hstep : Scan.step 0x27 (Utf8.bytes "\\ü'") = .ok (some ⟨.string, "ü"⟩, []) :=
    Scan.step_encode (c := '\x27') (by decide) ['\\', 'ü', '\x27']
  obtain ⟨htokens, hslices⟩ := tokenize_characterwise "é'\\ü'"
  obtain ⟨before, taken, after, hcut, -, hstring⟩ := hslices _ _ _ _ hreach hstep
  obtain ⟨quote, written, contents, buffer, -, hrest⟩ := hstring rfl
  exact ⟨htokens, hreach, hstep, before, taken, after, hcut, quote, written, contents, buffer,
    hrest⟩

end JPlusPlus
