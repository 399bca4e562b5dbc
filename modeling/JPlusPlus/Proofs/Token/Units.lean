import JPlusPlus.Token.Scan

/-!
# Bytes and characters are scanned alike

A source is scanned byte by byte, while the rules of scanning are meant for characters. The two
agree on every text, and this file shows why: the rules know ASCII characters only, an ASCII
character is one byte, and no byte of another character is an ASCII byte. A scan may well stand in
the middle of a character, when it passes over one that no rule knows or when an escape has taken
its first byte; what it does with the other bytes is what it would have done with the character.

Once a scan of characters and a scan of bytes are the same, everything about tokens is shown for
characters.

## Main statements

* `Utf8.decode_encode`: no character of a well-formed text is replaced.
* `Scan.step_encode`: a step from an ASCII character is the same on bytes and on characters.
* `Scan.scan_encode`, `tokenize_eq_scan`: so are all tokens and faults of a source.
-/

namespace JPlusPlus.Utf8

/-! ## Encoding and decoding -/

/-- The bytes of characters, one character after another. -/
def encode (cs : List Char) : List UInt8 := cs.flatMap String.utf8EncodeChar

@[simp] theorem encode_nil : encode [] = [] := rfl

@[simp] theorem encode_cons (c : Char) (cs : List Char) :
    encode (c :: cs) = String.utf8EncodeChar c ++ encode cs := rfl

theorem bytes_eq_encode (text : String) : bytes text = encode text.toList := by
  have h : text.toByteArray = text.toList.utf8Encode := by
    rw [← String.toByteArray_ofList, String.ofList_toList]
  rw [bytes, h, List.utf8Encode, List.toList_data_toByteArray, encode]

theorem first?_encode_cons (c : Char) (bs : List UInt8) :
    first? (String.utf8EncodeChar c ++ bs) = some c := by
  have hlen : (String.utf8EncodeChar c).length ≤ 4 := by
    rw [String.length_utf8EncodeChar]
    exact c.utf8Size_le_four
  rw [first?, List.take_append, List.take_of_length_le hlen, List.toByteArray_append]
  exact ByteArray.utf8DecodeChar?_utf8EncodeChar_append

theorem decode_encode (cs : List Char) : decode (encode cs) = cs := by
  induction cs with
  | nil => rw [encode_nil, decode]
  | cons c cs ih =>
    have hlen := String.length_utf8EncodeChar c
    cases hb : String.utf8EncodeChar c with
    | nil => exact absurd hb String.utf8EncodeChar_ne_nil
    | cons b bs =>
      have hfirst := first?_encode_cons c (encode cs)
      rw [hb, List.cons_append] at hfirst
      rw [hb, List.length_cons] at hlen
      rw [encode_cons, hb, List.cons_append, decode, hfirst]
      simp only
      rw [← hlen, Nat.add_sub_cancel, List.drop_left, ih]

theorem text_encode (cs : List Char) : text (encode cs) = String.ofList cs := by
  rw [text, decode_encode]

/-! ## ASCII -/

theorem utf8EncodeChar_of_lt {c : Char} (h : c.toNat < 128) :
    String.utf8EncodeChar c = [UInt8.ofNat c.toNat] := by
  have hle : c.val.toNat ≤ 127 := Nat.le_of_lt_succ h
  rw [String.utf8EncodeChar]
  exact if_pos hle

theorem le_toNat_ofNat {n : Nat} (h : 128 ≤ n) (hlt : n < 256) : 128 ≤ (UInt8.ofNat n).toNat := by
  rw [UInt8.toNat_ofNat_of_lt' hlt]
  exact h

/-- A character outside of ASCII has no ASCII byte. -/
theorem le_toNat_of_mem_utf8EncodeChar {c : Char} (h : 128 ≤ c.toNat) {b : UInt8}
    (hb : b ∈ String.utf8EncodeChar c) : 128 ≤ b.toNat := by
  have hgt : ¬c.val.toNat ≤ 127 := Nat.not_le_of_lt h
  unfold String.utf8EncodeChar at hb
  simp only [if_neg hgt] at hb
  split at hb
  · simp only [List.mem_cons, List.not_mem_nil, or_false] at hb
    rcases hb with rfl | rfl <;> exact le_toNat_ofNat (by omega) (by omega)
  · split at hb
    · simp only [List.mem_cons, List.not_mem_nil, or_false] at hb
      rcases hb with rfl | rfl | rfl <;> exact le_toNat_ofNat (by omega) (by omega)
    · simp only [List.mem_cons, List.not_mem_nil, or_false] at hb
      rcases hb with rfl | rfl | rfl | rfl <;> exact le_toNat_ofNat (by omega) (by omega)

end JPlusPlus.Utf8

namespace JPlusPlus.Scan

open SourceUnit
open Utf8 (encode encode_nil encode_cons utf8EncodeChar_of_lt le_toNat_of_mem_utf8EncodeChar)

/-! ## Units outside of ASCII -/

/-- The ASCII letters, by their numbers. -/
theorem isAlpha_iff {c : Char} : c.isAlpha = true ↔
    (65 ≤ c.toNat ∧ c.toNat ≤ 90) ∨ (97 ≤ c.toNat ∧ c.toNat ≤ 122) := by
  have hdef : c.isAlpha = (decide (c.val ≥ 'A'.val ∧ c.val ≤ 'Z'.val) ||
      (decide (c.val ≥ 'a'.val) && decide (c.val ≤ 'z'.val))) := rfl
  rw [hdef, Bool.or_eq_true, Bool.and_eq_true, decide_eq_true_eq, decide_eq_true_eq,
    decide_eq_true_eq]
  rfl

/-- The ASCII digits, by their numbers. -/
theorem isDigit_iff {c : Char} : c.isDigit = true ↔ 48 ≤ c.toNat ∧ c.toNat ≤ 57 := by
  have hdef : c.isDigit = (decide (c.val ≥ 48) && decide (c.val ≤ 57)) := rfl
  rw [hdef, Bool.and_eq_true, decide_eq_true_eq, decide_eq_true_eq]
  rfl

theorem isAlphanum_lt {c : Char} (h : c.isAlphanum = true) : c.toNat < 128 := by
  rw [Char.isAlphanum, Bool.or_eq_true, isAlpha_iff, isDigit_iff] at h
  omega

theorem isBlank_lt {c : Char} (h : isBlank c = true) : c.toNat < 128 := by
  simp only [isBlank, Bool.or_eq_true, decide_eq_true_eq] at h
  rcases h with (((rfl | rfl) | rfl) | rfl) | rfl <;> decide

theorem isQuote_lt {c : Char} (h : isQuote c = true) : c.toNat < 128 := by
  simp only [isQuote, Bool.or_eq_true, decide_eq_true_eq] at h
  rcases h with rfl | rfl <;> decide

theorem isWordChar_lt {c : Char} (h : isWordChar c = true) : c.toNat < 128 := by
  simp only [isWordChar, Bool.or_eq_true, decide_eq_true_eq] at h
  rcases h with h | rfl
  · exact isAlphanum_lt h
  · decide

theorem isWordStart_lt {c : Char} (h : isWordStart c = true) : c.toNat < 128 := by
  simp only [isWordStart, Bool.or_eq_true, decide_eq_true_eq] at h
  rcases h with h | rfl
  · exact isAlphanum_lt (by simp [Char.isAlphanum, h])
  · decide

theorem isDigit_lt {c : Char} (h : c.isDigit = true) : c.toNat < 128 :=
  isAlphanum_lt (by simp [Char.isAlphanum, h])

variable {α : Type} [SourceUnit α]

/-- A unit that stands for no ASCII character. -/
def Outside (u : α) : Prop := 128 ≤ (char u).toNat

theorem Outside.ne {u : α} (h : Outside u) {c : Char} (hc : c.toNat < 128) : char u ≠ c := by
  rintro rfl
  exact absurd hc (Nat.not_lt_of_le h)

theorem Outside.eq_false {u : α} (h : Outside u) {p : Char → Bool}
    (hp : p (char u) = true → (char u).toNat < 128) : p (char u) = false := by
  cases hc : p (char u) with
  | false => rfl
  | true => exact absurd (hp hc) (Nat.not_lt_of_le h)

theorem phrase?_eq_none_of_outside {u : α} (h : Outside u) (us : List α) :
    phrase? (u :: us) = none := by
  have h₁ : afterWord? Keyword.nahiAgar.spelling.toList (u :: us) = none :=
    if_neg (h.ne (by decide))
  have h₂ : afterWord? Keyword.keLiye.spelling.toList (u :: us) = none :=
    if_neg (h.ne (by decide))
  rw [phrase?, h₁, h₂]

/-- No rule knows a unit outside of ASCII, so it is passed over. -/
theorem step_of_outside {u : α} (h : Outside u) (us : List α) : step u us = .ok (none, us) := by
  have hslash : char u ≠ '/' := h.ne (by decide)
  have hdot : char u ≠ '.' := h.ne (by decide)
  have hpair : pair? (char u) = none := by
    rw [pair?, if_neg (h.ne (by decide)), if_neg (h.ne (by decide)), if_neg (h.ne (by decide)),
      if_neg (h.ne (by decide))]
  have hmark : mark? (char u) = none := by
    rw [mark?, if_neg (h.ne (by decide)), if_neg (h.ne (by decide)), if_neg (h.ne (by decide)),
      if_neg (h.ne (by decide)), if_neg (h.ne (by decide)), if_neg (h.ne (by decide)),
      if_neg (h.ne (by decide)), if_neg (h.ne (by decide))]
  simp [step, h.eq_false isBlank_lt, h.eq_false isQuote_lt, h.eq_false isWordStart_lt,
    h.eq_false isDigit_lt, phrase?_eq_none_of_outside h us, hpair, hmark, hslash, hdot]

theorem scan_cons (u : α) (us : List α) :
    scan (u :: us) = step u us >>= fun r ↦ (scan r.2).map (r.1.toList ++ ·) := by
  rw [scan]
  split <;> next hs => rw [hs]; rfl

theorem scan_of_outside {u : α} (h : Outside u) (us : List α) : scan (u :: us) = scan us := by
  rw [scan_cons, step_of_outside h]
  cases hs : scan us <;> simp [bind, Except.bind, Except.map, hs]

/-! ## Bytes and characters -/

@[simp] theorem char_char (c : Char) : char c = c := rfl

/-- The byte of an ASCII character. -/
def byte (c : Char) : UInt8 := UInt8.ofNat c.toNat

theorem char_byte {c : Char} (h : c.toNat < 128) : char (byte c) = c := by
  change Char.ofNat (UInt8.ofNat c.toNat).toNat = c
  rw [UInt8.toNat_ofNat_of_lt' (Nat.lt_trans h (by decide)), Char.ofNat_toNat]

theorem outside_of_le {b : UInt8} (h : 128 ≤ b.toNat) : Outside b := by
  change 128 ≤ (Char.ofNat b.toNat).toNat
  have hvalid : b.toNat.isValidChar := .inl (Nat.lt_trans b.toNat_lt (by decide))
  rw [Char.ofNat, dif_pos hvalid]
  exact h

theorem encode_cons_of_lt {c : Char} (h : c.toNat < 128) (cs : List Char) :
    encode (c :: cs) = byte c :: encode cs := by
  rw [encode_cons, utf8EncodeChar_of_lt h]
  rfl

/-- The bytes of a character outside of ASCII. -/
theorem outside_of_mem {c : Char} (h : ¬c.toNat < 128) :
    ∀ x ∈ String.utf8EncodeChar c, Outside x :=
  fun _ hx ↦ outside_of_le (le_toNat_of_mem_utf8EncodeChar (Nat.le_of_not_lt h) hx)

theorem exists_utf8EncodeChar {c : Char} (h : ¬c.toNat < 128) :
    ∃ b bs, String.utf8EncodeChar c = b :: bs ∧ Outside b ∧ ∀ x ∈ bs, Outside x := by
  have hout := outside_of_mem h
  cases hb : String.utf8EncodeChar c with
  | nil => exact absurd hb String.utf8EncodeChar_ne_nil
  | cons b bs =>
    rw [hb] at hout
    exact ⟨b, bs, rfl, hout b List.mem_cons_self, fun x hx ↦ hout x (List.mem_cons_of_mem b hx)⟩

theorem nextIs_encode {k : Char} (hk : k.toNat < 128) (cs : List Char) :
    nextIs k (encode cs) = nextIs k cs := by
  cases cs with
  | nil => rfl
  | cons c cs =>
    by_cases h : c.toNat < 128
    · rw [encode_cons_of_lt h, nextIs, char_byte h]
      rfl
    · obtain ⟨b, bs, he, hb, -⟩ := exists_utf8EncodeChar h
      have hne : c ≠ k := by
        rintro rfl
        exact h hk
      have hl : nextIs k (b :: (bs ++ encode cs)) = false := decide_eq_false (hb.ne hk)
      have hr : nextIs k (c :: cs) = false := decide_eq_false hne
      rw [encode_cons, he, List.cons_append, hl, hr]

theorem takeWhile_encode {p : Char → Bool} (hp : ∀ {c}, p c = true → c.toNat < 128)
    (cs : List Char) :
    (encode cs).takeWhile (fun u ↦ p (char u)) = encode (cs.takeWhile p) := by
  induction cs with
  | nil => rfl
  | cons c cs ih =>
    by_cases h : c.toNat < 128
    · rw [encode_cons_of_lt h, List.takeWhile_cons, List.takeWhile_cons, char_byte h, ih]
      cases p c with
      | false => rfl
      | true => exact (encode_cons_of_lt h _).symm
    · obtain ⟨b, bs, he, hb, -⟩ := exists_utf8EncodeChar h
      have hpc : p c = false := Bool.eq_false_iff.mpr fun hc ↦ h (hp hc)
      rw [encode_cons, he, List.cons_append, List.takeWhile_cons, hb.eq_false hp,
        List.takeWhile_cons, hpc]
      rfl

theorem dropWhile_encode {p : Char → Bool} (hp : ∀ {c}, p c = true → c.toNat < 128)
    (cs : List Char) :
    (encode cs).dropWhile (fun u ↦ p (char u)) = encode (cs.dropWhile p) := by
  induction cs with
  | nil => rfl
  | cons c cs ih =>
    by_cases h : c.toNat < 128
    · rw [encode_cons_of_lt h, List.dropWhile_cons, List.dropWhile_cons, char_byte h, ih]
      cases p c with
      | false => exact (encode_cons_of_lt h _).symm
      | true => rfl
    · obtain ⟨b, bs, he, hb, -⟩ := exists_utf8EncodeChar h
      have hpc : p c = false := Bool.eq_false_iff.mpr fun hc ↦ h (hp hc)
      rw [encode_cons, he, List.cons_append, List.dropWhile_cons, hb.eq_false hp,
        List.dropWhile_cons, hpc]
      rw [if_neg Bool.false_ne_true, if_neg Bool.false_ne_true, encode_cons, he, List.cons_append]

theorem afterLine_append {bs : List α} (h : ∀ x ∈ bs, Outside x) (us : List α) :
    afterLine (bs ++ us) = afterLine us := by
  induction bs with
  | nil => rfl
  | cons b bs ih =>
    have hb : char b ≠ '\n' := (h b List.mem_cons_self).ne (by decide)
    rw [← ih fun x hx ↦ h x (List.mem_cons_of_mem b hx)]
    exact List.dropWhile_cons_of_pos (by simpa using hb)

theorem afterLine_encode (cs : List Char) : afterLine (encode cs) = encode (afterLine cs) := by
  induction cs with
  | nil => rfl
  | cons c cs ih =>
    by_cases h : c.toNat < 128
    · rw [encode_cons_of_lt h, afterLine, List.dropWhile_cons, afterLine, List.dropWhile_cons,
        char_byte h, char_char, ← afterLine, ← afterLine, ih]
      split
      · rfl
      · exact (encode_cons_of_lt h cs).symm
    · have hc : ∀ x ∈ [c], Outside x := by simpa [Outside] using h
      rw [encode_cons, afterLine_append (outside_of_mem h), ih, ← List.singleton_append,
        afterLine_append hc]

/-- A comment ends at the first `*` that a `/` follows. -/
theorem afterComment_cons (u : α) (us : List α) :
    afterComment (u :: us) =
      if char u = '*' ∧ nextIs '/' us = true then us.tail else afterComment us := by
  cases us with
  | nil => simp [afterComment, nextIs]
  | cons v us => simp [afterComment, nextIs]

theorem afterComment_append {bs : List α} (h : ∀ x ∈ bs, Outside x) (us : List α) :
    afterComment (bs ++ us) = afterComment us := by
  induction bs with
  | nil => rfl
  | cons b bs ih =>
    have hb : char b ≠ '*' := (h b List.mem_cons_self).ne (by decide)
    rw [List.cons_append, afterComment_cons, if_neg fun hc ↦ hb hc.1]
    exact ih fun x hx ↦ h x (List.mem_cons_of_mem b hx)

theorem tail_encode {k : Char} (hk : k.toNat < 128) {cs : List Char} (h : nextIs k cs = true) :
    (encode cs).tail = encode cs.tail := by
  cases cs with
  | nil => rfl
  | cons c cs =>
    have hc : c = k := of_decide_eq_true h
    subst hc
    rw [encode_cons_of_lt hk, List.tail_cons, List.tail_cons]

theorem afterComment_encode (cs : List Char) :
    afterComment (encode cs) = encode (afterComment cs) := by
  induction cs with
  | nil => rfl
  | cons c cs ih =>
    by_cases h : c.toNat < 128
    · rw [encode_cons_of_lt h, afterComment_cons, afterComment_cons, char_byte h, char_char,
        nextIs_encode (by decide), ih]
      split
      · next hc => exact tail_encode (by decide) hc.2
      · rfl
    · have hc : ∀ x ∈ [c], Outside x := by simpa [Outside] using h
      rw [encode_cons, afterComment_append (outside_of_mem h), ih, ← List.singleton_append,
        afterComment_append hc]

theorem literal?_quote {quote : Char} {u : α} (h : char u = quote) (us : List α) :
    literal? quote (u :: us) = some ([], us) := by
  rw [literal?.eq_def]
  exact if_pos h

theorem literal?_escape {quote : Char} {u : α} (hq : char u ≠ quote) (h : char u = '\\') (v : α)
    (vs : List α) :
    literal? quote (u :: v :: vs) =
      (literal? quote vs).map fun r ↦ (unescape v :: r.1, r.2) := by
  rw [literal?.eq_def]
  exact (if_neg hq).trans (if_pos h)

theorem literal?_plain {quote : Char} {u : α} (hq : char u ≠ quote) (h : char u ≠ '\\')
    (us : List α) :
    literal? quote (u :: us) = (literal? quote us).map fun r ↦ (u :: r.1, r.2) := by
  rw [literal?.eq_def]
  exact (if_neg hq).trans (if_neg h)

theorem literal?_append {quote : Char} (hq : quote.toNat < 128) {bs : List α}
    (h : ∀ x ∈ bs, Outside x) (us : List α) :
    literal? quote (bs ++ us) = (literal? quote us).map fun r ↦ (bs ++ r.1, r.2) := by
  induction bs with
  | nil => simp
  | cons b bs ih =>
    have hb := h b List.mem_cons_self
    rw [List.cons_append, literal?_plain (hb.ne hq) (hb.ne (by decide)),
      ih fun x hx ↦ h x (List.mem_cons_of_mem b hx), Option.map_map]
    rfl

theorem unescape_of_outside {u : α} (h : Outside u) : unescape u = u := by
  rw [unescape, if_neg (h.ne (by decide)), if_neg (h.ne (by decide))]

theorem unescape_byte {c : Char} (h : c.toNat < 128) :
    (unescape c).toNat < 128 ∧ unescape (byte c) = byte (unescape c) := by
  rw [unescape, unescape, char_byte h, char_char]
  split
  · exact ⟨by decide, rfl⟩
  · split
    · exact ⟨by decide, rfl⟩
    · exact ⟨h, rfl⟩

theorem literal?_encode {quote : Char} (hq : quote.toNat < 128) (cs : List Char) :
    literal? quote (encode cs) =
      (literal? quote cs).map fun r ↦ (encode r.1, encode r.2) := by
  fun_induction literal? quote cs with
  | case1 => rfl
  | case2 u us hu =>
    rw [char_char] at hu
    subst hu
    rw [encode_cons_of_lt hq, literal?_quote (char_byte hq)]
    rfl
  | case3 u hu he =>
    rw [char_char] at hu he
    subst he
    rw [encode_cons_of_lt (by decide), encode_nil, literal?.eq_def]
    exact (if_neg (by rwa [char_byte (by decide)])).trans (if_pos (char_byte (by decide)))
  | case4 u hu he v vs ih =>
    rw [char_char] at hu he
    subst he
    have hb : char (byte '\\') ≠ quote := by rwa [char_byte (by decide)]
    have he : char (byte '\\') = '\\' := char_byte (by decide)
    rw [encode_cons_of_lt (by decide)]
    by_cases h : v.toNat < 128
    · obtain ⟨hlt, hv⟩ := unescape_byte h
      rw [encode_cons_of_lt h, literal?_escape hb he, ih, hv, Option.map_map, Option.map_map]
      congr 1
      funext r
      exact congrArg (·, encode r.2) (encode_cons_of_lt hlt r.1).symm
    · -- The escape takes the first byte only, and the other bytes are plain units after it.
      obtain ⟨b, bs, hs, hb', hbs⟩ := exists_utf8EncodeChar h
      have hv : unescape v = v := unescape_of_outside (Nat.le_of_not_lt h)
      rw [encode_cons, hs, List.cons_append, literal?_escape hb he, literal?_append hq hbs, ih,
        unescape_of_outside hb', hv, Option.map_map, Option.map_map, Option.map_map]
      congr 1
      funext r
      simp [hs]
  | case5 u us hu he ih =>
    rw [char_char] at hu he
    by_cases h : u.toNat < 128
    · rw [encode_cons_of_lt h, literal?_plain (by rwa [char_byte h]) (by rwa [char_byte h]), ih,
        Option.map_map, Option.map_map]
      congr 1
      funext r
      exact congrArg (·, encode r.2) (encode_cons_of_lt h r.1).symm
    · rw [encode_cons, literal?_append hq (outside_of_mem h), ih, Option.map_map, Option.map_map]
      rfl

/-! ### Words -/

theorem afterWord?_encode {word : List Char} (hw : ∀ c ∈ word, c.toNat < 128) (cs : List Char) :
    afterWord? word (encode cs) = (afterWord? word cs).map encode := by
  induction word generalizing cs with
  | nil => simp [afterWord?]
  | cons k word ih =>
    have hk : k.toNat < 128 := hw k List.mem_cons_self
    have hword : ∀ c ∈ word, c.toNat < 128 := fun c hc ↦ hw c (List.mem_cons_of_mem k hc)
    cases cs with
    | nil => rfl
    | cons c cs =>
      by_cases h : c.toNat < 128
      · rw [encode_cons_of_lt h, afterWord?, afterWord?, char_byte h, char_char]
        split
        · exact ih hword cs
        · rfl
      · obtain ⟨b, bs, hs, hb, -⟩ := exists_utf8EncodeChar h
        have hne : ¬char c = k := by
          rintro rfl
          exact h hk
        rw [encode_cons, hs, List.cons_append, afterWord?, if_neg (hb.ne hk), afterWord?,
          if_neg hne]
        rfl

theorem atWordEnd_encode (cs : List Char) : atWordEnd (encode cs) = atWordEnd cs := by
  cases cs with
  | nil => rfl
  | cons c cs =>
    by_cases h : c.toNat < 128
    · rw [encode_cons_of_lt h, atWordEnd, char_byte h]
      rfl
    · obtain ⟨b, bs, hs, hb, -⟩ := exists_utf8EncodeChar h
      have hc : isWordChar c = false := Bool.eq_false_iff.mpr fun hc ↦ h (isWordChar_lt hc)
      rw [encode_cons, hs, List.cons_append, atWordEnd, hb.eq_false isWordChar_lt, atWordEnd,
        char_char, hc]

/-- Keywords are written in ASCII. -/
theorem spelling_lt (k : Keyword) {c : Char} (hc : c ∈ k.spelling.toList) : c.toNat < 128 := by
  have hall : k.spelling.toList.all (fun d ↦ d.toNat < 128) = true := by cases k <;> decide
  exact of_decide_eq_true (List.all_eq_true.mp hall c hc)

theorem phrase?_encode (cs : List Char) :
    phrase? (encode cs) = (phrase? cs).map fun r ↦ (r.1, encode r.2) := by
  rw [phrase?, phrase?, afterWord?_encode fun c ↦ spelling_lt .nahiAgar,
    afterWord?_encode fun c ↦ spelling_lt .keLiye]
  cases afterWord? Keyword.nahiAgar.spelling.toList cs with
  | some rest => rfl
  | none =>
    cases afterWord? Keyword.keLiye.spelling.toList cs with
    | none => rfl
    | some rest =>
      simp only [Option.map_none, Option.map_some, atWordEnd_encode]
      split <;> rfl

theorem text_encode (cs : List Char) : text (encode cs) = text cs := Utf8.text_encode cs

/-- A step from an ASCII character is the same on bytes and on characters. -/
theorem step_encode {c : Char} (h : c.toNat < 128) (cs : List Char) :
    step (byte c) (encode cs) = (step c cs).map fun r ↦ (r.1, encode r.2) := by
  unfold step
  simp only [char_byte h, char_char, nextIs_encode (k := '/') (by decide),
    nextIs_encode (k := '*') (by decide), nextIs_encode (k := '.') (by decide),
    nextIs_encode (k := '=') (by decide), ← encode_cons_of_lt h, phrase?_encode]
  -- Now both sides try the same rules on the same character, in the order of `step`.
  by_cases h₁ : isBlank c = true
  · rw [if_pos h₁, if_pos h₁]
    rfl
  rw [if_neg h₁, if_neg h₁]
  by_cases h₂ : (decide (c = '/') && nextIs '/' cs) = true
  · rw [if_pos h₂, if_pos h₂, afterLine_encode]
    rfl
  rw [if_neg h₂, if_neg h₂]
  by_cases h₃ : (decide (c = '/') && nextIs '*' cs) = true
  · have hnext : nextIs '*' cs = true := (Bool.and_eq_true_iff.mp h₃).2
    rw [if_pos h₃, if_pos h₃, tail_encode (by decide) hnext, afterComment_encode]
    rfl
  rw [if_neg h₃, if_neg h₃]
  by_cases h₄ : isQuote c = true
  · rw [if_pos h₄, if_pos h₄, literal?_encode h]
    cases literal? c cs with
    | none => rfl
    | some r =>
      simp only [Option.map_some, text_encode]
      rfl
  rw [if_neg h₄, if_neg h₄]
  cases phrase? (c :: cs) with
  | some r => rfl
  | none =>
    simp only [Option.map_none]
    by_cases h₅ : isWordStart c = true
    · rw [if_pos h₅, if_pos h₅, takeWhile_encode isWordChar_lt, dropWhile_encode isWordChar_lt,
        ← encode_cons_of_lt h, text_encode]
      rfl
    rw [if_neg h₅, if_neg h₅]
    by_cases h₆ : c.isDigit = true
    · rw [if_pos h₆, if_pos h₆, takeWhile_encode isDigit_lt, dropWhile_encode isDigit_lt,
        ← encode_cons_of_lt h, text_encode]
      rfl
    rw [if_neg h₆, if_neg h₆]
    by_cases h₇ : c = '.'
    · rw [if_pos h₇, if_pos h₇]
      split <;> rfl
    rw [if_neg h₇, if_neg h₇]
    cases pair? c with
    | none => rfl
    | some pair =>
      by_cases h₈ : nextIs '=' cs = true
      · simp only [if_pos h₈, tail_encode (k := '=') (by decide) h₈]
        rfl
      · simp only [if_neg h₈]
        rfl

theorem scan_append_of_outside {bs : List α} (h : ∀ x ∈ bs, Outside x) (us : List α) :
    scan (bs ++ us) = scan us := by
  induction bs with
  | nil => rfl
  | cons b bs ih =>
    rw [List.cons_append, scan_of_outside (h b List.mem_cons_self),
      ih fun x hx ↦ h x (List.mem_cons_of_mem b hx)]

/-- Bytes and characters have the same tokens and the same faults. -/
theorem scan_encode : ∀ cs : List Char, scan (encode cs) = scan cs
  | [] => by rw [encode_nil, scan, scan]
  | c :: cs => by
    by_cases h : c.toNat < 128
    · rw [encode_cons_of_lt h, scan_cons, scan_cons, step_encode h]
      cases hs : step c cs with
      | error fault => rfl
      | ok r =>
        have hlt : r.2.length ≤ cs.length := step_length_le hs
        exact congrArg (Except.map (r.1.toList ++ ·)) (scan_encode r.2)
    · -- The bytes are passed over one by one, as the character is.
      rw [encode_cons, scan_append_of_outside (outside_of_mem h), scan_encode cs,
        scan_of_outside (Nat.le_of_not_lt h)]
termination_by cs => cs.length

end JPlusPlus.Scan

namespace JPlusPlus

/-- A source may be scanned by its characters. -/
theorem tokenize_eq_scan (source : String) : tokenize source = Scan.scan source.toList := by
  rw [tokenize, Utf8.bytes_eq_encode, Scan.scan_encode]

end JPlusPlus
