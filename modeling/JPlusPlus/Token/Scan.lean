import JPlusPlus.Token.Basic
import JPlusPlus.Token.Unit

/-!
# Scanning

From source text to tokens. The scanner reads the text from left to right, one step at a time: a
step passes over a blank, a comment or a unit that no rule knows, or it reads one token. Two things
are faults: a quoted text that does not end, and the mark `..`, which is reserved.

The rules hold for any kind of unit; `tokenize` scans the bytes of a source.

## Main statements

* `Scan.step_length_le`: a step passes over at least the unit it starts at, so scanning ends.
-/

namespace JPlusPlus

/-- Why a source has no tokens. -/
inductive ScanFault where
  /-- A quoted text runs to the end of the source. -/
  | unclosedString
  /-- The reserved mark `..` occurs. -/
  | doubleDot
  deriving DecidableEq, Repr

/-- The wording of a fault. -/
def ScanFault.message : ScanFault → String
  | unclosedString => "Unclosed string literal"
  | doubleDot => "Unexpected \"..\" operator (not yet supported)"

namespace Scan

open SourceUnit

/-! ## Character classes -/

/-- A blank between tokens: space, tab, line feed, form feed or carriage return. -/
def isBlank (c : Char) : Bool :=
  c = ' ' || c = '\t' || c = '\n' || c = '\x0C' || c = '\r'

/-- A quotation mark, double or single. -/
def isQuote (c : Char) : Bool := c = '\x22' || c = '\x27'

/-- The first character of a word: an ASCII letter or the underscore. -/
def isWordStart (c : Char) : Bool := c.isAlpha || c = '_'

/-- A further character of a word: an ASCII letter or digit, or the underscore. -/
def isWordChar (c : Char) : Bool := c.isAlphanum || c = '_'

variable {α : Type} [SourceUnit α]

/-- Whether the next unit is the character `c`. -/
def nextIs (c : Char) : List α → Bool
  | [] => false
  | u :: _ => char u = c

/-! ## Comments -/

/-- What follows a comment that runs to the end of the line; the line feed is left. -/
def afterLine (us : List α) : List α := us.dropWhile fun u ↦ char u ≠ '\n'

/-- What follows a comment that ends at `*/`, where `us` starts inside of it; without an end the
comment takes everything. -/
def afterComment : List α → List α
  | u :: v :: us => if char u = '*' ∧ char v = '/' then us else afterComment (v :: us)
  | _ => []

/-! ## Quoted texts -/

/-- The unit that an escaped unit stands for. -/
def unescape (u : α) : α :=
  if char u = 'n' then ofAscii '\n'
  else if char u = 't' then ofAscii '\t'
  else u

/-- The contents of a quoted text and what follows it, where `us` starts after the opening mark
`quote`; none when no closing mark follows. -/
def literal? (quote : Char) : List α → Option (List α × List α)
  | [] => none
  | u :: us =>
    if char u = quote then some ([], us)
    else if char u = '\\' then
      match us with
      | [] => none
      | v :: vs => (literal? quote vs).map fun (contents, rest) ↦ (unescape v :: contents, rest)
    else (literal? quote us).map fun (contents, rest) ↦ (u :: contents, rest)

/-! ## Words -/

/-- What follows `word`, when the units start with its spelling. -/
def afterWord? : List Char → List α → Option (List α)
  | [], us => some us
  | _ :: _, [] => none
  | c :: word, u :: us => if char u = c then afterWord? word us else none

/-- Whether no word goes on here. -/
def atWordEnd : List α → Bool
  | [] => true
  | u :: _ => !isWordChar (char u)

/-- A keyword of two words and what follows it. The first of them needs no end of word after it,
the second does. -/
def phrase? (us : List α) : Option (Keyword × List α) :=
  match afterWord? Keyword.nahiAgar.spelling.toList us with
  | some rest => some (.nahiAgar, rest)
  | none =>
    match afterWord? Keyword.keLiye.spelling.toList us with
    | some rest => if atWordEnd rest then some (.keLiye, rest) else none
    | none => none

/-- The keyword that a single word is, if it is one. -/
def keyword? (word : String) : Option Keyword :=
  [Keyword.ye, .bol, .agar, .nahi, .jabtak, .tak, .break, .continue].find? (·.spelling = word)

/-- The token of a single word. -/
def wordToken (word : String) : Token :=
  match keyword? word with
  | some k => k.token
  | none => ⟨.ident, word⟩

/-! ## Marks -/

/-- The operators that start with `c` and differ by a following `=`: without it and with it. -/
def pair? (c : Char) : Option (Operator × Operator) :=
  if c = '=' then some (.assign, .eqEq)
  else if c = '!' then some (.bang, .notEq)
  else if c = '<' then some (.less, .lessEq)
  else if c = '>' then some (.greater, .greaterEq)
  else none

/-- The token of a mark that is always a single character. -/
def mark? (c : Char) : Option Token :=
  if c = '+' then some Operator.plus.token
  else if c = '-' then some Operator.minus.token
  else if c = '*' then some Operator.star.token
  else if c = '/' then some Operator.slash.token
  else if c = '\x7b' then some Delimiter.lbrace.token
  else if c = '\x7d' then some Delimiter.rbrace.token
  else if c = '(' then some Delimiter.lparen.token
  else if c = ')' then some Delimiter.rparen.token
  else none

/-! ## The scanner -/

/-- One step from the unit `u`: the token read, if any, and the units left. -/
def step (u : α) (us : List α) : Except ScanFault (Option Token × List α) :=
  let c := char u
  if isBlank c then .ok (none, us)
  else if c = '/' && nextIs '/' us then .ok (none, afterLine us)
  else if c = '/' && nextIs '*' us then .ok (none, afterComment us.tail)
  else if isQuote c then
    match literal? c us with
    | some (contents, rest) => .ok (some ⟨.string, text contents⟩, rest)
    | none => .error .unclosedString
  else
    match phrase? (u :: us) with
    | some (k, rest) => .ok (some k.token, rest)
    | none =>
      if isWordStart c then
        let inWord := fun v ↦ isWordChar (char v)
        .ok (some (wordToken (text (u :: us.takeWhile inWord))), us.dropWhile inWord)
      else if c.isDigit then
        let inNumber := fun v ↦ (char v).isDigit
        .ok (some ⟨.integer, text (u :: us.takeWhile inNumber)⟩, us.dropWhile inNumber)
      else if c = '.' then
        if nextIs '.' us then .error .doubleDot else .ok (some Operator.dot.token, us)
      else
        match pair? c with
        | some (short, long) =>
          if nextIs '=' us then .ok (some long.token, us.tail) else .ok (some short.token, us)
        | none => .ok (mark? c, us)

/-! ## Every step goes forward -/

theorem afterComment_length_le (us : List α) : (afterComment us).length ≤ us.length := by
  fun_induction afterComment us with
  | case1 => simp only [List.length_cons]; omega
  | case2 u v us h ih => simp only [List.length_cons] at ih ⊢; omega
  | case3 => simp

theorem literal?_length_le {quote : Char} {us contents rest : List α}
    (h : literal? quote us = some (contents, rest)) : rest.length ≤ us.length := by
  fun_induction literal? quote us generalizing contents with
  | case1 | case3 => simp at h
  | case2 => simp only [Option.some.injEq, Prod.mk.injEq] at h; simp [← h.2]
  | case4 u _ _ v vs ih =>
    obtain ⟨⟨contents', rest'⟩, h', he⟩ := Option.map_eq_some_iff.1 h
    cases he
    have := ih h'
    simp only [List.length_cons]
    omega
  | case5 u us _ _ ih =>
    obtain ⟨⟨contents', rest'⟩, h', he⟩ := Option.map_eq_some_iff.1 h
    cases he
    have := ih h'
    simp only [List.length_cons]
    omega

theorem afterWord?_length {word : List Char} {us rest : List α}
    (h : afterWord? word us = some rest) : us.length = word.length + rest.length := by
  fun_induction afterWord? word us with
  | case1 => simp_all
  | case2 => simp at h
  | case3 word u us ih => simp only [List.length_cons, ih h]; omega
  | case4 => simp at h

theorem phrase?_length_lt {us rest : List α} {k : Keyword} (h : phrase? us = some (k, rest)) :
    rest.length < us.length := by
  have two : 0 < Keyword.nahiAgar.spelling.toList.length ∧
      0 < Keyword.keLiye.spelling.toList.length := by decide
  unfold phrase? at h
  split at h
  · next r hr =>
    cases h
    have := afterWord?_length hr
    omega
  · split at h
    · next r hr =>
      split at h
      · cases h
        have := afterWord?_length hr
        omega
      · cases h
    · cases h

/-- A step leaves no more than what stands after the unit it starts at. -/
theorem step_length_le {u : α} {us rest : List α} {token : Option Token}
    (h : step u us = .ok (token, rest)) : rest.length ≤ us.length := by
  have tail : us.tail.length ≤ us.length := by simp
  unfold step afterLine at h
  dsimp only at h
  split at h
  · cases h; exact Nat.le_refl _
  split at h
  · cases h; exact (List.dropWhile_sublist _).length_le
  split at h
  · cases h; exact Nat.le_trans (afterComment_length_le us.tail) tail
  split at h
  · split at h
    · next hl => cases h; exact literal?_length_le hl
    · cases h
  split at h
  · next hp => cases h; exact Nat.le_of_lt_succ (phrase?_length_lt hp)
  split at h
  · cases h; exact (List.dropWhile_sublist _).length_le
  split at h
  · cases h; exact (List.dropWhile_sublist _).length_le
  split at h
  · split at h
    · cases h
    · cases h; exact Nat.le_refl _
  split at h
  · split at h
    · cases h; exact tail
    · cases h; exact Nat.le_refl _
  · cases h; exact Nat.le_refl _

/-- The tokens of the units. -/
def scan (us : List α) : Except ScanFault (List Token) :=
  match us with
  | [] => .ok []
  | u :: us =>
    match _h : step u us with
    | .error fault => .error fault
    | .ok (token, rest) => (scan rest).map (token.toList ++ ·)
termination_by us.length
decreasing_by exact Nat.lt_succ_of_le (step_length_le _h)

end Scan

/-- The tokens of a source. -/
def tokenize (source : String) : Except ScanFault (List Token) := Scan.scan (Utf8.bytes source)

end JPlusPlus
