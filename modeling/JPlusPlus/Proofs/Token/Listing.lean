import JPlusPlus.Proofs.Script.Lines
import JPlusPlus.Proofs.Text.Outline
import JPlusPlus.Token.Listing

/-!
# Listings show their tokens

A listing has a line for each token, whatever the texts of the tokens are, and from a listing the
tokens can be found again. A text may hold line breaks, quotation marks or what looks like a line of
a listing, and a reader of lines would be misled by that; but between the quotation marks of a
listing a line feed, a quotation mark and a backslash never stand for themselves.

The tokens are found by reading a listing from left to right. The reader takes words and quoted
texts apart in the way in which outlines are read and skips blanks, so a line is for it the letters
of two words and a text: the group of a kind runs into the kind's name. No two kinds have the same
letters.

## Main statements

* `Text.lineFeed_not_mem_listed`: a quoted text stays on its line.
* `Token.reads_listing`: a listing is read as its tokens.
-/

namespace JPlusPlus

/-! ## Quoted texts stay on their lines -/

namespace Text

theorem lineFeed_not_mem_toDigits (n : Nat) : '\n' ∉ Nat.toDigits 16 n := by
  induction n using Nat.strongRecOn with
  | ind n ih =>
    rw [Nat.toDigits_eq_if (by decide)]
    split
    · simp
    · next hn => simp [ih (n / 16) (by omega)]

theorem lineFeed_not_mem_listedChar (c : Char) : '\n' ∉ listedChar c := by
  rw [listedChar]
  split
  · decide
  split
  · decide
  split
  · decide
  by_cases hfeed : c = '\n'
  · rw [if_pos hfeed]
    decide
  rw [if_neg hfeed]
  split
  · decide
  split
  · decide
  split
  · simpa using Ne.symm hfeed
  · simp [numberEscape, lineFeed_not_mem_toDigits]

/-- A quoted text stays on its line. -/
theorem lineFeed_not_mem_listed (text : String) : '\n' ∉ (listed text).toList := by
  rw [listed, quoted, String.toList_ofList]
  simp [lineFeed_not_mem_listedChar]

end Text

/-! ## Kinds in listings -/

namespace Kind

/-- The letters that stand for a kind in a line: its group and its name. -/
def label (kind : Kind) : List Char := kind.category.toList ++ kind.name.toList

/-- The kind that letters stand for. -/
def ofLabel? (letters : List Char) : Option Kind := all.find? fun kind ↦ kind.label = letters

theorem ofLabel?_label (kind : Kind) : ofLabel? kind.label = some kind := by
  have hall : ∀ kind ∈ all, ofLabel? kind.label = some kind := by decide +kernel
  exact hall kind kind.mem_all

theorem isWordChar_label (kind : Kind) : ∀ c ∈ kind.label, Scan.isWordChar c = true := by
  have hall : ∀ kind ∈ all, kind.label.all Scan.isWordChar = true := by decide +kernel
  exact List.all_eq_true.mp (hall kind kind.mem_all)

end Kind

namespace Token

/-! ## Lines -/

theorem toList_listingLine (token : Token) :
    token.listingLine.toList =
      (padRight 10 token.kind.category ++ " " ++ token.describe).toList ++ ['\n'] :=
  String.toList_append ..

theorem toList_listing_cons (token : Token) (tokens : List Token) :
    (listing (token :: tokens)).toList = token.listingLine.toList ++ (listing tokens).toList := by
  simp [listing]

/-- A line of a listing ends in a quotation mark and has no line feed in it. -/
theorem isLine_listingLine (token : Token) :
    Text.IsLine (padRight 10 token.kind.category ++ " " ++ token.describe).toList := by
  have hlabel : '\n' ∉ token.kind.label := by
    intro hmem
    exact absurd (token.kind.isWordChar_label '\n' hmem) (by decide)
  rw [Kind.label, List.mem_append, not_or] at hlabel
  have hquoted : Text.IsLine (Text.listed token.text).toList := by
    refine ⟨Text.lineFeed_not_mem_listed token.text, '\x22', ?_, by decide⟩
    rw [Text.listed, Text.quoted, String.toList_ofList, ← List.cons_append, List.getLast?_concat]
  have hmargin :
      '\n' ∉ (padRight 10 token.kind.category ++ " " ++ (token.kind.name ++ " ")).toList := by
    simp [padRight, hlabel]
  simpa [describe] using hquoted.append_left hmargin

theorem splitLines_listing (tokens : List Token) :
    Text.splitLines (listing tokens).toList = tokens.map fun token ↦
      (padRight 10 token.kind.category ++ " " ++ token.describe).toList := by
  induction tokens with
  | nil => rfl
  | cons token tokens ih =>
    rw [toList_listing_cons, toList_listingLine, List.append_assoc, List.singleton_append,
      Text.splitLines_append (isLine_listingLine token), ih]
    rfl

/-! ## Reading a listing -/

/-- Where a reader of listings stands: after these tokens and these letters of a line. -/
structure Place where
  /-- The tokens of the lines before. -/
  before : List Token
  /-- The letters of the line. -/
  letters : List Char

/-- The place after a letter or a quoted text. -/
def Place.next : Place → Outline.Lexeme → Option Place
  | ⟨before, letters⟩, .letter c => some ⟨before, letters ++ [c]⟩
  | ⟨before, letters⟩, .text value =>
    (Kind.ofLabel? letters).map fun kind ↦ ⟨before ++ [⟨kind, value⟩], []⟩
  | _, .mark _ => none

/-- The reader of listings. -/
def reader : Text.Machine Outline.Mode Outline.Lexeme Place := ⟨Outline.Mode.next, Place.next⟩

theorem reads_letters {cs : List Char} (h : ∀ c ∈ cs, Scan.isWordChar c = true)
    (before : List Token) (letters : List Char) :
    reader.Reads (.between, ⟨before, letters⟩) cs (.between, ⟨before, letters ++ cs⟩) :=
  @Outline.reads_letters Place Place.next (Place.mk before) (fun _ _ ↦ rfl) cs h letters

theorem reads_spaces (n : Nat) (place : Place) :
    reader.Reads (.between, place) (List.replicate n ' ') (.between, place) := by
  apply Outline.reads_blanks
  intro c hc
  exact .inl (List.eq_of_mem_replicate hc)

/-- A line is read as its token. -/
theorem reads_listingLine (token : Token) (before : List Token) :
    reader.Reads (.between, ⟨before, []⟩) token.listingLine.toList
      (.between, ⟨before ++ [token], []⟩) := by
  have htext : Place.next ⟨before, token.kind.label⟩ (.text token.text) =
      some ⟨before ++ [token], []⟩ := by
    rw [Place.next, Kind.ofLabel?_label]
    rfl
  have hblank (place : Place) : reader.Reads (.between, place) [' '] (.between, place) :=
    reads_spaces 1 place
  have hfeed (place : Place) : reader.Reads (.between, place) ['\n'] (.between, place) :=
    .skip rfl (.refl _)
  obtain ⟨hcategory, hname⟩ := List.forall_mem_append.mp token.kind.isWordChar_label
  rw [listingLine, describe, padRight]
  simp only [String.toList_append, String.toList_ofList, List.append_assoc]
  refine (reads_letters hcategory before []).append ?_
  refine (reads_spaces _ _).append ((hblank _).append ?_)
  refine (reads_letters hname before _).append ((hblank _).append ?_)
  exact (Outline.reads_text htext).append (hfeed _)

/-- A listing is read as its tokens. -/
theorem reads_listing (tokens before : List Token) :
    reader.Reads (.between, ⟨before, []⟩) (listing tokens).toList
      (.between, ⟨before ++ tokens, []⟩) := by
  induction tokens generalizing before with
  | nil =>
    rw [List.append_nil]
    exact .refl _
  | cons token tokens ih =>
    rw [toList_listing_cons, List.append_cons]
    exact (reads_listingLine token before).append (ih _)

theorem eq_of_listing_eq {tokens others : List Token} (h : listing tokens = listing others) :
    tokens = others := by
  have hreads := reads_listing tokens []
  rw [h] at hreads
  have hsame := hreads.unique (reads_listing others [])
  injection hsame with _ hplace
  injection hplace

/-- **A listing shows its tokens.** It has exactly one line for each token, with the group of the
token's kind filled up to ten places and the description of the token, and lists of tokens with the
same listing are the same. -/
theorem listing_lines_and_inj (tokens others : List Token) :
    Text.splitLines (listing tokens).toList = (tokens.map fun token ↦
        (padRight 10 token.kind.category ++ " " ++ token.describe).toList) ∧
      (Text.splitLines (listing tokens).toList).length = tokens.length ∧
      (listing tokens = listing others ↔ tokens = others) := by
  refine ⟨splitLines_listing tokens, ?_, eq_of_listing_eq, congrArg listing⟩
  rw [splitLines_listing, List.length_map]

/-- A text that would end its own quotation and open another line. -/
example : listing [⟨.string, "a\x22\nkeyword"⟩] =
    "literal    StringLiteral \x22a\\\x22\\nkeyword\x22\n" := by
  decide +kernel

end Token

end JPlusPlus
