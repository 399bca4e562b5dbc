import JPlusPlus.Proofs.Text.Machine
import JPlusPlus.Text.Outline
import JPlusPlus.Token.Scan

/-!
# Outlines are told apart by their texts

Two outlines with the same text are the same, provided that their labels are words. That is shown by
reading the text back: a machine that skips all blanks finds the outline again, because every part
is followed by a comma and the margins add nothing. A bare label has no end of its own, so the
machine takes it together with the comma that follows it.

## Main statements

* `Outline.eq_of_pretty_eq`: outlines with words for labels are determined by their texts.
-/

namespace JPlusPlus.Outline

/-! ## Labels -/

/-- Whether a label is made of the characters of words. -/
def isLabel (name : String) : Bool := name.toList.all Scan.isWordChar

mutual

/-- Whether the labels in an outline are words. -/
def isPlain : Outline → Bool
  | label name => isLabel name
  | text _ => true
  | tagged name part => isLabel name && isPlain part
  | record name fields => isLabel name && arePlainFields fields
  | list items => arePlain items

/-- Whether the labels in the fields of a record are words. -/
def arePlainFields : List (String × Outline) → Bool
  | [] => true
  | (name, part) :: more => isLabel name && isPlain part && arePlainFields more

/-- Whether the labels in outlines are words. -/
def arePlain : List Outline → Bool
  | [] => true
  | item :: more => isPlain item && arePlain more

end

/-! ## The reader -/

/-- The tokens of outlines. A label is read letter by letter. -/
inductive Lexeme where
  /-- A character of a label. -/
  | letter (c : Char)
  /-- A quoted text. -/
  | text (value : String)
  /-- One of the marks around and between parts. -/
  | mark (c : Char)

/-- What part of a token comes next. -/
inductive Mode where
  /-- The start of a token. -/
  | between
  /-- More of a quoted text, of which `cs` are read. -/
  | within (cs : List Char)
  /-- What follows a backslash. -/
  | escape (cs : List Char)
  /-- More of the number of a character. -/
  | number (cs : List Char) (value : Nat)

/-- The character that a backslash and another character stand for. -/
def shortEscape? (c : Char) : Option Char :=
  [('0', '\x00'), ('t', '\t'), ('r', '\r'), ('n', '\n'), ('\x22', '\x22'), ('\\', '\\')].lookup c

/-- The mode after a character, with the token that the character completes. -/
def Mode.next : Mode → Char → Option (Mode × Option Lexeme)
  | between, c =>
    if c = ' ' || c = '\n' then some (between, none)
    else if c = '\x22' then some (within [], none)
    else if Scan.isWordChar c then some (between, some (.letter c))
    else some (between, some (.mark c))
  | within cs, c =>
    if c = '\x22' then some (between, some (.text (String.ofList cs)))
    else if c = '\\' then some (escape cs, none)
    else some (within (cs ++ [c]), none)
  | escape cs, c =>
    if c = 'u' then some (number cs 0, none)
    else (shortEscape? c).map fun d ↦ (within (cs ++ [d]), none)
  | number cs value, c =>
    if c = '\x7b' then some (number cs value, none)
    else if c = '\x7d' then some (within (cs ++ [Char.ofNat value]), none)
    else (Text.hexValue? c).map fun d ↦ (number cs (16 * value + d), none)

/-- What is open around a part. -/
inductive Frame where
  /-- A label with a single part. -/
  | tagged (head : String)
  /-- A record, with its label, the fields before the part and the name of the part. -/
  | field (head : String) (before : List (String × Outline)) (x : String)
  /-- A list, with the items before the part. -/
  | items (before : List Outline)

/-- What token comes next. -/
inductive Place where
  /-- A part, of whose label `word` is read; or the end of a list. -/
  | part (word : List Char) (stack : List Frame)
  /-- The name of a field, of which `word` is read; or the end of a record. -/
  | name (head : String) (before : List (String × Outline)) (word : List Char)
    (stack : List Frame)
  /-- The comma after a part. -/
  | done (item : Outline) (stack : List Frame)
  /-- The end of a label with a single part. -/
  | ends (head : String) (item : Outline) (stack : List Frame)

/-- The place after a part and its comma. -/
def Place.after (item : Outline) : List Frame → Place
  | [] => done item []
  | .tagged head :: stack => ends head item stack
  | .field head before x :: stack => name head (before ++ [(x, item)]) [] stack
  | .items before :: stack => part [] (.items (before ++ [item]) :: stack)

/-- The place after the end of a list. -/
def Place.endList : List Frame → Option Place
  | .items before :: stack => some (done (list before) stack)
  | _ => none

/-- The place after a token. -/
def Place.next : Place → Lexeme → Option Place
  | part word stack, .letter c => some (part (word ++ [c]) stack)
  | part _ stack, .text value => some (done (.text value) stack)
  | part word stack, .mark c =>
    if c = '(' then some (part [] (.tagged (String.ofList word) :: stack))
    else if c = '\x7b' then some (name (String.ofList word) [] [] stack)
    else if c = '[' then some (part [] (.items [] :: stack))
    else if c = ',' then some (after (label (String.ofList word)) stack)
    else if c = ']' then endList stack
    else none
  | name head before word stack, .letter c => some (name head before (word ++ [c]) stack)
  | name head before word stack, .mark c =>
    if c = ':' then some (part [] (.field head before (String.ofList word) :: stack))
    else if c = '\x7d' then some (done (record head before) stack)
    else none
  | done item stack, .mark c => if c = ',' then some (after item stack) else none
  | ends head item stack, .mark c => if c = ')' then some (done (tagged head item) stack) else none
  | _, _ => none

/-- The reader of outlines. -/
def reader : Text.Machine Mode Lexeme Place := ⟨Mode.next, Place.next⟩

/-! ## Tokens

The tokens of outlines are read alike whatever is made of them, so what concerns the characters of
tokens alone is said for any places to go to. -/

section

variable {α : Type} {next : α → Lexeme → Option α}

/-- The digits of a number are read as the number. -/
theorem reads_toDigits (n : Nat) (read : List Char) (place : α) :
    Text.Machine.Reads ⟨Mode.next, next⟩ (.number read 0, place) (Nat.toDigits 16 n)
      (.number read n, place) := by
  have hdigit {d : Nat} (value : Nat) (hd : d < 16) :
      (Mode.number read value).next (Nat.digitChar d) =
        some (.number read (16 * value + d), none) := by
    have hbrace : ∀ d < 16, Nat.digitChar d ≠ '\x7b' ∧ Nat.digitChar d ≠ '\x7d' := by decide
    rw [Mode.next, if_neg (hbrace d hd).1, if_neg (hbrace d hd).2, Text.hexValue?_digitChar hd]
    rfl
  induction n using Nat.strongRecOn with
  | ind n ih =>
    rw [Nat.toDigits_eq_if (by decide)]
    split
    · next hn =>
      have hlast := hdigit 0 hn
      rw [Nat.mul_zero, Nat.zero_add] at hlast
      exact .skip hlast (.refl _)
    · next hn =>
      have hlast := hdigit (n / 16) (Nat.mod_lt n (by decide))
      rw [Nat.div_add_mod] at hlast
      exact (ih (n / 16) (by omega)).append (.skip hlast (.refl _))

/-- A character has a short escape, or it is written by its number, or it stands for itself. -/
theorem listedChar_cases (c : Char) :
    (∃ d, d ≠ 'u' ∧ shortEscape? d = some c ∧ Text.listedChar c = ['\\', d]) ∨
    Text.listedChar c = Text.numberEscape c ∨
    c ≠ '\x22' ∧ c ≠ '\\' ∧ Text.listedChar c = [c] := by
  rw [Text.listedChar]
  repeat' split
  all_goals try subst c
  · exact .inl ⟨'0', by decide, rfl, rfl⟩
  · exact .inl ⟨'t', by decide, rfl, rfl⟩
  · exact .inl ⟨'r', by decide, rfl, rfl⟩
  · exact .inl ⟨'n', by decide, rfl, rfl⟩
  · exact .inl ⟨'\x22', by decide, rfl, rfl⟩
  · exact .inl ⟨'\\', by decide, rfl, rfl⟩
  · next hquote hslash _ => exact .inr (.inr ⟨hquote, hslash, rfl⟩)
  · exact .inr (.inl rfl)

/-- A character of a quoted text is read back. -/
theorem reads_listedChar (c : Char) (read : List Char) (place : α) :
    Text.Machine.Reads ⟨Mode.next, next⟩ (.within read, place) (Text.listedChar c)
      (.within (read ++ [c]), place) := by
  obtain ⟨d, hd, hshort, he⟩ | he | ⟨hquote, hslash, he⟩ := listedChar_cases c
  · have hescape : (Mode.escape read).next d = some (.within (read ++ [c]), none) := by
      rw [Mode.next, if_neg hd, hshort]
      rfl
    rw [he]
    exact .skip rfl (.skip hescape (.refl _))
  · have hend : (Mode.number read c.toNat).next '\x7d' = some (.within (read ++ [c]), none) := by
      rw [Mode.next, if_neg (by decide), if_pos rfl, Char.ofNat_toNat]
    rw [he, Text.numberEscape]
    refine .skip rfl (.skip rfl (.skip rfl ?_))
    exact (reads_toDigits c.toNat read place).append (.skip hend (.refl _))
  · have hmode : (Mode.within read).next c = some (.within (read ++ [c]), none) := by
      rw [Mode.next, if_neg hquote, if_neg hslash]
    rw [he]
    exact .skip hmode (.refl _)

theorem reads_listedChars (cs read : List Char) (place : α) :
    Text.Machine.Reads ⟨Mode.next, next⟩ (.within read, place) (cs.flatMap Text.listedChar)
      (.within (read ++ cs), place) := by
  induction cs generalizing read with
  | nil =>
    rw [List.append_nil]
    exact .refl _
  | cons c cs ih =>
    rw [List.flatMap_cons, List.append_cons]
    exact (reads_listedChar c read place).append (ih _)

/-- A quoted text is read as one token, where one may come. -/
theorem reads_text {value : String} {place place' : α}
    (hplace : next place (.text value) = some place') :
    Text.Machine.Reads ⟨Mode.next, next⟩ (.between, place) (Text.listed value).toList
      (.between, place') := by
  have hend : (Mode.within value.toList).next '\x22' = some (.between, some (.text value)) := by
    rw [Mode.next, if_pos rfl, String.ofList_toList]
  rw [Text.listed, Text.quoted, String.toList_ofList]
  refine .skip rfl ((reads_listedChars value.toList [] _).append ?_)
  exact .move hend hplace (.refl _)

/-- Characters of words are read letter by letter, where letters may come. -/
theorem reads_letters {place : List Char → α}
    (hplace : ∀ word c, next (place word) (.letter c) = some (place (word ++ [c])))
    {cs : List Char} (h : ∀ c ∈ cs, Scan.isWordChar c = true) (word : List Char) :
    Text.Machine.Reads ⟨Mode.next, next⟩ (.between, place word) cs
      (.between, place (word ++ cs)) := by
  induction cs generalizing word with
  | nil =>
    rw [List.append_nil]
    exact .refl _
  | cons c cs ih =>
    obtain ⟨hc, hcs⟩ := List.forall_mem_cons.mp h
    have hne {d : Char} (hd : Scan.isWordChar d = false) : c ≠ d := by
      rintro rfl
      exact Bool.false_ne_true (hd.symm.trans hc)
    have hmode : Mode.between.next c = some (.between, some (.letter c)) := by
      simp [Mode.next, hne (d := ' ') rfl, hne (d := '\n') rfl, hne (d := '\x22') rfl, hc]
    rw [List.append_cons]
    exact .move hmode (hplace word c) (ih hcs _)

theorem reads_blanks {cs : List Char} (h : ∀ c ∈ cs, c = ' ' ∨ c = '\n') (place : α) :
    Text.Machine.Reads ⟨Mode.next, next⟩ (.between, place) cs (.between, place) := by
  apply Text.Machine.reads_skipAll
  intro c hc
  rcases h c hc with rfl | rfl <;> rfl

end

/-- A quoted text is read where a part comes. -/
theorem reads_listed (value : String) (stack : List Frame) :
    reader.Reads (.between, .part [] stack) (Text.listed value).toList
      (.between, .done (text value) stack) :=
  reads_text rfl

/-! ## Outlines -/

theorem reads_margin (depth : Nat) (place : Place) :
    reader.Reads (.between, place) (margin depth).toList (.between, place) := by
  apply reads_blanks
  intro c hc
  rw [margin, String.toList_ofList] at hc
  exact .inl (List.eq_of_mem_replicate hc)

/-- A word is read letter by letter, where letters may come. -/
theorem reads_word {place : List Char → Place}
    (hplace : ∀ word c, (place word).next (.letter c) = some (place (word ++ [c]))) {x : String}
    (h : isLabel x = true) :
    reader.Reads (.between, place []) x.toList (.between, place x.toList) :=
  reads_letters hplace (List.all_eq_true.mp h) []

theorem reads_mark {c : Char} {place place' : Place}
    (hmode : Mode.between.next c = some (.between, some (.mark c)))
    (hplace : place.next (.mark c) = some place') :
    reader.Reads (.between, place) [c] (.between, place') :=
  .move hmode hplace (.refl _)

/-- A mark with a blank after it. -/
theorem reads_mark_blank {c blank : Char} {place place' : Place}
    (hmode : Mode.between.next c = some (.between, some (.mark c)))
    (hplace : place.next (.mark c) = some place')
    (hblank : Mode.between.next blank = some (.between, none)) :
    reader.Reads (.between, place) [c, blank] (.between, place') :=
  .move hmode hplace (.skip hblank (.refl _))

/-- A label is read where a part comes. -/
theorem reads_label {x : String} (h : isLabel x = true) (stack : List Frame) :
    reader.Reads (.between, .part [] stack) x.toList (.between, .part x.toList stack) :=
  @reads_word (.part · stack) (fun _ _ ↦ rfl) x h

/-- The name of a field is read with its colon. -/
theorem reads_name {x : String} (h : isLabel x = true) (head : String)
    (before : List (String × Outline)) (stack : List Frame) :
    reader.Reads (.between, .name head before [] stack) (x.toList ++ ": ".toList)
      (.between, .part [] (.field head before x :: stack)) := by
  have hcolon : (Place.name head before x.toList stack).next (.mark ':') =
      some (.part [] (.field head before x :: stack)) := by
    rw [Place.next, if_pos rfl, String.ofList_toList]
  exact (@reads_word (.name head before · stack) (fun _ _ ↦ rfl) x h).append
    (reads_mark_blank rfl hcolon rfl)

mutual

/-- A part and the comma after it are read as the part, whatever is open around it. -/
theorem reads_prettyAt : ∀ (o : Outline), o.isPlain = true → ∀ (depth : Nat) (stack : List Frame),
    reader.Reads (.between, .part [] stack) ((prettyAt depth o).toList ++ ",\n".toList)
      (.between, .after o stack)
  | .label x, h, _, stack => by
    rw [isPlain] at h
    have hcomma :
        (Place.part x.toList stack).next (.mark ',') = some (.after (.label x) stack) := by
      rw [Place.next, if_neg (by decide), if_neg (by decide), if_neg (by decide), if_pos rfl,
        String.ofList_toList]
    rw [prettyAt]
    exact (reads_label h stack).append (reads_mark_blank rfl hcomma rfl)
  | .text value, _, _, stack => by
    rw [prettyAt]
    exact (reads_listed value stack).append (reads_mark_blank rfl rfl rfl)
  | .tagged x item, h, depth, stack => by
    rw [isPlain, Bool.and_eq_true] at h
    have hopen : (Place.part x.toList stack).next (.mark '(') =
        some (.part [] (.tagged x :: stack)) := by
      rw [Place.next, if_pos rfl, String.ofList_toList]
    rw [prettyAt]
    simp only [String.toList_append, List.append_assoc]
    refine (reads_label h.1 stack).append ((reads_mark_blank rfl hopen rfl).append ?_)
    refine (reads_margin (depth + 1) _).append ?_
    refine (reads_prettyAt item h.2 (depth + 1) (.tagged x :: stack)).append_append ?_
    exact (reads_margin depth _).append
      ((reads_mark rfl rfl).append (reads_mark_blank rfl rfl rfl))
  | .record x fields, h, depth, stack => by
    rw [isPlain, Bool.and_eq_true] at h
    have hopen : (Place.part x.toList stack).next (.mark '\x7b') = some (.name x [] [] stack) := by
      rw [Place.next, if_neg (by decide), if_pos rfl, String.ofList_toList]
    rw [prettyAt]
    simp only [String.toList_append, List.append_assoc]
    refine (reads_label h.1 stack).append (.skip rfl ?_)
    refine (reads_mark_blank rfl hopen rfl).append ?_
    refine (reads_prettyFields fields h.2 (depth + 1) x [] stack).append ?_
    exact (reads_margin depth _).append
      ((reads_mark rfl rfl).append (reads_mark_blank rfl rfl rfl))
  | .list [], _, _, stack => by
    rw [prettyAt]
    exact ((reads_mark rfl rfl).append (reads_mark rfl rfl)).append (reads_mark_blank rfl rfl rfl)
  | .list (item :: items), h, depth, stack => by
    rw [isPlain] at h
    rw [prettyAt]
    simp only [String.toList_append, List.append_assoc]
    refine (reads_mark_blank rfl rfl rfl).append ?_
    refine (reads_prettyItems (item :: items) h (depth + 1) [] stack).append ?_
    exact (reads_margin depth _).append
      ((reads_mark rfl rfl).append (reads_mark_blank rfl rfl rfl))

/-- Fields are read one after the other. -/
theorem reads_prettyFields : ∀ (fields : List (String × Outline)), arePlainFields fields = true →
    ∀ (depth : Nat) (head : String) (before : List (String × Outline)) (stack : List Frame),
    reader.Reads (.between, .name head before [] stack) (prettyFields depth fields).toList
      (.between, .name head (before ++ fields) [] stack)
  | [], _, _, _, _, _ => by
    rw [prettyFields, List.append_nil]
    exact .refl _
  | (x, item) :: more, h, depth, head, before, stack => by
    rw [arePlainFields, Bool.and_eq_true, Bool.and_eq_true] at h
    have hmore := reads_prettyFields more h.2 depth head (before ++ [(x, item)]) stack
    rw [List.append_assoc] at hmore
    rw [prettyFields]
    simp only [String.toList_append, List.append_assoc]
    refine (reads_margin depth _).append ((reads_name h.1.1 head before stack).append_append ?_)
    exact (reads_prettyAt item h.1.2 depth _).append_append hmore

/-- Items are read one after the other. -/
theorem reads_prettyItems : ∀ (items : List Outline), arePlain items = true →
    ∀ (depth : Nat) (before : List Outline) (stack : List Frame),
    reader.Reads (.between, .part [] (.items before :: stack)) (prettyItems depth items).toList
      (.between, .part [] (.items (before ++ items) :: stack))
  | [], _, _, _, _ => by
    rw [prettyItems, List.append_nil]
    exact .refl _
  | item :: more, h, depth, before, stack => by
    rw [arePlain, Bool.and_eq_true] at h
    have hmore := reads_prettyItems more h.2 depth (before ++ [item]) stack
    rw [List.append_assoc] at hmore
    rw [prettyItems]
    simp only [String.toList_append, List.append_assoc]
    exact (reads_margin depth _).append ((reads_prettyAt item h.1 depth _).append_append hmore)

end

/-- **Outlines with words for labels are determined by their texts.** -/
theorem eq_of_pretty_eq {a b : Outline} (ha : a.isPlain = true) (hb : b.isPlain = true)
    (h : a.pretty = b.pretty) : a = b := by
  have hreads := reads_prettyAt a ha 0 []
  have hreads' := reads_prettyAt b hb 0 []
  have htext : prettyAt 0 a = prettyAt 0 b := h
  rw [htext] at hreads
  have hsame := hreads.unique hreads'
  rw [Place.after, Place.after] at hsame
  injection hsame with _ hplace
  injection hplace

end JPlusPlus.Outline
