import JPlusPlus.Proofs.Text.Machine
import JPlusPlus.Text.Json

/-!
# Reading JSON

A reader of the JSON that results are written in, by the rules of the standard and not by those of
the writer: blanks may stand between any two tokens, and a string may use every escape there is,
units of UTF-16 and pairs of surrogates included. The modes of the reader are inside of tokens. Its
places are inside of values, with a stack of the arrays and objects that are still open.

## Main statements

* `Json.read?_pretty`: what is written with a line to every item is read back, blanks after it
  included.
-/

namespace JPlusPlus.Json

/-! ## Tokens -/

/-- The tokens of JSON. -/
inductive Lexeme where
  /-- The bracket that opens an array. -/
  | openArray
  /-- The bracket that closes an array. -/
  | closeArray
  /-- The brace that opens an object. -/
  | openObject
  /-- The brace that closes an object. -/
  | closeObject
  /-- The comma between items. -/
  | comma
  /-- The colon after a name. -/
  | colon
  /-- A truth value. -/
  | bool (value : Bool)
  /-- A string. -/
  | str (value : String)

/-- The tokens of a single character. -/
def mark? (c : Char) : Option Lexeme :=
  [('[', Lexeme.openArray), (']', .closeArray), ('\x7b', .openObject), ('\x7d', .closeObject),
    (',', .comma), (':', .colon)].lookup c

/-- Whether a character may stand between tokens. -/
def isBlank (c : Char) : Bool := c ∈ [' ', '\t', '\n', '\r']

/-- The character that a backslash and another character stand for. -/
def shortEscape? (c : Char) : Option Char :=
  [('\x22', '\x22'), ('\\', '\\'), ('/', '/'), ('b', '\x08'), ('f', '\x0C'), ('n', '\n'),
    ('r', '\r'), ('t', '\t')].lookup c

/-- Whether a unit of UTF-16 is the first of a pair. -/
def isHigh (unit : Nat) : Bool := 0xD800 ≤ unit && unit < 0xDC00

/-- Whether a unit of UTF-16 is the second of a pair. -/
def isLow (unit : Nat) : Bool := 0xDC00 ≤ unit && unit < 0xE000

/-- What part of a token comes next. -/
inductive Mode where
  /-- The start of a token. -/
  | between
  /-- The rest of the word for a truth value. -/
  | word (left : List Char) (value : Bool)
  /-- More of a string, of which `text` is read. -/
  | within (text : List Char)
  /-- What follows a backslash, in the second unit of a pair if there is a first one. -/
  | escape (text : List Char) (high : Option Nat)
  /-- The digits of a unit, `left` of them after the next one. -/
  | digits (text : List Char) (high : Option Nat) (left value : Nat)
  /-- The second unit of a pair. -/
  | pair (text : List Char) (high : Nat)

/-- How a string goes on after a unit. A unit of a pair does not stand alone. -/
def Mode.afterUnit (text : List Char) (unit : Nat) : Option Nat → Option Mode
  | none =>
    if isHigh unit then some (pair text unit)
    else if isLow unit then none
    else some (within (text ++ [Char.ofNat unit]))
  | some high =>
    if isLow unit then
      some (within (text ++ [Char.ofNat (0x10000 + (high - 0xD800) * 0x400 + (unit - 0xDC00))]))
    else none

/-- The mode after a character, with the token that the character completes. -/
def Mode.next : Mode → Char → Option (Mode × Option Lexeme)
  | between, c =>
    if isBlank c then some (between, none)
    else if c = '\x22' then some (within [], none)
    else if c = 't' then some (word "rue".toList true, none)
    else if c = 'f' then some (word "alse".toList false, none)
    else (mark? c).map fun lexeme ↦ (between, some lexeme)
  | word [] _, _ => none
  | word [d] value, c => if c = d then some (between, some (.bool value)) else none
  | word (d :: e :: left) value, c => if c = d then some (word (e :: left) value, none) else none
  | within text, c =>
    if c = '\x22' then some (between, some (.str (String.ofList text)))
    else if c = '\\' then some (escape text none, none)
    else if c.toNat < 0x20 then none
    else some (within (text ++ [c]), none)
  | escape text high, c =>
    if c = 'u' then some (digits text high 3 0, none)
    else if high.isSome then none
    else (shortEscape? c).map fun d ↦ (within (text ++ [d]), none)
  | digits text high (left + 1) value, c =>
    (Text.hexValue? c).map fun d ↦ (digits text high left (16 * value + d), none)
  | digits text high 0 value, c => do
    return (← afterUnit text (16 * value + (← Text.hexValue? c)) high, none)
  | pair text high, c => if c = '\\' then some (escape text (some high), none) else none

/-! ## Values -/

/-- What is open around a value. -/
inductive Frame where
  /-- An array, with the items before the value. -/
  | items (before : List Json)
  /-- An object, with the fields before the value and the name of the value. -/
  | field (before : List (String × Json)) (name : String)

/-- What token comes next. -/
inductive Place where
  /-- The first of a value; or the end of an array that has no items. -/
  | value (stack : List Frame)
  /-- The name of a field; or the end of an object that has no fields. -/
  | name (before : List (String × Json)) (stack : List Frame)
  /-- The colon after a name. -/
  | colon (before : List (String × Json)) (name : String) (stack : List Frame)
  /-- What follows a value. -/
  | after (value : Json) (stack : List Frame)

/-- The place after a token. After a comma, an array has an item and an object has a field, so that
neither can end there. -/
def Place.next : Place → Lexeme → Option Place
  | value stack, .bool b => some (after (.bool b) stack)
  | value stack, .str s => some (after (.str s) stack)
  | value stack, .openArray => some (value (.items [] :: stack))
  | value stack, .openObject => some (name [] stack)
  | value (.items [] :: stack), .closeArray => some (after (.arr []) stack)
  | name before stack, .str s => some (colon before s stack)
  | name [] stack, .closeObject => some (after (.obj []) stack)
  | colon before x stack, .colon => some (value (.field before x :: stack))
  | after v (.items before :: stack), .comma => some (value (.items (before ++ [v]) :: stack))
  | after v (.items before :: stack), .closeArray => some (after (.arr (before ++ [v])) stack)
  | after v (.field before x :: stack), .comma => some (name (before ++ [(x, v)]) stack)
  | after v (.field before x :: stack), .closeObject =>
    some (after (.obj (before ++ [(x, v)])) stack)
  | _, _ => none

/-- The reader of JSON. -/
def reader : Text.Machine Mode Lexeme Place := ⟨Mode.next, Place.next⟩

/-- The value that a text is, if it is one. -/
def read? (text : String) : Option Json := do
  match ← text.toList.foldlM reader.next (.between, .value []) with
  | (.between, .after value []) => return value
  | _ => none

/-- The value of a field of an object. -/
def field? (name : String) : Json → Option Json
  | obj fields => fields.lookup name
  | _ => none

/-! ## Strings -/

theorem hexValue?_hexDigit (n : Nat) : Text.hexValue? (hexDigit n) = some (n % 16) :=
  Text.hexValue?_digitChar (Nat.mod_lt n (by decide))

/-- A short escape stands for its character. -/
theorem reads_shortEscape {c d : Char} (h : shortEscape? d = some c) (hd : d ≠ 'u')
    (text : List Char) (place : Place) :
    reader.Reads (.within text, place) ['\\', d] (.within (text ++ [c]), place) := by
  have hescape : (Mode.escape text none).next d = some (.within (text ++ [c]), none) := by
    rw [Mode.next, if_neg hd, h]
    rfl
  exact .skip rfl (.skip hescape (.refl _))

/-- A character below U+0020 is read back from its number. -/
theorem reads_control {c : Char} (h : c.toNat < 0x20) (text : List Char) (place : Place) :
    reader.Reads (.within text, place)
      ['\\', 'u', '0', '0', hexDigit (c.toNat / 16), hexDigit c.toNat]
      (.within (text ++ [c]), place) := by
  have hfirst : (Mode.digits text none 1 0).next (hexDigit (c.toNat / 16)) =
      some (.digits text none 0 (c.toNat / 16), none) := by
    have hdigit : 16 * 0 + c.toNat / 16 % 16 = c.toNat / 16 := by omega
    rw [Mode.next, hexValue?_hexDigit, Option.map_some, hdigit]
  have hlast : (Mode.digits text none 0 (c.toNat / 16)).next (hexDigit c.toNat) =
      some (.within (text ++ [c]), none) := by
    have hunit : 16 * (c.toNat / 16) + c.toNat % 16 = c.toNat := Nat.div_add_mod _ 16
    have hplain : isHigh c.toNat = false ∧ isLow c.toNat = false := by
      simp only [isHigh, isLow, Bool.and_eq_false_iff, decide_eq_false_iff_not]
      omega
    rw [Mode.next, hexValue?_hexDigit]
    simp only [bind, Option.bind, pure, hunit, Mode.afterUnit, hplain, Bool.false_eq_true, if_false,
      Char.ofNat_toNat]
  exact .skip rfl (.skip rfl (.skip rfl (.skip rfl (.skip hfirst (.skip hlast (.refl _))))))

/-- A character has a short escape, or it is a control that has its number, or it stands for
itself. -/
theorem escapeChar_cases (c : Char) :
    (∃ d, d ≠ 'u' ∧ shortEscape? d = some c ∧ escapeChar c = ['\\', d]) ∨
    c.toNat < 0x20 ∧
      escapeChar c = ['\\', 'u', '0', '0', hexDigit (c.toNat / 16), hexDigit c.toNat] ∨
    c ≠ '\x22' ∧ c ≠ '\\' ∧ ¬c.toNat < 0x20 ∧ escapeChar c = [c] := by
  rw [escapeChar]
  repeat' split
  all_goals try subst c
  · exact .inl ⟨'\x22', by decide, rfl, rfl⟩
  · exact .inl ⟨'\\', by decide, rfl, rfl⟩
  · exact .inl ⟨'b', by decide, rfl, rfl⟩
  · exact .inl ⟨'f', by decide, rfl, rfl⟩
  · exact .inl ⟨'n', by decide, rfl, rfl⟩
  · exact .inl ⟨'r', by decide, rfl, rfl⟩
  · exact .inl ⟨'t', by decide, rfl, rfl⟩
  · next h => exact .inr (.inl ⟨h, rfl⟩)
  · next hquote hslash _ _ _ _ _ h => exact .inr (.inr ⟨hquote, hslash, h, rfl⟩)

/-- A character of a string is read back. -/
theorem reads_escapeChar (c : Char) (text : List Char) (place : Place) :
    reader.Reads (.within text, place) (escapeChar c) (.within (text ++ [c]), place) := by
  obtain ⟨d, hd, hshort, he⟩ | ⟨hcontrol, he⟩ | ⟨hquote, hslash, hplain, he⟩ := escapeChar_cases c
  · rw [he]
    exact reads_shortEscape hshort hd text place
  · rw [he]
    exact reads_control hcontrol text place
  · rw [he]
    have hmode : (Mode.within text).next c = some (.within (text ++ [c]), none) := by
      rw [Mode.next, if_neg hquote, if_neg hslash, if_neg hplain]
    exact .skip hmode (.refl _)

theorem reads_escaped (cs text : List Char) (place : Place) :
    reader.Reads (.within text, place) (cs.flatMap escapeChar) (.within (text ++ cs), place) := by
  induction cs generalizing text with
  | nil =>
    rw [List.append_nil]
    exact .refl _
  | cons c cs ih =>
    rw [List.flatMap_cons, List.append_cons]
    exact (reads_escapeChar c text place).append (ih _)

/-- A string is read as one token. -/
theorem reads_writeString {s : String} {place place' : Place}
    (h : place.next (.str s) = some place') :
    reader.Reads (.between, place) (writeString s).toList (.between, place') := by
  have hend : (Mode.within s.toList).next '\x22' = some (.between, some (.str s)) := by
    rw [Mode.next, if_pos rfl, String.ofList_toList]
  rw [writeString, Text.quoted, String.toList_ofList]
  refine .skip rfl ((reads_escaped s.toList [] place).append ?_)
  exact .move hend h (.refl _)

/-! ## Reading what is written -/

theorem reads_blanks {cs : List Char} (h : ∀ c ∈ cs, isBlank c = true) (place : Place) :
    reader.Reads (.between, place) cs (.between, place) := by
  apply Text.Machine.reads_skipAll
  intro c hc
  show Mode.between.next c = _
  rw [Mode.next, if_pos (h c hc)]

theorem reads_newLine (depth : Nat) (place : Place) :
    reader.Reads (.between, place) (newLine depth).toList (.between, place) := by
  apply reads_blanks
  intro c hc
  rw [newLine, String.toList_append] at hc
  rcases List.mem_append.mp hc with hc | hc
  · obtain rfl : c = '\n' := by simpa using hc
    rfl
  · rw [String.toList_ofList] at hc
    obtain rfl := List.eq_of_mem_replicate hc
    rfl

theorem reads_writeBool (b : Bool) (stack : List Frame) :
    reader.Reads (.between, .value stack) (writeBool b).toList
      (.between, .after (.bool b) stack) := by
  cases b <;> rfl

/-- A mark is read as the token that it is. -/
theorem reads_mark {c : Char} {lexeme : Lexeme} {place place' : Place}
    (hmode : Mode.between.next c = some (.between, some lexeme))
    (h : place.next lexeme = some place') :
    reader.Reads (.between, place) [c] (.between, place') :=
  .move hmode h (.refl _)

theorem reads_mark_blank {c : Char} {lexeme : Lexeme} {place place' : Place}
    (hmode : Mode.between.next c = some (.between, some lexeme))
    (h : place.next lexeme = some place') :
    reader.Reads (.between, place) [c, ' '] (.between, place') :=
  (reads_mark hmode h).append (reads_blanks (List.forall_mem_singleton.mpr rfl) _)

mutual

/-- What is written for a value is read as the value, whatever is open around it. -/
theorem reads_prettyAt : ∀ (v : Json) (depth : Nat) (stack : List Frame),
    reader.Reads (.between, .value stack) (prettyAt depth v).toList (.between, .after v stack)
  | .bool b, _, stack => by
    rw [prettyAt]
    exact reads_writeBool b stack
  | .str s, _, _ => by
    rw [prettyAt]
    exact reads_writeString rfl
  | .arr [], _, _ => by
    rw [prettyAt]
    exact (reads_mark rfl rfl).append (reads_mark rfl rfl)
  | .arr (item :: items), depth, stack => by
    rw [prettyAt, String.toList_append, String.toList_append, String.toList_append,
      List.append_assoc, List.append_assoc]
    exact (reads_mark rfl rfl).append
      (reads_prettyItems (item :: items) (List.cons_ne_nil _ _) (depth + 1) depth [] stack)
  | .obj [], _, _ => by
    rw [prettyAt]
    exact (reads_mark rfl rfl).append (reads_mark rfl rfl)
  | .obj (field :: fields), depth, stack => by
    rw [prettyAt, String.toList_append, String.toList_append, String.toList_append,
      List.append_assoc, List.append_assoc]
    exact (reads_mark rfl rfl).append
      (reads_prettyFields (field :: fields) (List.cons_ne_nil _ _) (depth + 1) depth [] stack)

/-- What is written for the items that are left of an array, and its end, is read as the array. -/
theorem reads_prettyItems : ∀ (items : List Json), items ≠ [] →
    ∀ (depth outer : Nat) (before : List Json) (stack : List Frame),
    reader.Reads (.between, .value (.items before :: stack))
      ((prettyItems depth items).toList ++ ((newLine outer).toList ++ "]".toList))
      (.between, .after (.arr (before ++ items)) stack)
  | [], hne, _, _, _, _ => absurd rfl hne
  | [item], _, depth, outer, before, stack => by
    rw [prettyItems]
    simp only [String.toList_append, List.append_assoc]
    refine (reads_newLine depth _).append ((reads_prettyAt item depth _).append ?_)
    exact (reads_newLine outer _).append (reads_mark rfl rfl)
  | item :: next :: more, _, depth, outer, before, stack => by
    have hmore := reads_prettyItems (next :: more) (List.cons_ne_nil _ _) depth outer
      (before ++ [item]) stack
    rw [List.append_assoc] at hmore
    rw [prettyItems]
    simp only [String.toList_append, List.append_assoc]
    refine (reads_newLine depth _).append ((reads_prettyAt item depth _).append ?_)
    exact (reads_mark rfl rfl).append hmore

/-- What is written for the fields that are left of an object, and its end, is read as the
object. -/
theorem reads_prettyFields : ∀ (fields : List (String × Json)), fields ≠ [] →
    ∀ (depth outer : Nat) (before : List (String × Json)) (stack : List Frame),
    reader.Reads (.between, .name before stack)
      ((prettyFields depth fields).toList ++ ((newLine outer).toList ++ "\x7d".toList))
      (.between, .after (.obj (before ++ fields)) stack)
  | [], hne, _, _, _, _ => absurd rfl hne
  | [(x, v)], _, depth, outer, before, stack => by
    rw [prettyFields]
    simp only [String.toList_append, List.append_assoc]
    refine (reads_newLine depth _).append ((reads_writeString rfl).append ?_)
    refine (reads_mark_blank rfl rfl).append ((reads_prettyAt v depth _).append ?_)
    exact (reads_newLine outer _).append (reads_mark rfl rfl)
  | (x, v) :: next :: more, _, depth, outer, before, stack => by
    have hmore := reads_prettyFields (next :: more) (List.cons_ne_nil _ _) depth outer
      (before ++ [(x, v)]) stack
    rw [List.append_assoc] at hmore
    rw [prettyFields]
    simp only [String.toList_append, List.append_assoc]
    refine (reads_newLine depth _).append ((reads_writeString rfl).append ?_)
    refine (reads_mark_blank rfl rfl).append ((reads_prettyAt v depth _).append ?_)
    exact (reads_mark rfl rfl).append hmore

end

/-- **Reading back.** What is written with a line to every item is read as the value, also with
blanks after it. -/
theorem read?_pretty (v : Json) {blanks : String} (h : ∀ c ∈ blanks.toList, isBlank c = true) :
    read? (v.pretty ++ blanks) = some v := by
  have hreads :
      reader.Reads (.between, .value []) (v.pretty ++ blanks).toList (.between, .after v []) := by
    rw [String.toList_append]
    exact (reads_prettyAt v 0 []).append (reads_blanks h _)
  rw [Text.Machine.Reads] at hreads
  simp only [read?, hreads]
  rfl

end JPlusPlus.Json
