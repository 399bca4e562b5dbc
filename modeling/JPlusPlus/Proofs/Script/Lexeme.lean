import JPlusPlus.Proofs.Parse.Print
import JPlusPlus.Proofs.Script.Literals

/-!
# The lexemes of a script

The language of scripts is defined on lexemes: words, numbers, strings and marks. A text is taken
apart into lexemes from left to right, and each lexeme is as long as it can be. Only what scripts
are written with is read: there are no comments, no other kinds of strings, no numbers with a point
or a needless zero, and of the words only those of ASCII letters, digits and underscores. A slash is
always the mark of a division, which is right wherever it follows an operand.

No lexeme goes over the end of a line, so a script is read line by line. Whether a lexeme stands
first in its line is kept, since there is one mark for which it matters.

## Main statements

* `Script.Expr.lexesWhole_text`: the text of an expression is read as the expression's lexemes.
* `Script.lexedLines_text`: the text of a script is read as the script's lexemes.
-/

namespace JPlusPlus.Script

open Scan (isWordChar isWordStart)

/-! ## Taking a text apart -/

/-- What a script is made of. -/
inductive Lexeme where
  /-- A name or a keyword. -/
  | word (text : String)
  /-- A number, by its digits. -/
  | number (digits : String)
  /-- A string, by what it stands for. -/
  | string (value : String)
  /-- A mark. -/
  | mark (text : String)
  deriving DecidableEq, Repr

/-- The marks of the language, where no mark stands after a shorter one that it starts with. -/
def marks : List String :=
  [">>>=", "...", "===", "!==", "**=", "<<=", ">>=", ">>>", "&&=", "||=", "??=",
    "=>", "==", "!=", "<=", ">=", "&&", "||", "??", "?.", "++", "--", "+=", "-=", "*=", "/=", "%=",
    "&=", "|=", "^=", "<<", ">>", "**",
    "\x7b", "\x7d", "(", ")", "[", "]", ".", ";", ",", "<", ">", "+", "-", "*", "/", "%", "&", "|",
    "^", "!", "~", "?", ":", "="]

/-- The longest mark that a text starts with. -/
def mark? (cs : List Char) : Option String := marks.find? fun m ↦ m.toList.isPrefixOf cs

/-- What a string stands for, and what follows it, from the text after its first quotation mark. -/
def literal? : List Char → Option (List Char × List Char)
  | [] => none
  | '\\' :: c :: cs =>
    (escape? c).bind fun d ↦ (literal? cs).map fun (value, rest) ↦ (d :: value, rest)
  | c :: cs =>
    if c = '\x22' then some ([], cs)
    else if c = '\\' ∨ c = '\n' ∨ c = '\r' then none
    else (literal? cs).map fun (value, rest) ↦ (c :: value, rest)

/-- A number does not end before such a character, and neither does a word. -/
def goesOn (c : Char) : Bool := isWordChar c || c = '.'

/-- The number that the digits write, unless the text goes on in a way in which no number does. -/
def number? (digits rest : List Char) : Option Lexeme :=
  if isNumeral (String.ofList digits) && !rest.head?.any goesOn then
    some (.number (String.ofList digits))
  else none

/-- One step from the character `c`: the lexeme read, if any, and the characters left. -/
def lexeme? (c : Char) (cs : List Char) : Option (Option Lexeme × List Char) :=
  if c = ' ' then some (none, cs)
  else if isWordStart c then
    some (some (.word (String.ofList (c :: cs.takeWhile isWordChar))), cs.dropWhile isWordChar)
  else if c.isDigit then
    (number? (c :: cs.takeWhile Char.isDigit) (cs.dropWhile Char.isDigit)).map fun l ↦
      (some l, cs.dropWhile Char.isDigit)
  else if c = '\x22' then
    (literal? cs).map fun (value, rest) ↦ (some (.string (String.ofList value)), rest)
  else if c = '/' && cs.head?.any fun d ↦ d = '/' || d = '*' then none
  else (mark? (c :: cs)).map fun m ↦ (some (.mark m), cs.drop (m.length - 1))

theorem literal?_length_le {cs value rest : List Char} (h : literal? cs = some (value, rest)) :
    rest.length ≤ cs.length := by
  fun_induction literal? cs generalizing value with
  | case1 | case4 => cases h
  | case2 c cs ih =>
    obtain ⟨d, -, hd⟩ := Option.bind_eq_some_iff.mp h
    obtain ⟨⟨value', rest'⟩, hcs, he⟩ := Option.map_eq_some_iff.mp hd
    cases he
    have := ih hcs
    simp only [List.length_cons]
    omega
  | case3 cs =>
    cases h
    simp
  | case5 c cs _ _ _ ih =>
    obtain ⟨⟨value', rest'⟩, hcs, he⟩ := Option.map_eq_some_iff.mp h
    cases he
    have := ih hcs
    simp only [List.length_cons]
    omega

/-- A step leaves no more than what stands after the character it starts at. -/
theorem lexeme?_length_le {c : Char} {cs rest : List Char} {l : Option Lexeme}
    (h : lexeme? c cs = some (l, rest)) : rest.length ≤ cs.length := by
  rw [lexeme?] at h
  split at h
  · cases h
    exact Nat.le_refl _
  split at h
  · cases h
    exact (List.dropWhile_sublist _).length_le
  split at h
  · obtain ⟨l', -, he⟩ := Option.map_eq_some_iff.mp h
    cases he
    exact (List.dropWhile_sublist _).length_le
  split at h
  · obtain ⟨⟨value, rest'⟩, hl, he⟩ := Option.map_eq_some_iff.mp h
    cases he
    exact literal?_length_le hl
  split at h
  · cases h
  · obtain ⟨m, -, he⟩ := Option.map_eq_some_iff.mp h
    cases he
    simp

/-- The lexemes of a line. -/
def lexemes (cs : List Char) : Option (List Lexeme) :=
  match cs with
  | [] => some []
  | c :: cs =>
    match _h : lexeme? c cs with
    | none => none
    | some (l, rest) => (lexemes rest).map (l.toList ++ ·)
termination_by cs.length
decreasing_by exact Nat.lt_succ_of_le (lexeme?_length_le _h)

theorem lexemes_nil : lexemes [] = some [] := by rw [lexemes]

theorem lexemes_cons {c : Char} {cs rest : List Char} {l : Option Lexeme}
    (h : lexeme? c cs = some (l, rest)) :
    lexemes (c :: cs) = (lexemes rest).map (l.toList ++ ·) := by
  rw [lexemes]
  split
  · next hnone => simp [h] at hnone
  · next l' rest' hsome =>
    cases h.symm.trans hsome
    rfl

/-- The lexemes of a text, line by line. -/
def lexedLines (text : String) : Option (List (List Lexeme)) :=
  (Text.splitLines text.toList).mapM lexemes

/-! ## Texts that are read as lexemes -/

/-- The text is read as the lexemes, whatever follows it. -/
def Lexes (text : List Char) (ls : List Lexeme) : Prop :=
  ∀ rest, lexemes (text ++ rest) = (lexemes rest).map (ls ++ ·)

/-- The text is read as the lexemes, where no word or number goes on after it. -/
def LexesWhole (text : List Char) (ls : List Lexeme) : Prop :=
  ∀ rest, Ends goesOn rest → lexemes (text ++ rest) = (lexemes rest).map (ls ++ ·)

variable {text text' : List Char} {ls ls' : List Lexeme}

theorem Lexes.whole (h : Lexes text ls) : LexesWhole text ls := fun rest _ ↦ h rest

theorem map_append_append (found : Option (List Lexeme)) :
    (found.map (ls' ++ ·)).map (ls ++ ·) = found.map (ls ++ ls' ++ ·) := by
  rw [Option.map_map]
  exact congrArg (Option.map · found) (funext fun more ↦ (List.append_assoc ls ls' more).symm)

theorem Lexes.append (h : Lexes text ls) (h' : Lexes text' ls') :
    Lexes (text ++ text') (ls ++ ls') := by
  intro rest
  rw [List.append_assoc, h, h', map_append_append]

theorem Lexes.append_whole (h : Lexes text ls) (h' : LexesWhole text' ls') :
    LexesWhole (text ++ text') (ls ++ ls') := by
  intro rest hrest
  rw [List.append_assoc, h, h' rest hrest, map_append_append]

/-- What follows starts with a character that ends a word or a number. -/
theorem LexesWhole.append {c : Char} (h : LexesWhole text ls) (h' : Lexes (c :: text') ls')
    (hc : goesOn c = false) : Lexes (text ++ c :: text') (ls ++ ls') := by
  intro rest
  have hends : Ends goesOn (c :: text' ++ rest) := ends_cons hc _
  rw [List.append_assoc, h _ hends, h', map_append_append]

/-- A text with nothing after it. -/
theorem LexesWhole.lexemes_eq (h : LexesWhole text ls) : lexemes text = some ls := by
  have hnone := h [] nofun
  rwa [List.append_nil, lexemes_nil, Option.map_some, List.append_nil] at hnone

/-! ## One lexeme -/

theorem Lexes.nil : Lexes [] [] := fun _ ↦ Option.map_id'.symm

theorem Lexes.blank (h : Lexes text ls) : Lexes (' ' :: text) ls := by
  intro rest
  have hstep : lexeme? ' ' (text ++ rest) = some (none, text ++ rest) := rfl
  rw [List.cons_append, lexemes_cons hstep, h, map_append_append]
  rfl

/-- A mark of one character. -/
theorem Lexes.mark {c : Char} {m : String}
    (hm : ∀ rest, lexeme? c (text ++ rest) = some (some (.mark m), text ++ rest))
    (h : Lexes text ls) : Lexes (c :: text) (.mark m :: ls) := by
  intro rest
  rw [List.cons_append, lexemes_cons (hm rest), h, map_append_append]
  rfl

/-- A mark of two characters. -/
theorem Lexes.mark₂ {c d : Char} {m : String}
    (hm : ∀ rest, lexeme? c (d :: text ++ rest) = some (some (.mark m), text ++ rest))
    (h : Lexes text ls) : Lexes (c :: d :: text) (.mark m :: ls) := by
  intro rest
  rw [List.cons_append, lexemes_cons (hm rest), h, map_append_append]
  rfl

theorem lexemes_word {x : String} (h : isName x = true) {rest : List Char}
    (hrest : Ends isWordChar rest) :
    lexemes (x.toList ++ rest) = (lexemes rest).map ([.word x] ++ ·) := by
  obtain ⟨c, cs, hx, hc⟩ := head?_of_isName h
  have hcs : ∀ d ∈ cs, isWordChar d = true := fun d hd ↦
    isWordChar_of_isName h d (hx ▸ List.mem_cons_of_mem c hd)
  have hblank : c ≠ ' ' := by
    rintro rfl
    exact absurd hc (by decide)
  have hword : String.ofList (c :: cs) = x := by rw [← hx, String.ofList_toList]
  obtain ⟨htake, hdrop⟩ := span_append hcs hrest
  have hstep : lexeme? c (cs ++ rest) = some (some (.word x), rest) := by
    rw [lexeme?, if_neg hblank, if_pos hc, htake, hdrop, hword]
  rw [hx, List.cons_append, lexemes_cons hstep]
  rfl

/-- A word is read up to a character that is in no word. -/
theorem Lexes.word {x : String} {c : Char} (hx : isName x = true) (hc : isWordChar c = false)
    (h : Lexes (c :: text) ls) : Lexes (x.toList ++ c :: text) (.word x :: ls) := by
  intro rest
  have hends : Ends isWordChar (c :: text ++ rest) := ends_cons hc _
  rw [List.append_assoc, lexemes_word hx hends, h, map_append_append]
  rfl

theorem ends_isWordChar {rest : List Char} (h : Ends goesOn rest) : Ends isWordChar rest :=
  fun c hc ↦ (Bool.or_eq_false_iff.mp (h c hc)).1

theorem lexesWhole_word {x : String} (h : isName x = true) : LexesWhole x.toList [.word x] :=
  fun _ hrest ↦ lexemes_word h (ends_isWordChar hrest)

theorem lexesWhole_number {d : String} (h : isNumeral d = true) :
    LexesWhole d.toList [.number d] := by
  have hdigits := isDigits_of_isNumeral h
  obtain ⟨c, cs, hd, hc⟩ := head?_of_isDigits hdigits
  rw [isDigits, Bool.and_eq_true, List.all_eq_true, hd] at hdigits
  have hcs : ∀ e ∈ cs, e.isDigit = true := fun e he ↦ hdigits.2 e (List.mem_cons_of_mem c he)
  have hblank : c ≠ ' ' := by
    rintro rfl
    exact absurd hc (by decide)
  have hstart : ¬isWordStart c = true := by simp [Scan.isWordStart_of_isDigit hc]
  have hnumber : String.ofList (c :: cs) = d := by rw [← hd, String.ofList_toList]
  intro rest hrest
  have hends : Ends Char.isDigit rest := by
    intro e he
    have hword := ends_isWordChar hrest e he
    cases hdigit : e.isDigit with
    | false => rfl
    | true => rw [Scan.isWordChar_of_isDigit hdigit] at hword; exact hword
  have hstop : rest.head?.any goesOn = false := by
    cases hhead : rest.head? with
    | none => rfl
    | some e => exact hrest e hhead
  obtain ⟨htake, hdrop⟩ := span_append hcs hends
  have hstep : lexeme? c (cs ++ rest) = some (some (.number d), rest) := by
    rw [lexeme?, if_neg hblank, if_neg hstart, if_pos hc, htake, hdrop, number?, hnumber, h, hstop]
    rfl
  rw [hd, List.cons_append, lexemes_cons hstep]
  rfl

theorem literal?_escapeChar (c : Char) (cs : List Char) :
    literal? (escapeChar c ++ cs) =
      (literal? cs).map fun (value, rest) ↦ (c :: value, rest) := by
  rcases escapeChar_eq c with ⟨hplain, hslash, hquote, hfeed, hreturn⟩ | ⟨d, hescape, hd⟩
  · rw [hplain, List.singleton_append, literal?, if_neg hquote, if_neg]
    · simp [hslash, hfeed, hreturn]
    · exact fun d ds h _ ↦ hslash h
  · rw [hescape, List.cons_append, List.singleton_append, literal?, hd, Option.bind_some]

theorem literal?_rawText (value : String) (rest : List Char) :
    literal? (rawText value ++ '\x22' :: rest) = some (value.toList, rest) := by
  rw [rawText]
  induction value.toList with
  | nil => rfl
  | cons c cs ih => rw [List.flatMap_cons, List.append_assoc, literal?_escapeChar, ih]; rfl

theorem lexes_quote (value : String) : Lexes (quote value).toList [.string value] := by
  rw [toList_quote]
  intro rest
  have hstep : lexeme? '\x22' (rawText value ++ '\x22' :: rest) =
      some (some (.string value), rest) := by
    show (literal? (rawText value ++ '\x22' :: rest)).map _ = _
    rw [literal?_rawText, Option.map_some]
    dsimp only
    rw [String.ofList_toList]
  rw [List.cons_append, List.append_assoc, List.singleton_append, lexemes_cons hstep]
  rfl

theorem lexes_operator (op : ArithOp) :
    Lexes ([' '] ++ op.symbol.toList ++ [' ']) [.mark op.symbol] := by
  cases op with
  | add | sub | mul | div => exact .blank (.mark (fun _ ↦ rfl) (.blank .nil))

theorem lexes_comparison (op : CompareOp) :
    Lexes ([' '] ++ op.symbol.toList ++ [' ']) [.mark op.symbol] := by
  cases op with
  | less | greater => exact .blank (.mark (fun _ ↦ rfl) (.blank .nil))
  | eq | notEq | lessEq | greaterEq => exact .blank (.mark₂ (fun _ ↦ rfl) (.blank .nil))

/-! ## The lexemes of a script -/

/-- The lexemes of an expression. -/
def Expr.lexemes : Expr → List Lexeme
  | number digits => [.number digits]
  | string value => [.string value]
  | ident name => [.word name]
  | binary op left right =>
    .mark "(" :: (left.lexemes ++ .mark op.symbol :: (right.lexemes ++ [.mark ")"]))

/-- The lexemes of a condition. -/
def Condition.lexemes (condition : Condition) : List Lexeme :=
  condition.left.lexemes ++ .mark condition.op.symbol :: condition.right.lexemes

/-- The lexemes of the first line of a statement. -/
def Head.lexemes : Head → List Lexeme
  | letBinding name value =>
    .word "let" :: .word name :: .mark "=" :: (value.lexemes ++ [.mark ";"])
  | assign name value => .word name :: .mark "=" :: (value.lexemes ++ [.mark ";"])
  | log value =>
    .word "console" :: .mark "." :: .word "log" :: .mark "(" ::
      (value.lexemes ++ [.mark ")", .mark ";"])
  | ifElse condition =>
    .word "if" :: .mark "(" :: (condition.lexemes ++ [.mark ")", .mark "\x7b"])
  | whileLoop condition =>
    .word "while" :: .mark "(" :: (condition.lexemes ++ [.mark ")", .mark "\x7b"])
  | forLoop counter start stop =>
    .word "for" :: .mark "(" :: .word "let" :: .word counter :: .mark "=" :: (start.lexemes ++
      .mark ";" :: .word counter :: .mark "<" :: (stop.lexemes ++
        [.mark ";", .word counter, .mark "++", .mark ")", .mark "\x7b"]))
  | .break => [.word "break", .mark ";"]
  | .continue => [.word "continue", .mark ";"]

mutual

/-- The lexemes of a statement. -/
def Stmt.lexemes : Stmt → List Lexeme
  | .letBinding name value => Head.lexemes (.letBinding name value)
  | .assign name value => Head.lexemes (.assign name value)
  | .log value => Head.lexemes (.log value)
  | .ifElse condition body orElse =>
    Head.lexemes (.ifElse condition) ++ (Stmt.lexemesAll body ++ orElse.lexemes)
  | .whileLoop condition body =>
    Head.lexemes (.whileLoop condition) ++ (Stmt.lexemesAll body ++ [.mark "\x7d"])
  | .forLoop counter start stop body =>
    Head.lexemes (.forLoop counter start stop) ++ (Stmt.lexemesAll body ++ [.mark "\x7d"])
  | .break => Head.lexemes .break
  | .continue => Head.lexemes .continue

/-- The lexemes of statements. -/
def Stmt.lexemesAll : List Stmt → List Lexeme
  | [] => []
  | stmt :: more => stmt.lexemes ++ Stmt.lexemesAll more

/-- The lexemes from the brace that closes the block of a conditional on. -/
def Else.lexemes : Else → List Lexeme
  | .nothing => [.mark "\x7d"]
  | .otherwise body =>
    [.mark "\x7d", .word "else", .mark "\x7b"] ++ (Stmt.lexemesAll body ++ [.mark "\x7d"])
  | .elseIf condition body orElse =>
    .mark "\x7d" :: .word "else" :: Head.lexemes (.ifElse condition) ++
      (Stmt.lexemesAll body ++ orElse.lexemes)

end

/-! ## The text of a script is read as its lexemes -/

/-- Names are words, and numbers have no needless zeros. -/
def numeralForms : Forms := ⟨isName, isNumeral⟩

theorem Expr.lexesWhole_text {e : Expr} (h : e.hasForms numeralForms = true) :
    LexesWhole e.text.toList e.lexemes := by
  induction e with
  | number digits => exact lexesWhole_number h
  | string value => exact (lexes_quote value).whole
  | ident name => exact lexesWhole_word h
  | binary op left right ihl ihr =>
    obtain ⟨hl, hr⟩ := Bool.and_eq_true_iff.mp h
    have hopen : Lexes ['('] [.mark "("] := .mark (fun _ ↦ rfl) .nil
    have hclose : Lexes [')'] [.mark ")"] := .mark (fun _ ↦ rfl) .nil
    have hall := hopen.append (((ihl hl).append (lexes_operator op) rfl).append
      ((ihr hr).append hclose rfl))
    simpa [text, lexemes] using hall.whole

theorem Condition.lexesWhole_text {c : Condition} (h : c.hasForms numeralForms = true) :
    LexesWhole c.text.toList c.lexemes := by
  obtain ⟨hl, hr⟩ := Bool.and_eq_true_iff.mp h
  have hall := ((Expr.lexesWhole_text hl).append (lexes_comparison c.op) rfl).append_whole
    (Expr.lexesWhole_text hr)
  simpa [text, lexemes] using hall

/-- A name with what gives it a value. -/
theorem lexes_assigning {x : String} (h : isName x = true) :
    Lexes (x.toList ++ [' ', '=', ' ']) [.word x, .mark "="] :=
  .word h rfl (.blank (.mark (fun _ ↦ rfl) (.blank .nil)))

/-- A keyword and the parenthesis after it. -/
theorem lexes_opening {x : String} (h : isName x = true) :
    Lexes (x.toList ++ [' ', '(']) [.word x, .mark "("] :=
  .word h rfl (.blank (.mark (fun _ ↦ rfl) .nil))

/-- The parenthesis before a block, and the brace that opens the block. -/
theorem lexes_closing : Lexes [')', ' ', '\x7b'] [.mark ")", .mark "\x7b"] :=
  .mark (fun _ ↦ rfl) (.blank (.mark (fun _ ↦ rfl) .nil))

theorem lexes_semicolon : Lexes [';'] [.mark ";"] := .mark (fun _ ↦ rfl) .nil

/-- A semicolon within a line, and what follows it. -/
theorem Lexes.divide (h : Lexes text ls) : Lexes ([';', ' '] ++ text) (.mark ";" :: ls) :=
  lexes_semicolon.append (.blank h)

theorem Head.lexes_line {head : Head} (h : head.hasForms numeralForms = true) :
    Lexes head.line head.lexemes := by
  have hlet : Lexes ("let".toList ++ [' ']) [.word "let"] := .word (by decide) rfl (.blank .nil)
  cases head with
  | letBinding x value =>
    rw [hasForms, Bool.and_eq_true] at h
    have hline := hlet.append
      ((lexes_assigning h.1).append ((Expr.lexesWhole_text h.2).append lexes_semicolon rfl))
    simpa [line, text, mark, lexemes] using hline
  | assign x value =>
    rw [hasForms, Bool.and_eq_true] at h
    have hline := (lexes_assigning h.1).append
      ((Expr.lexesWhole_text h.2).append lexes_semicolon rfl)
    simpa [line, text, mark, lexemes] using hline
  | log value =>
    rw [hasForms] at h
    have hlog : Lexes ("log".toList ++ ['(']) [.word "log", .mark "("] :=
      .word (by decide) rfl (.mark (fun _ ↦ rfl) .nil)
    have hcall : Lexes ("console".toList ++ '.' :: ("log".toList ++ ['(']))
        [.word "console", .mark ".", .word "log", .mark "("] :=
      .word (by decide) rfl (.mark (fun _ ↦ rfl) hlog)
    have hend : Lexes [')', ';'] [.mark ")", .mark ";"] := .mark (fun _ ↦ rfl) lexes_semicolon
    have hline := hcall.append ((Expr.lexesWhole_text h).append hend rfl)
    simpa [line, text, mark, lexemes] using hline
  | ifElse c =>
    rw [hasForms] at h
    have hline := (lexes_opening (x := "if") (by decide)).append
      ((Condition.lexesWhole_text h).append lexes_closing rfl)
    simpa [line, text, mark, lexemes] using hline
  | whileLoop c =>
    rw [hasForms] at h
    have hline := (lexes_opening (x := "while") (by decide)).append
      ((Condition.lexesWhole_text h).append lexes_closing rfl)
    simpa [line, text, mark, lexemes] using hline
  | forLoop x start stop =>
    rw [hasForms, Bool.and_eq_true, Bool.and_eq_true] at h
    obtain ⟨⟨hx, hstart⟩, hstop⟩ := h
    have hstep : Lexes (x.toList ++ '+' :: '+' :: [')', ' ', '\x7b'])
        [.word x, .mark "++", .mark ")", .mark "\x7b"] :=
      .word hx rfl (.mark₂ (fun _ ↦ rfl) lexes_closing)
    have htest : Lexes (x.toList ++ [' ', '<', ' ']) [.word x, .mark "<"] :=
      .word hx rfl (.blank (.mark (fun _ ↦ rfl) (.blank .nil)))
    have hend := htest.append ((Expr.lexesWhole_text hstop).append hstep.divide rfl)
    have hline := (lexes_opening (x := "for") (by decide)).append
      (hlet.append ((lexes_assigning hx).append
        ((Expr.lexesWhole_text hstart).append hend.divide rfl)))
    simpa [line, text, mark, lexemes, counting] using hline
  | «break» =>
    have hline := Lexes.word (x := "break") (by decide) rfl lexes_semicolon
    simpa [line, text, mark, lexemes] using hline
  | «continue» =>
    have hline := Lexes.word (x := "continue") (by decide) rfl lexes_semicolon
    simpa [line, text, mark, lexemes] using hline

/-! ## Lines -/

/-- The line is read as the lexemes, and does not start with the mark that belongs to the line of
what it follows. -/
structure LexesLine (line : List Char) (ls : List Lexeme) : Prop where
  /-- The line is read as the lexemes. -/
  lexed : lexemes line = some ls
  /-- The first of them is no `++`. -/
  first : ls.head? ≠ some (.mark "++")

theorem Lexes.line {line : List Char} (h : Lexes line ls) (hfirst : ls.head? ≠ some (.mark "++")) :
    LexesLine line ls := ⟨h.whole.lexemes_eq, hfirst⟩

theorem Head.lexesLine {head : Head} (h : head.hasForms numeralForms = true) :
    LexesLine head.line head.lexemes := by
  refine (Head.lexes_line h).line ?_
  cases head with
  | letBinding | assign | log | ifElse | whileLoop | forLoop | «break» | «continue» =>
    simp [lexemes]

theorem LexesLine.margin {line : List Char} (h : LexesLine line ls) :
    LexesLine ("  ".toList ++ line) ls where
  lexed := by
    have hblanks : Lexes "  ".toList [] := .blank (.blank .nil)
    rw [hblanks, h.lexed]
    rfl
  first := h.first

/-- A brace that closes a block, and what follows it in its line. -/
theorem lexes_close (h : Lexes text ls) : Lexes ('\x7d' :: text) (.mark "\x7d" :: ls) :=
  .mark (fun _ ↦ rfl) h

theorem eachLine_close : EachLine LexesLine [close] [.mark "\x7d"] :=
  .single ((lexes_close .nil).line (by simp))

mutual

theorem Stmt.eachLine_lines : ∀ s : Stmt, s.hasForms numeralForms = true →
    EachLine LexesLine s.lines s.lexemes
  | .ifElse c body orElse, h => by
    have hline := Head.lexesLine (Stmt.hasForms_head h)
    rw [Stmt.hasForms, Bool.and_eq_true, Bool.and_eq_true] at h
    rw [Stmt.lines, Stmt.under, Stmt.lexemes]
    exact .cons hline (((Stmt.eachLine_linesAll body h.1.2).inner fun _ _ ↦ .margin).append
      (Else.eachLine_lines orElse h.2))
  | .whileLoop c body, h => by
    have hline := Head.lexesLine (Stmt.hasForms_head h)
    rw [Stmt.hasForms, Bool.and_eq_true] at h
    rw [Stmt.lines, Stmt.under, Stmt.lexemes]
    exact .cons hline (((Stmt.eachLine_linesAll body h.2).inner fun _ _ ↦ .margin).append
      eachLine_close)
  | .forLoop x start stop body, h => by
    have hline := Head.lexesLine (Stmt.hasForms_head h)
    rw [Stmt.hasForms, Bool.and_eq_true] at h
    rw [Stmt.lines, Stmt.under, Stmt.lexemes]
    exact .cons hline (((Stmt.eachLine_linesAll body h.2).inner fun _ _ ↦ .margin).append
      eachLine_close)
  | .letBinding _ _, h | .assign _ _, h | .log _, h | .break, h | .continue, h => by
    rw [Stmt.lines, Stmt.under, Stmt.lexemes]
    exact .single (Head.lexesLine (Stmt.hasForms_head h))

theorem Stmt.eachLine_linesAll : ∀ body : List Stmt, Stmt.haveForms numeralForms body = true →
    EachLine LexesLine (Stmt.linesAll body) (Stmt.lexemesAll body)
  | [], _ => by
    rw [Stmt.linesAll, Stmt.lexemesAll]
    exact .nil
  | s :: more, h => by
    rw [Stmt.haveForms, Bool.and_eq_true] at h
    rw [Stmt.linesAll, Stmt.lexemesAll]
    exact (Stmt.eachLine_lines s h.1).append (Stmt.eachLine_linesAll more h.2)

theorem Else.eachLine_lines : ∀ e : Else, e.hasForms numeralForms = true →
    EachLine LexesLine e.lines e.lexemes
  | .nothing, _ => by
    rw [Else.lines, Else.lexemes]
    exact eachLine_close
  | .otherwise body, h => by
    have hword : Lexes ("else".toList ++ [' ', '\x7b']) [.word "else", .mark "\x7b"] :=
      .word (by decide) rfl (.blank (.mark (fun _ ↦ rfl) .nil))
    have hline : LexesLine ("\x7d else ".toList ++ ['\x7b'])
        [.mark "\x7d", .word "else", .mark "\x7b"] :=
      (lexes_close (.blank hword)).line (by simp)
    rw [Else.hasForms] at h
    rw [Else.lines, Else.lexemes]
    exact .cons hline (((Stmt.eachLine_linesAll body h).inner fun _ _ ↦ .margin).append
      eachLine_close)
  | .elseIf c body orElse, h => by
    rw [Else.hasForms, Bool.and_eq_true, Bool.and_eq_true] at h
    have hhead : Lexes (Head.ifElse c).line (Head.ifElse c).lexemes := Head.lexes_line h.1.1
    have hword : Lexes ("else".toList ++ ' ' :: (Head.ifElse c).line)
        (.word "else" :: (Head.ifElse c).lexemes) := .word (by decide) rfl (.blank hhead)
    have hline := (lexes_close (.blank hword)).line (by simp)
    have htext : '\x7d' :: ' ' :: ("else".toList ++ ' ' :: (Head.ifElse c).line) =
        ("\x7d else if (" ++ c.text ++ ") ").toList ++ ['\x7b'] := by
      simp [Head.line, Head.text, Head.mark]
    rw [htext] at hline
    rw [Else.lines, Else.lexemes]
    exact .cons hline (((Stmt.eachLine_linesAll body h.1.2).inner fun _ _ ↦ .margin).append
      (Else.eachLine_lines orElse h.2))

end

theorem EachLine.mapM_lexemes {lines : List (List Char)} (h : EachLine LexesLine lines ls) :
    ∃ lexed, lines.mapM lexemes = some lexed ∧ lexed.flatten = ls ∧
      ∀ line ∈ lexed, line.head? ≠ some (.mark "++") := by
  induction h with
  | nil => exact ⟨[], rfl, rfl, nofun⟩
  | cons hline _ ih =>
    obtain ⟨lexed, hlexed, hflat, hfirst⟩ := ih
    refine ⟨_ :: lexed, ?_, ?_, List.forall_mem_cons.mpr ⟨hline.first, hfirst⟩⟩
    · rw [List.mapM_cons, hline.lexed, hlexed]
      rfl
    · rw [List.flatten_cons, hflat]

theorem oneLine_numeralForms : OneLine numeralForms where
  name hx := oneLine_plainForms.name hx
  digits hd := oneLine_plainForms.digits (isDigits_of_isNumeral hd)

/-- The text of a script is read as the script's lexemes. -/
theorem lexedLines_text {script : Script} (h : script.hasForms numeralForms = true) :
    ∃ lexed, lexedLines script.text = some lexed ∧
      lexed.flatten = Stmt.lexemesAll script.body ∧
        ∀ line ∈ lexed, line.head? ≠ some (.mark "++") := by
  rw [lexedLines, text_eq_intercalate oneLine_numeralForms h,
    Text.splitLines_intercalate (Stmt.isLine_linesAll oneLine_numeralForms script.body h)]
  exact (Stmt.eachLine_linesAll script.body h).mapM_lexemes

end JPlusPlus.Script
