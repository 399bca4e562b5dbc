import JPlusPlus.Compile.Basic
import JPlusPlus.Proofs.Script.Lines

/-!
# Scripts written line by line

The text of a script is made from the inside out: the statements of a block are written first, and
what is written is taken apart into lines that are set in. Here a script is written from the outside
in. The depth of a statement is known when it is written, every line gets its whole margin at once,
and nothing that is written is looked at again.

The two ways agree as long as no name and no number holds a line feed. Strings may hold anything,
since they are written without line feeds, and neither the carriage returns nor the blanks in them
ever stand at the end of a line.

## Main statements

* `Script.Stmt.toList_layout`: what is written at a depth are the lines of the statement, each
  behind the margin of that depth.
* `Program.code_eq_layout`: the code of a program is its script written line by line.
-/

namespace JPlusPlus

namespace Script

/-! ## Writing at a depth -/

/-- The spaces before a line at the given depth. -/
def leading (depth : Nat) : String := String.ofList (List.replicate (2 * depth) ' ')

mutual

/-- A statement written at the given depth, without a line feed after its last line. -/
def Stmt.layout (depth : Nat) : Stmt → String
  | .letBinding name value => leading depth ++ "let " ++ name ++ " = " ++ value.text ++ ";"
  | .assign name value => leading depth ++ name ++ " = " ++ value.text ++ ";"
  | .log value => leading depth ++ "console.log(" ++ value.text ++ ");"
  | .ifElse condition body orElse =>
    leading depth ++ "if (" ++ condition.text ++ ") \x7b\n" ++
      (Stmt.layoutBody (depth + 1) body ++ (leading depth ++ "\x7d" ++ orElse.layout depth))
  | .whileLoop condition body =>
    leading depth ++ "while (" ++ condition.text ++ ") \x7b\n" ++
      (Stmt.layoutBody (depth + 1) body ++ (leading depth ++ "\x7d"))
  | .forLoop counter start stop body =>
    leading depth ++ "for (let " ++ counter ++ " = " ++ start.text ++ "; " ++ counter ++ " < " ++
      stop.text ++ "; " ++ counter ++ "++) \x7b\n" ++
      (Stmt.layoutBody (depth + 1) body ++ (leading depth ++ "\x7d"))
  | .break => leading depth ++ "break;"
  | .continue => leading depth ++ "continue;"

/-- Statements written at the given depth, with a line feed after each. -/
def Stmt.layoutBody (depth : Nat) : List Stmt → String
  | [] => ""
  | stmt :: more => stmt.layout depth ++ "\n" ++ Stmt.layoutBody depth more

/-- What follows the block of a conditional at the given depth, from its closing brace on. -/
def Else.layout (depth : Nat) : Else → String
  | .nothing => ""
  | .otherwise body =>
    " else \x7b\n" ++ (Stmt.layoutBody (depth + 1) body ++ (leading depth ++ "\x7d"))
  | .elseIf condition body orElse =>
    " else if (" ++ condition.text ++ ") \x7b\n" ++
      (Stmt.layoutBody (depth + 1) body ++ (leading depth ++ "\x7d" ++ orElse.layout depth))

end

/-- Statements written at the given depth, with a line feed between any two. -/
def Stmt.layoutAll (depth : Nat) : List Stmt → String
  | [] => ""
  | [stmt] => stmt.layout depth
  | stmt :: next :: more => stmt.layout depth ++ "\n" ++ Stmt.layoutAll depth (next :: more)

/-- A script written with its statements at the given depth. -/
def layout (depth : Nat) (script : Script) : String := Stmt.layoutAll depth script.body

/-! ## Lines at a depth -/

/-- Lines behind the margin of the given depth. -/
def atDepth (depth : Nat) (lines : List (List Char)) : List (List Char) :=
  lines.map ((leading depth).toList ++ ·)

@[simp] theorem atDepth_zero (lines : List (List Char)) : atDepth 0 lines = lines :=
  List.map_id lines

@[simp] theorem atDepth_nil (depth : Nat) : atDepth depth [] = [] := rfl

@[simp] theorem atDepth_cons (depth : Nat) (line : List Char) (lines : List (List Char)) :
    atDepth depth (line :: lines) = ((leading depth).toList ++ line) :: atDepth depth lines := rfl

@[simp] theorem atDepth_append (depth : Nat) (lines more : List (List Char)) :
    atDepth depth (lines ++ more) = atDepth depth lines ++ atDepth depth more :=
  List.map_append

theorem leading_succ (depth : Nat) :
    (leading (depth + 1)).toList = (leading depth).toList ++ "  ".toList := by
  have hspaces : List.replicate (2 * (depth + 1)) ' ' =
      List.replicate (2 * depth) ' ' ++ [' ', ' '] := by
    rw [Nat.mul_succ, ← List.replicate_append_replicate]
    rfl
  rw [leading, leading, String.toList_ofList, String.toList_ofList, hspaces]
  rfl

/-- A block is one depth further in. -/
@[simp] theorem atDepth_inner (depth : Nat) (lines : List (List Char)) :
    atDepth depth (inner lines) = atDepth (depth + 1) lines := by
  simp only [atDepth, inner, List.map_map, leading_succ, List.append_assoc]
  rfl

/-- Lines with a line feed after each. -/
def ended (lines : List (List Char)) : List Char := lines.flatMap (· ++ ['\n'])

theorem ended_append (lines more : List (List Char)) :
    ended (lines ++ more) = ended lines ++ ended more := List.flatMap_append

theorem intercalate_concat {lines : List (List Char)} (h : lines ≠ []) :
    ['\n'].intercalate lines ++ ['\n'] = ended lines := by
  have hend := Text.intercalate_append_append h (List.cons_ne_nil [] [])
  rw [Text.intercalate_append lines (List.cons_ne_nil [] [])] at hend
  simpa [ended] using hend.symm

/-- The first line of a block, the lines in it, and those from the closing brace on. -/
theorem intercalate_atDepth_block (depth : Nat) (first : List Char)
    (lines : List (List Char)) {more : List (List Char)} (h : more ≠ []) :
    ['\n'].intercalate (atDepth depth (first :: (inner lines ++ more))) =
      (leading depth).toList ++ first ++ '\n' ::
        (ended (atDepth (depth + 1) lines) ++ ['\n'].intercalate (atDepth depth more)) := by
  have hne : atDepth depth more ≠ [] := by simpa [atDepth] using h
  rw [atDepth_cons, atDepth_append, atDepth_inner, ← List.cons_append,
    Text.intercalate_append _ hne]
  simp [ended]

/-! ## What is written are the lines -/

theorem Stmt.linesAll_cons (s : Stmt) (more : List Stmt) :
    Stmt.linesAll (s :: more) = s.lines ++ Stmt.linesAll more := by
  rw [Stmt.linesAll, Stmt.lines, List.cons_append]

theorem intercalate_atDepth_close (depth : Nat) :
    ['\n'].intercalate (atDepth depth [close]) = (leading depth ++ "\x7d").toList := by
  simp [close]

mutual

/-- A statement is written as its lines, each behind the margin. -/
theorem Stmt.toList_layout (depth : Nat) : ∀ s : Stmt,
    (s.layout depth).toList = ['\n'].intercalate (atDepth depth s.lines)
  | .ifElse condition body orElse => by
    rw [Stmt.lines, Stmt.head, Stmt.under, intercalate_atDepth_block _ _ _ orElse.lines_ne_nil,
      ← Stmt.toList_layoutBody, ← Else.toList_layout]
    simp [Stmt.layout, Head.line, Head.text, Head.mark]
  | .whileLoop condition body => by
    rw [Stmt.lines, Stmt.head, Stmt.under, intercalate_atDepth_block _ _ _ (List.cons_ne_nil _ _),
      ← Stmt.toList_layoutBody, intercalate_atDepth_close]
    simp [Stmt.layout, Head.line, Head.text, Head.mark]
  | .forLoop counter start stop body => by
    rw [Stmt.lines, Stmt.head, Stmt.under, intercalate_atDepth_block _ _ _ (List.cons_ne_nil _ _),
      ← Stmt.toList_layoutBody, intercalate_atDepth_close]
    simp [Stmt.layout, Head.line, Head.text, Head.mark, counting]
  | .letBinding _ _ | .assign _ _ | .log _ | .break | .continue => by
    simp [Stmt.layout, Stmt.lines, Stmt.head, Stmt.under, Head.line, Head.text, Head.mark]

/-- So are the statements of a body, each line with its line feed. -/
theorem Stmt.toList_layoutBody (depth : Nat) : ∀ body : List Stmt,
    (Stmt.layoutBody depth body).toList = ended (atDepth depth (Stmt.linesAll body))
  | [] => by simp [Stmt.layoutBody, Stmt.linesAll, ended]
  | s :: more => by
    have hne : atDepth depth s.lines ≠ [] := List.cons_ne_nil _ _
    rw [Stmt.layoutBody, String.toList_append, String.toList_append, Stmt.toList_layout depth s,
      Stmt.toList_layoutBody depth more, Stmt.linesAll_cons, atDepth_append, ended_append,
      ← intercalate_concat hne]
    rfl

theorem Else.toList_layout (depth : Nat) : ∀ e : Else,
    (leading depth ++ "\x7d" ++ e.layout depth).toList =
      ['\n'].intercalate (atDepth depth e.lines)
  | .nothing => by simp [Else.layout, Else.lines, close]
  | .otherwise body => by
    rw [Else.lines, intercalate_atDepth_block _ _ _ (List.cons_ne_nil _ _),
      ← Stmt.toList_layoutBody, intercalate_atDepth_close]
    simp [Else.layout]
  | .elseIf condition body orElse => by
    rw [Else.lines, intercalate_atDepth_block _ _ _ orElse.lines_ne_nil,
      ← Stmt.toList_layoutBody, ← Else.toList_layout]
    simp [Else.layout]

end

theorem Stmt.toList_layoutAll (depth : Nat) : ∀ body : List Stmt,
    (Stmt.layoutAll depth body).toList = ['\n'].intercalate (atDepth depth (Stmt.linesAll body))
  | [] => by simp [Stmt.layoutAll, Stmt.linesAll]
  | [s] => by
    rw [Stmt.layoutAll, Stmt.toList_layout, Stmt.linesAll_cons, Stmt.linesAll, List.append_nil]
  | s :: next :: more => by
    have hne : atDepth depth s.lines ≠ [] := List.cons_ne_nil _ _
    have hmore : atDepth depth (Stmt.linesAll (next :: more)) ≠ [] := by
      rw [Stmt.linesAll]
      exact List.cons_ne_nil _ _
    rw [Stmt.layoutAll, String.toList_append, String.toList_append, Stmt.toList_layout depth s,
      Stmt.toList_layoutAll depth (next :: more), Stmt.linesAll_cons s, atDepth_append,
      Text.intercalate_append_append hne hmore]
    simp

/-! ## Scripts and programs -/

/-- The forms of names and numbers that hold no line feed. -/
def lineForms : Forms := ⟨fun x ↦ '\n' ∉ x.toList, fun digits ↦ '\n' ∉ digits.toList⟩

theorem oneLine_lineForms : OneLine lineForms := ⟨of_decide_eq_true, of_decide_eq_true⟩

theorem text_eq_layout {script : Script} (h : script.hasForms lineForms = true) :
    script.text = script.layout 0 := by
  rw [← String.toList_inj, text_eq_intercalate oneLine_lineForms h, layout, Stmt.toList_layoutAll,
    atDepth_zero]

/-- The text of a script is set in, line by line, to what is written at that depth. -/
theorem indent_text_eq_layoutBody {script : Script} (h : script.hasForms lineForms = true)
    (depth : Nat) :
    Text.indent (leading depth) script.text = Stmt.layoutBody depth script.body := by
  have hlines := Stmt.isLine_linesAll oneLine_lineForms script.body h
  rw [← String.toList_inj, Text.indent, String.toList_ofList,
    text_eq_intercalate oneLine_lineForms h, Text.indentLines_intercalate hlines,
    Stmt.toList_layoutBody, ended, atDepth, List.flatMap_map]

end Script

/-- **Setting blocks in line by line is writing them at their depth.** When no name and no number of
a program holds a line feed, its code is its script with every line written behind two spaces for
each block around it, whatever the strings hold. The same is true of the code as a part of other
code: taken apart into lines and set in by any depth, it is the script written at that depth. -/
theorem Program.code_eq_layout {p : Program} (h : p.hasForms Script.lineForms = true) :
    p.code = p.lower.layout 0 ∧
      ∀ depth, Text.indent (Script.leading depth) p.code =
        Script.Stmt.layoutBody depth p.lower.body := by
  have hforms : p.lower.hasForms Script.lineForms = true := by
    rwa [Program.hasForms_lower (by decide)]
  exact ⟨Script.text_eq_layout hforms, Script.indent_text_eq_layoutBody hforms⟩

/-- Strings with every kind of line break and with blanks at both ends, in a loop in a branch, and a
name that ends in a carriage return. -/
theorem Program.code_eq_layout_breaks :
    let p : Program := ⟨[.branch ⟨.string "\r\n", .eq, .ident "x\r"⟩
      [.whileLoop ⟨.number "1", .less, .number "2"⟩ [.print (.string "  a\n\r\n b\t \r")], .break]
      (.otherwise [.declare "x\r" none])]⟩
    p.hasForms Script.lineForms = true ∧ p.code = p.lower.layout 0 ∧
      ∀ depth, Text.indent (Script.leading depth) p.code =
        Script.Stmt.layoutBody depth p.lower.body :=
  ⟨by decide, Program.code_eq_layout (by decide)⟩

end JPlusPlus
