import JPlusPlus.Proofs.Command.Session
import JPlusPlus.Proofs.Compile.Stages
import JPlusPlus.Proofs.Program.Outline
import JPlusPlus.Proofs.Script.Lines
import JPlusPlus.Proofs.Text.Json

/-!
# The formats agree

The formats of a single source are made along different ways: the script and the outline from what
all stages have made, the answer in JSON from a result that keeps no stage, the listing of tokens
from the first stage alone. Here are the four runs on the same source side by side. They tell of the
same script, or of the same fault; only the tokens are listed where the fault is of a later stage.

What a text stands for is found by reading it: the answer by `Json.read?`, and the program by its
outline, whose text no other program has.

## Main statements

* `Command.run_formats`: what the runs with the four formats have in common.
-/

namespace JPlusPlus.Command

variable {surroundings : Surroundings} {tree : FileTree} {input : Option Path} {text : String}

/-- The arguments ask for a source in a format and for nothing else. -/
def Asks (arguments : List String) (input : Option Path) (format : Format) : Prop :=
  Request.ofArguments arguments = .ok ⟨.single ⟨input, none, format, none⟩, false⟩

/-- A run on a source that can be read. -/
theorem run_of_asks {arguments : List String} {format : Format} (h : Asks arguments input format)
    (hsource : Step.source surroundings tree input = .ok text) :
    run surroundings arguments tree =
      ending (Step.emit surroundings false ⟨input, none, format, none⟩ text) tree := by
  have hrun : Step.runJob surroundings false ⟨input, none, format, none⟩ ⟨tree, "", ""⟩ =
      Step.emit surroundings false ⟨input, none, format, none⟩ text ⟨tree, "", ""⟩ := by
    rw [Step.runJob_eq]
    simp only [hsource]
  rw [run, h]
  show ending (Step.runJob surroundings false ⟨input, none, format, none⟩) tree = _
  rw [ending, ending, hrun]

/-! ## The runs one by one -/

/-- The message of a run that meets a fault of the source. -/
def faultText (fault : Fault) : String :=
  "Error: " ++ fault.stage.name ++ " error: " ++ fault.message ++ "\n"

theorem report_compile (fault : Fault) : Failure.report (.compile fault) = faultText fault := by
  have hreport : Failure.report (.compile fault) =
      "Error: " ++ (fault.stage.name ++ " error: " ++ fault.message) ++ "" ++ "\n" := rfl
  rw [hreport, faultText]
  simp only [String.append_assoc, String.empty_append]

/-- How a run ends that prints what is made of a source, with a line feed at the end, or tells why
nothing is made. -/
def compiledEnding {α : Type} (tree : FileTree) (output : α → String) : Except Fault α → Ending
  | .ok a => ⟨0, Step.endLine (output a), "", tree⟩
  | .error fault => ⟨1, "", faultText fault, tree⟩

theorem ending_eq_compiledEnding {α : Type} {step : Step Unit} {result : Except Fault α}
    {output : α → String}
    (h : step ⟨tree, "", ""⟩ =
      (do Step.writeOutput none (output (← Step.orFail .compile result))) ⟨tree, "", ""⟩) :
    ending step tree = compiledEnding tree output result := by
  rcases result with fault | a
  · rw [Step.bind_of_error (Step.orFail_error _ _ _)] at h
    rw [ending, h, compiledEnding, ← report_compile]
    dsimp only
    rw [String.empty_append]
  · have hwrite : Step.writeOutput none (output a) ⟨tree, "", ""⟩ =
        .ok () ⟨tree, "" ++ Step.endLine (output a), ""⟩ := rfl
    rw [Step.bind_of_ok (Step.orFail_ok _ _ _), hwrite, String.empty_append] at h
    rw [ending, h, compiledEnding]

theorem ending_script (surroundings : Surroundings) (input : Option Path) (text : String)
    (tree : FileTree) :
    ending (Step.emit surroundings false ⟨input, none, .script, none⟩ text) tree =
      compiledEnding tree Artifact.code (compileArtifact text) := by
  apply ending_eq_compiledEnding
  show Step.emitScript _ _ _ _ _ = _
  rw [Step.emitScript]
  rcases compileArtifact text with fault | artifact <;> rfl

theorem ending_outline (surroundings : Surroundings) (input : Option Path) (text : String)
    (tree : FileTree) :
    ending (Step.emit surroundings false ⟨input, none, .outline, none⟩ text) tree =
      compiledEnding tree (·.program.outline.pretty ++ "\n") (compileArtifact text) := by
  apply ending_eq_compiledEnding
  show (Step.emitOutline _ _ >>= fun _ ↦ Step.noteNotRun _) _ = _
  rw [Step.emitOutline]
  rcases compileArtifact text with fault | artifact <;> rfl

theorem ending_tokens (surroundings : Surroundings) (input : Option Path) (text : String)
    (tree : FileTree) :
    ending (Step.emit surroundings false ⟨input, none, .tokens, none⟩ text) tree =
      compiledEnding tree Token.listing (sourceTokens text) := by
  apply ending_eq_compiledEnding
  show (Step.emitTokens _ _ >>= fun _ ↦ Step.noteNotRun _) _ = _
  rw [Step.emitTokens]
  rcases sourceTokens text with fault | tokens <;> rfl

theorem ending_json (surroundings : Surroundings) (input : Option Path) (text : String)
    (tree : FileTree) :
    ∃ err, ending (Step.emit surroundings false ⟨input, none, .json, none⟩ text) tree =
      ⟨if (compile text).isSuccess then 0 else 1, (compile text).json.pretty ++ "\n", err,
        tree⟩ := by
  have hwrite : Step.writeOutput none ((compile text).json.pretty ++ "\n") ⟨tree, "", ""⟩ =
      .ok () ⟨tree, (compile text).json.pretty ++ "\n", ""⟩ := by
    have hprint : Step.writeOutput none ((compile text).json.pretty ++ "\n") ⟨tree, "", ""⟩ =
        .ok () ⟨tree, "" ++ Step.endLine ((compile text).json.pretty ++ "\n"), ""⟩ := rfl
    rw [hprint, Step.endLine_lineFeed, String.empty_append]
  have hemit : Step.emit surroundings false ⟨input, none, .json, none⟩ text =
      Step.emitJson ⟨input, none, .json, none⟩ text >>= fun _ ↦ pure () := rfl
  rw [hemit, Step.emitJson, ending]
  cases hsuccess : (compile text).isSuccess with
  | true =>
    rw [Step.bind_pure_unit, Step.bind_of_ok hwrite]
    exact ⟨_, rfl⟩
  | false =>
    rw [Step.bind_pure_unit, Step.bind_of_ok hwrite]
    exact ⟨_, rfl⟩

/-! ## The runs together -/

theorem json_of_ok {code : String} (h : compileScript text = .ok code) :
    (compile text).json =
      .obj [("success", .bool true), ("code", .str code), ("errors", .arr [])] := by
  rw [compile, h]
  rfl

theorem json_of_error {fault : Fault} (h : compileScript text = .error fault) :
    (compile text).json =
      .obj [("success", .bool false), ("errors", .arr [(Diagnostic.ofFault fault).json])] := by
  rw [compile, h]
  rfl

/-- The line feed after the answer is a blank of JSON. -/
theorem read?_answer (result : CompileResult) :
    Json.read? (result.json.pretty ++ "\n") = some result.json := by
  have hblank : ∀ c ∈ "\n".toList, Json.isBlank c = true := List.forall_mem_singleton.mpr rfl
  exact Json.read?_pretty result.json hblank

/-- **The formats agree.** On the same source the runs for the script, the outline and the answer in
JSON have the same exit code. When it is 0, they tell of one script: it is printed with a line feed,
it is the code in the answer, and it is the code of the program whose outline is printed. When it is
1, they tell of one fault. The run for the tokens fails with it exactly when scanning does. -/
theorem run_formats {scriptArguments outlineArguments jsonArguments tokensArguments : List String}
    (hscript : Asks scriptArguments input .script) (houtline : Asks outlineArguments input .outline)
    (hjson : Asks jsonArguments input .json) (htokens : Asks tokensArguments input .tokens)
    (hsource : Step.source surroundings tree input = .ok text) :
    let script := run surroundings scriptArguments tree
    let outline := run surroundings outlineArguments tree
    let json := run surroundings jsonArguments tree
    let tokens := run surroundings tokensArguments tree
    (script.exit = 0 ∨ script.exit = 1) ∧ outline.exit = script.exit ∧ json.exit = script.exit ∧
      (script.exit = 0 → tokens.exit = 0 ∧ ∃ code answer, script.stdout = code ++ "\n" ∧
        Json.read? json.stdout = some answer ∧ answer.field? "code" = some (.str code) ∧
        (∃ program : Program, sourceProgram text = .ok program ∧
          outline.stdout = program.outline.pretty ++ "\n") ∧
        ∀ program : Program, outline.stdout = program.outline.pretty ++ "\n" →
          program.code = code) ∧
      (script.exit = 1 → ∃ (stage : Stage) (message : String) (answer error : Json),
        compileScript text = .error ⟨stage, message⟩ ∧
        script.stderr = "Error: " ++ stage.name ++ " error: " ++ message ++ "\n" ∧
        outline.stderr = script.stderr ∧ script.stdout = "" ∧ outline.stdout = "" ∧
        Json.read? json.stdout = some answer ∧ answer.field? "success" = some (.bool false) ∧
        answer.field? "code" = none ∧ answer.field? "errors" = some (.arr [error]) ∧
        error.field? "message" = some (.str message) ∧
        (stage = .scan → tokens.exit = 1 ∧ tokens.stderr = script.stderr) ∧
        (stage ≠ .scan → tokens.exit = 0)) := by
  intro script outline json tokens
  have hscript : script = compiledEnding tree Artifact.code (compileArtifact text) :=
    (run_of_asks hscript hsource).trans (ending_script _ _ _ _)
  have houtline : outline =
      compiledEnding tree (·.program.outline.pretty ++ "\n") (compileArtifact text) :=
    (run_of_asks houtline hsource).trans (ending_outline _ _ _ _)
  have htokens : tokens = compiledEnding tree Token.listing (sourceTokens text) :=
    (run_of_asks htokens hsource).trans (ending_tokens _ _ _ _)
  obtain ⟨err, hjson⟩ : ∃ err, json = ⟨if (compile text).isSuccess then 0 else 1,
      (compile text).json.pretty ++ "\n", err, tree⟩ := by
    obtain ⟨err, hend⟩ := ending_json surroundings input text tree
    exact ⟨err, (run_of_asks hjson hsource).trans hend⟩
  obtain ⟨fault, ts, hartifact, hts⟩ | ⟨ts, program, hartifact, hts, hprogram⟩ :
      (∃ fault ts, compileArtifact text = .error fault ∧
        sourceTokens text = if fault.stage = .scan then .error fault else .ok ts) ∨
      ∃ ts program, compileArtifact text = .ok ⟨ts, program, program.code⟩ ∧
        sourceTokens text = .ok ts ∧ sourceProgram text = .ok program := by
    obtain ⟨fault, hartifact, hts, hstage⟩ | ⟨fault, ts, hartifact, hts, hstage⟩ | hdone :=
      compileArtifact_cases text
    · exact .inl ⟨fault, [], hartifact, by rw [if_pos hstage, hts]⟩
    · exact .inl ⟨fault, ts, hartifact, by rw [if_neg hstage, hts]⟩
    · exact .inr hdone
  · -- The fault is the same for all; the run for the tokens meets it if it is one of scanning.
    have hcompile := compileScript_of_error hartifact
    have hfailed : (compile text).isSuccess = false := by rw [compile, hcompile]; rfl
    rw [hartifact] at hscript houtline
    rw [hscript, houtline, hjson, htokens, hts, hfailed]
    refine ⟨.inr rfl, rfl, rfl, fun h ↦ absurd h.symm Nat.zero_ne_one, fun _ ↦ ?_⟩
    refine ⟨fault.stage, fault.message, (compile text).json, (Diagnostic.ofFault fault).json,
      hcompile, rfl, rfl, rfl, rfl, read?_answer _, ?_⟩
    rw [json_of_error hcompile]
    refine ⟨rfl, rfl, rfl, rfl, fun hscan ↦ ?_, fun hlater ↦ ?_⟩
    · rw [if_pos hscan]
      exact ⟨rfl, rfl⟩
    · rw [if_neg hlater]
      rfl
  · have hcompile := compileScript_of_ok hartifact
    have hdone : (compile text).isSuccess = true := by rw [compile, hcompile]; rfl
    rw [hartifact] at hscript houtline
    rw [hscript, houtline, hjson, htokens, hts, hdone]
    refine ⟨.inl rfl, rfl, rfl, fun _ ↦ ?_, fun h ↦ absurd h Nat.zero_ne_one⟩
    have hfeed : Step.endLine program.code = program.code ++ "\n" :=
      if_neg (Script.getLast?_text_ne program.lower)
    refine ⟨rfl, program.code, _, hfeed, read?_answer _, ?_,
      ⟨program, hprogram, Step.endLine_lineFeed _⟩, fun other hother ↦ ?_⟩
    · rw [json_of_ok hcompile]
      rfl
    · have hprinted : program.outline.pretty ++ "\n" = other.outline.pretty ++ "\n" :=
        (Step.endLine_lineFeed _).symm.trans hother
      rw [Program.eq_of_outline_pretty_eq (String.append_left_inj "\n" |>.mp hprinted)]

/-- A source from the standard input that prints 1. The three formats tell of its script. -/
theorem run_formats_bol :
    let surroundings : Surroundings := ⟨Utf8.bytes "bol\n1\n", [], fun _ ↦ none⟩
    let script := run surroundings [] ⟨[], []⟩
    let outline := run surroundings ["--emit", "ast"] ⟨[], []⟩
    let json := run surroundings ["--emit=json"] ⟨[], []⟩
    let tokens := run surroundings ["--emit", "tokens"] ⟨[], []⟩
    (script.exit = 0 ∧ outline.exit = 0 ∧ json.exit = 0 ∧ tokens.exit = 0) ∧
      script.stdout = "console.log(1);\n" ∧
      (∃ answer, Json.read? json.stdout = some answer ∧
        answer.field? "code" = some (.str "console.log(1);")) ∧
      outline.stdout = "Program \x7b\n    body: [\n        Print \x7b\n" ++
        "            value: Number(\n                \"1\",\n            ),\n        \x7d,\n" ++
        "    ],\n\x7d\n" := by
  have hsource : Step.source ⟨Utf8.bytes "bol\n1\n", [], fun _ ↦ none⟩ ⟨[], []⟩ none =
      .ok "bol\n1\n" := rfl
  intro surroundings script outline json tokens
  have hscript : Asks [] none .script := rfl
  have houtline : Asks ["--emit", "ast"] none .outline := rfl
  have hjson : Asks ["--emit=json"] none .json := rfl
  have htokens : Asks ["--emit", "tokens"] none .tokens := rfl
  obtain ⟨hexits, houtlineExit, hjsonExit, hdone, hfails⟩ :=
    run_formats hscript houtline hjson htokens hsource
  have hprogram : sourceProgram "bol\n1\n" = .ok ⟨[.print (.number "1")]⟩ := by
    have hprint : Program.print ⟨[.print (.number "1")]⟩ = "bol\n1\n" := by decide
    rw [← hprint]
    exact sourceProgram_print rfl
  have hexit : script.exit = 0 := by
    refine hexits.resolve_right fun hone ↦ ?_
    obtain ⟨_, _, _, _, hfault, -⟩ := hfails hone
    cases compileScript_bol.symm.trans hfault
  obtain ⟨htokensExit, code, answer, hprinted, hread, hfield, ⟨program, hparse, houtput⟩, hcode⟩ :=
    hdone hexit
  obtain rfl : _ = program := Except.ok.inj (hprogram.symm.trans hparse)
  obtain rfl : "console.log(1);" = code := hcode _ houtput
  exact ⟨⟨hexit, houtlineExit.trans hexit, hjsonExit.trans hexit, htokensExit⟩, hprinted,
    ⟨answer, hread, hfield⟩, houtput.trans (by decide +kernel)⟩

end JPlusPlus.Command
