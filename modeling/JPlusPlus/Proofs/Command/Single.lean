import JPlusPlus.Proofs.Command.Session
import JPlusPlus.Proofs.Compile.Stages
import JPlusPlus.Proofs.Token.Slices
import Mathlib.Logic.Basic

/-!
# Runs on a single source

What a run without a directory leaves behind. A run that goes through changes at most the file of
its output. A run that fails leaves the files and the standard output as they are, but for two cases
in which the output is part of the task and was delivered before the failure: the answer in JSON
tells a fault of the source, and a script that was written to a file fails when it is run. A script
fails not only by its exit code: its runtime may not take it, or may not be waited for.

Whether something is left half done depends on the order of effects, which differs between the
formats; so the statement is assembled from what each format does once its source is read.

## Main statements

* `Step.runJob_cases`: what a run can come to.
* `Command.run_single`: what a run leaves, by its exit code.
-/

namespace JPlusPlus

/-- A script has a text exactly when its runtime ended with exit code 0. -/
theorem RunReport.text_cases (report : RunReport) :
    (report.exit = .code 0 ∧ ∃ text, report.text = .ok text) ∨
      report.exit ≠ .code 0 ∧ ∃ failure, report.text = .error failure := by
  obtain ⟨exit, stdout, stderr⟩ := report
  cases exit with
  | noInput => exact .inr ⟨nofun, _, rfl⟩
  | refused fault => exact .inr ⟨nofun, _, rfl⟩
  | lost fault => exact .inr ⟨nofun, _, rfl⟩
  | code exit =>
    by_cases hexit : exit = 0
    · exact .inl ⟨congrArg RunExit.code hexit, _, if_pos hexit⟩
    · exact .inr ⟨fun h ↦ hexit (RunExit.code.inj h), _, if_neg hexit⟩

namespace Step

variable {surroundings : Surroundings} {verbose : Bool} {job : Job} {tree after : FileTree}
  {text code : String}

/-! ## Runtimes -/

/-- The program that the name of a runtime leads to. -/
def runtime? (surroundings : Surroundings) (tree : FileTree) (name : String) :
    Except IoFault Executable :=
  if name = "" || '/' ∈ name.toList then program surroundings tree ⟨name⟩
  else searchProgram surroundings tree name .notFound surroundings.places

/-- The runtime does not start, it has no input or does not take the script, its end cannot be
waited for, or the script fails in it. -/
def RuntimeFails (surroundings : Surroundings) (tree : FileTree) (name code : String) : Prop :=
  match runtime? surroundings tree name with
  | .ok executable => (executable code).exit ≠ .code 0
  | .error _ => True

theorem runScript_cases (surroundings : Surroundings) (tree : FileTree) (name code : String) :
    (RuntimeFails surroundings tree name code ∧ ∃ failure, ∀ out err,
      runScript surroundings name code ⟨tree, out, err⟩ = .error failure ⟨tree, out, err⟩) ∨
    (¬RuntimeFails surroundings tree name code ∧ ∃ text, ∀ out err,
      runScript surroundings name code ⟨tree, out, err⟩ = .ok text ⟨tree, out, err⟩) := by
  have hfind (out err : String) : findRuntime surroundings name ⟨tree, out, err⟩ =
      orFail (.startRuntime name) (runtime? surroundings tree name) ⟨tree, out, err⟩ := rfl
  rw [RuntimeFails]
  rcases hruntime : runtime? surroundings tree name with fault | executable
  · simp only [hruntime, orFail_error] at hfind
    exact .inl ⟨trivial, _, fun out err ↦ bind_of_error (hfind out err)⟩
  · simp only [hruntime, orFail_ok] at hfind
    have hrun (out err : String) : runScript surroundings name code ⟨tree, out, err⟩ =
        orFail id (executable code).text ⟨tree, out, err⟩ := bind_of_ok (hfind out err)
    obtain ⟨hexit, text, htext⟩ | ⟨hexit, failure, htext⟩ := (executable code).text_cases
    · simp only [htext, orFail_ok] at hrun
      exact .inr ⟨not_not.mpr hexit, text, hrun⟩
    · simp only [htext, orFail_error] at hrun
      exact .inl ⟨hexit, failure, hrun⟩

/-! ## Files that may differ -/

/-- The files differ at most in the contents of the file that the output leads to. -/
def OutputOnly (output : Option Path) (before after : FileTree) : Prop :=
  ∀ l, after.contents? l ≠ before.contents? l →
    ∃ path, output = some path ∧ after.locate path = .ok l

theorem Delivers.outputOnly {output : Option Path} (h : Delivers tree output text after) :
    OutputOnly output tree after := by
  intro l hl
  rcases output with _ | path
  · obtain rfl : after = tree := h
    exact absurd rfl hl
  · refine ⟨path, rfl, Classical.byContradiction fun hlocate ↦ ?_⟩
    exact hl (h.writtenTo.others l hlocate)

/-! ## What each format does -/

theorem emitScript_of_error {fault : Fault} (h : compileScript text = .error fault)
    (session : Session) :
    emitScript surroundings verbose job text session = .error (.compile fault) session := by
  rcases hartifact : compileArtifact text with fault' | artifact
  · obtain rfl : fault' = fault := by
      rw [compileScript_of_error hartifact] at h
      exact Except.error.inj h
    rw [emitScript, hartifact]
    exact bind_of_error (orFail_error _ _ _)
  · rw [compileScript_of_ok hartifact] at h
    cases h

theorem emitScript_of_ok (h : compileScript text = .ok code) (surroundings : Surroundings)
    (verbose : Bool) (job : Job) (tree : FileTree) (out err : String) :
    ∃ err', (verbose = false → err' = err) ∧
      emitScript surroundings verbose job text ⟨tree, out, err⟩ =
        deliverScript surroundings job code ⟨tree, out, err'⟩ := by
  rcases hartifact : compileArtifact text with fault | artifact
  · rw [compileScript_of_error hartifact] at h
    cases h
  · obtain rfl : artifact.code = code := by
      rw [compileScript_of_ok hartifact] at h
      exact Except.ok.inj h
    rw [emitScript, hartifact, bind_of_ok (orFail_ok _ _ _)]
    cases verbose with
    | false => exact ⟨err, fun _ ↦ rfl, rfl⟩
    | true =>
      obtain ⟨⟨tree', out', err'⟩, hnote, htree, hout⟩ :=
        reports_noteProgress artifact ⟨tree, out, err⟩
      dsimp only at htree hout
      subst htree hout
      exact ⟨err', nofun, bind_of_ok hnote⟩

/-- A script that is to run from a file is written to the file, and fails in its runtime. -/
structure LeftBehind (surroundings : Surroundings) (tree : FileTree) (job : Job) (path : Path)
    (code : String) (after : FileTree) : Prop where
  /-- The output names the file. -/
  output : job.output = some path
  /-- The script is written there. -/
  delivers : Delivers tree (some path) code after
  /-- The runtime fails, with the files as they are then. -/
  runtime : ∃ runtime, job.runtime = some runtime ∧ RuntimeFails surroundings after runtime code

theorem LeftBehind.deliverScript_eq {path : Path}
    (h : LeftBehind surroundings tree job path code after) (out err : String) :
    ∃ failure, deliverScript surroundings job code ⟨tree, out, err⟩ =
      .error failure ⟨after, out, err⟩ := by
  obtain ⟨runtime, hruntime, hfails⟩ := h.runtime
  obtain ⟨-, failure, hrun⟩ | ⟨hsucceeds, -⟩ :=
    runScript_cases surroundings after runtime code
  · refine ⟨failure, ?_⟩
    have hwrite := writeOutput_of_delivers h.delivers out err
    rw [shown, String.append_empty] at hwrite
    simp only [deliverScript, h.output, hruntime, Option.isSome_some, Bool.true_or, if_true]
    rw [bind_of_ok hwrite]
    exact bind_of_error (hrun out err)
  · exact absurd hfails hsucceeds

/-- Once a script is made, it is delivered as asked for; or nothing has changed; or it was written
to a file before it failed in its runtime. -/
theorem deliverScript_cases (surroundings : Surroundings) (job : Job) (code : String)
    (tree : FileTree) (out err : String) :
    (∃ after out', deliverScript surroundings job code ⟨tree, out, err⟩ =
        .ok () ⟨after, out', err⟩ ∧ OutputOnly job.output tree after) ∨
      (∃ failure after, deliverScript surroundings job code ⟨tree, out, err⟩ =
        .error failure ⟨after, out, err⟩ ∧ tree.SameFiles after) ∨
      ∃ path after, LeftBehind surroundings tree job path code after := by
  rcases hruntime : job.runtime with _ | runtime
  · -- The script is only written.
    obtain ⟨after, hdelivers | ⟨-, ⟨failure, hfails⟩, hsame⟩⟩ :=
      writeOutput_cases job.output code tree
    · refine .inl ⟨after, out ++ shown job.output code, ?_, hdelivers.outputOnly⟩
      simp only [deliverScript, hruntime, Option.isNone_none, Bool.or_true, if_true]
      rw [bind_of_ok (writeOutput_of_delivers hdelivers out err)]
      rfl
    · refine .inr (.inl ⟨failure, after, ?_, hsame⟩)
      simp only [deliverScript, hruntime, Option.isNone_none, Bool.or_true, if_true]
      exact bind_of_error (hfails out err)
  rcases houtput : job.output with _ | path
  · -- The script only runs.
    have hdeliver : deliverScript surroundings job code = (do
        print (← runScript surroundings runtime code)) := by
      simp only [deliverScript, hruntime, houtput]
      rfl
    rw [hdeliver]
    obtain ⟨-, failure, hrun⟩ | ⟨-, text, hrun⟩ := runScript_cases surroundings tree runtime code
    · exact .inr (.inl ⟨failure, tree, bind_of_error (hrun out err), fun _ ↦ rfl⟩)
    · refine .inl ⟨tree, out ++ text, ?_, fun _ hl ↦ absurd rfl hl⟩
      rw [bind_of_ok (hrun out err), print_apply]
  · have hdeliver : deliverScript surroundings job code = (do
        writeOutput (some path) code
        print (← runScript surroundings runtime code)) := by
      simp only [deliverScript, hruntime, houtput]
      rfl
    obtain ⟨after, hdelivers | ⟨-, ⟨failure, hfails⟩, hsame⟩⟩ :=
      writeOutput_cases (some path) code tree
    · have hwrite := writeOutput_of_delivers hdelivers out err
      obtain ⟨hfails, -⟩ | ⟨-, text, hrun⟩ := runScript_cases surroundings after runtime code
      · exact .inr (.inr ⟨path, after, houtput, hdelivers, runtime, hruntime, hfails⟩)
      · refine .inl ⟨after, out ++ shown (some path) code ++ text, ?_, hdelivers.outputOnly⟩
        rw [hdeliver, bind_of_ok hwrite, bind_of_ok (hrun _ err), print_apply]
    · refine .inr (.inl ⟨failure, after, ?_, hsame⟩)
      rw [hdeliver]
      exact bind_of_error (hfails out err)

/-! ## A whole run -/

/-- The answer in JSON tells a fault of the source, and it is delivered. -/
structure TellsFault (surroundings : Surroundings) (tree : FileTree) (job : Job) (answer : String)
    (after : FileTree) : Prop where
  /-- The answer in JSON is asked for. -/
  format : job.format = .json
  /-- The source has a fault, and the answer is that for the source. -/
  answer_eq : ∃ text, source surroundings tree job.input = .ok text ∧
    (compile text).isSuccess = false ∧ answer = (compile text).json.pretty ++ "\n"
  /-- The answer is delivered. -/
  delivers : Delivers tree job.output answer after

/-- A script that the source compiles to is left in a file when its runtime fails. -/
structure LeavesScript (surroundings : Surroundings) (tree : FileTree) (job : Job) (path : Path)
    (code : String) (after : FileTree) : Prop extends
    LeftBehind surroundings tree job path code after where
  /-- The script is asked for. -/
  format : job.format = .script
  /-- The source compiles to the script. -/
  compiles : ∃ text, source surroundings tree job.input = .ok text ∧ compileScript text = .ok code

/-- What a run can come to, with the files that it leaves. -/
inductive Outcome (surroundings : Surroundings) (tree : FileTree) (job : Job) :
    EStateM.Result Failure Session Unit → Prop where
  /-- It goes through. -/
  | done {after : FileTree} {out err : String} : OutputOnly job.output tree after →
      Outcome surroundings tree job (.ok () ⟨after, out, err⟩)
  /-- It fails and leaves everything as it was. -/
  | untouched {failure : Failure} {after : FileTree} {err : String} : tree.SameFiles after →
      Outcome surroundings tree job (.error failure ⟨after, "", err⟩)
  /-- It fails because the source does, which it tells. -/
  | told {result : EStateM.Result Failure Session Unit} {answer : String} {after : FileTree} :
      TellsFault surroundings tree job answer after → Outcome surroundings tree job result
  /-- It fails because the script does, which it leaves behind. -/
  | left {result : EStateM.Result Failure Session Unit} {path : Path} {code : String}
      {after : FileTree} :
      LeavesScript surroundings tree job path code after → Outcome surroundings tree job result

/-- A step that only writes the output, with a note after it. -/
theorem outcome_written {step : Step Unit} {answer : String}
    (h : step ⟨tree, "", ""⟩ = writeOutput job.output answer ⟨tree, "", ""⟩) :
    Outcome surroundings tree job ((step >>= fun _ ↦ noteNotRun job) ⟨tree, "", ""⟩) := by
  obtain ⟨after, hdelivers | ⟨-, ⟨failure, hfails⟩, hsame⟩⟩ :=
    writeOutput_cases job.output answer tree
  · rw [bind_of_ok (h.trans (writeOutput_of_delivers hdelivers "" ""))]
    obtain ⟨⟨tree', out', err'⟩, hnote, htree, -⟩ := reports_noteNotRun job
      ⟨after, "" ++ shown job.output answer, ""⟩
    dsimp only at htree
    subst htree
    rw [hnote]
    exact .done hdelivers.outputOnly
  · rw [bind_of_error (h.trans (hfails "" ""))]
    exact .untouched hsame

/-- A step that writes what a stage of the compilation has made, with a note after it. -/
theorem outcome_compiled {α : Type} (result : Except Fault α) (answer : α → String) :
    Outcome surroundings tree job
      (((do writeOutput job.output (answer (← orFail .compile result))) >>=
        fun _ ↦ noteNotRun job) ⟨tree, "", ""⟩) := by
  rcases result with fault | a
  · rw [bind_of_error (bind_of_error (orFail_error _ _ _))]
    exact .untouched fun _ ↦ rfl
  · exact outcome_written (bind_of_ok (orFail_ok _ _ _))

theorem outcome_json (hformat : job.format = .json)
    (hsource : source surroundings tree job.input = .ok text) :
    Outcome surroundings tree job
      ((emitJson job text >>= fun _ ↦ noteNotRun job) ⟨tree, "", ""⟩) := by
  cases hsuccess : (compile text).isSuccess with
  | true =>
    have hemit : emitJson job text ⟨tree, "", ""⟩ =
        writeOutput job.output ((compile text).json.pretty ++ "\n") ⟨tree, "", ""⟩ := by
      simp only [emitJson, hsuccess]
      exact bind_pure_unit _ _
    exact outcome_written hemit
  | false =>
    obtain ⟨after, hdelivers | ⟨-, ⟨failure, hfails⟩, hsame⟩⟩ :=
      writeOutput_cases job.output ((compile text).json.pretty ++ "\n") tree
    · exact .told ⟨hformat, ⟨text, hsource, hsuccess, rfl⟩, hdelivers⟩
    · have hemit : emitJson job text ⟨tree, "", ""⟩ = .error failure ⟨after, "", ""⟩ := by
        rw [emitJson]
        exact bind_of_error (hfails "" "")
      rw [bind_of_error hemit]
      exact .untouched hsame

theorem outcome_script (hformat : job.format = .script)
    (hsource : source surroundings tree job.input = .ok text) :
    Outcome surroundings tree job
      (emitScript surroundings verbose job text ⟨tree, "", ""⟩) := by
  rcases hcompile : compileScript text with fault | code
  · rw [emitScript_of_error hcompile]
    exact .untouched fun _ ↦ rfl
  · obtain ⟨err, -, hemit⟩ := emitScript_of_ok hcompile surroundings verbose job tree "" ""
    rw [hemit]
    obtain ⟨after, out, hdone, honly⟩ | ⟨failure, after, hfails, hsame⟩ | ⟨path, after, hleft⟩ :=
      deliverScript_cases surroundings job code tree "" err
    · rw [hdone]
      exact .done honly
    · rw [hfails]
      exact .untouched hsame
    · exact .left ⟨hleft, hformat, text, hsource, hcompile⟩

/-- What a run on a single source can come to. -/
theorem runJob_cases (surroundings : Surroundings) (verbose : Bool) (job : Job) (tree : FileTree) :
    Outcome surroundings tree job (runJob surroundings verbose job ⟨tree, "", ""⟩) := by
  rw [runJob_eq]
  rcases hsource : source surroundings tree job.input with failure | text
  · exact .untouched fun _ ↦ rfl
  rcases hformat : job.format with _ | _ | _ | _ | name <;> simp only [emit, hformat]
  · exact outcome_script hformat hsource
  · exact outcome_json hformat hsource
  · exact outcome_compiled (compileArtifact text) fun artifact ↦
      artifact.program.outline.pretty ++ "\n"
  · exact outcome_compiled (sourceTokens text) Token.listing
  · exact .untouched fun _ ↦ rfl

/-! ### The two cases in which something is left -/

theorem TellsFault.runJob_eq {answer : String}
    (h : TellsFault surroundings tree job answer after) (verbose : Bool) :
    runJob surroundings verbose job ⟨tree, "", ""⟩ =
      .error .compilationFailed ⟨after, shown job.output answer, ""⟩ := by
  obtain ⟨text, hsource, hfault, rfl⟩ := h.answer_eq
  have hemit : emitJson job text ⟨tree, "", ""⟩ = .error .compilationFailed
      ⟨after, shown job.output ((compile text).json.pretty ++ "\n"), ""⟩ := by
    simp only [emitJson, hfault]
    rw [bind_of_ok (writeOutput_of_delivers h.delivers "" ""), String.empty_append]
    rfl
  rw [Step.runJob_eq, hsource]
  simp only [emit, h.format]
  exact bind_of_error hemit

theorem LeavesScript.runJob_eq {path : Path}
    (h : LeavesScript surroundings tree job path code after) (verbose : Bool) :
    ∃ failure err,
      runJob surroundings verbose job ⟨tree, "", ""⟩ = .error failure ⟨after, "", err⟩ := by
  obtain ⟨text, hsource, hcompile⟩ := h.compiles
  obtain ⟨err, -, hemit⟩ := emitScript_of_ok hcompile surroundings verbose job tree "" ""
  obtain ⟨failure, hdeliver⟩ := h.deliverScript_eq "" err
  refine ⟨failure, err, ?_⟩
  rw [Step.runJob_eq, hsource]
  simp only [emit, h.format]
  rw [hemit, hdeliver]

/-- The answer ends in a line feed, so the standard output has just the answer. -/
theorem TellsFault.shown_eq {answer : String} (h : TellsFault surroundings tree job answer after)
    (houtput : job.output = none) : shown job.output answer = answer := by
  obtain ⟨text, -, -, rfl⟩ := h.answer_eq
  rw [houtput, shown, endLine_lineFeed]

end Step

namespace Command

variable {surroundings : Surroundings} {arguments : List String} {job : Job} {verbose : Bool}

/-- **What a run on a single source leaves.** A run that goes through changes no file but that of
its output. A run that fails changes no file and writes nothing to the standard output, unless it
tells a fault of the source in JSON or leaves a script behind for which the runtime failed in one of
the ways of `Step.RuntimeFails`; and then it leaves just the answer, or just the script. -/
theorem run_single
    (h : Request.ofArguments arguments = .ok ⟨.single job, verbose⟩) (tree : FileTree) :
    let ending := run surroundings arguments tree
    (ending.exit = 0 ∨ ending.exit = 1) ∧
      (ending.exit = 0 → ∀ l, ending.tree.contents? l ≠ tree.contents? l →
        ∃ path, job.output = some path ∧ ending.tree.locate path = .ok l) ∧
      (ending.exit = 1 →
        (∀ answer after, ¬Step.TellsFault surroundings tree job answer after) →
        (∀ path code after, ¬Step.LeavesScript surroundings tree job path code after) →
        tree.SameFiles ending.tree ∧ ending.stdout = "") ∧
      (∀ answer after, Step.TellsFault surroundings tree job answer after → ending.exit = 1 ∧
        (job.output = none → tree.SameFiles ending.tree ∧ ending.stdout = answer) ∧
        ∀ path, job.output = some path →
          tree.WrittenTo ending.tree path (Utf8.bytes answer) ∧ ending.stdout = "") ∧
      ∀ path code after, Step.LeavesScript surroundings tree job path code after →
        ending.exit = 1 ∧ tree.WrittenTo ending.tree path (Utf8.bytes code) ∧
          ending.stdout = "" := by
  intro ending
  have hending : ending = Command.ending (Step.runJob surroundings verbose job) tree := by
    show run surroundings arguments tree = _
    rw [run, h]
    rfl
  have htold {answer after} (htells : Step.TellsFault surroundings tree job answer after) :
      ending = ⟨1, Step.shown job.output answer, Failure.report .compilationFailed, after⟩ := by
    rw [hending, Command.ending, htells.runJob_eq]
    rfl
  have hleft {path code after} (hleaves : Step.LeavesScript surroundings tree job path code after) :
      ∃ err, ending = ⟨1, "", err, after⟩ := by
    obtain ⟨failure, err, hrun⟩ := hleaves.runJob_eq verbose
    rw [hending, Command.ending, hrun]
    exact ⟨_, rfl⟩
  -- What is told or left is as the two statements above say, whatever the outcome is.
  have hexits : ending.exit = 0 ∧ Step.OutputOnly job.output tree ending.tree ∨
      ending.exit = 1 ∧ (tree.SameFiles ending.tree ∧ ending.stdout = "" ∨
        (∃ answer after, Step.TellsFault surroundings tree job answer after) ∨
        ∃ path code after, Step.LeavesScript surroundings tree job path code after) := by
    have houtcome := Step.runJob_cases surroundings verbose job tree
    generalize hresult : Step.runJob surroundings verbose job ⟨tree, "", ""⟩ = result at houtcome
    rw [Command.ending, hresult] at hending
    rcases houtcome with honly | hsame | htells | hleaves
    · rw [hending]
      exact .inl ⟨rfl, honly⟩
    · rw [hending]
      exact .inr ⟨rfl, .inl ⟨hsame, rfl⟩⟩
    · rw [htold htells]
      exact .inr ⟨rfl, .inr (.inl ⟨_, _, htells⟩)⟩
    · obtain ⟨err, hend⟩ := hleft hleaves
      rw [hend]
      exact .inr ⟨rfl, .inr (.inr ⟨_, _, _, hleaves⟩)⟩
  refine ⟨?_, ?_, ?_, ?_, ?_⟩
  · exact hexits.imp And.left And.left
  · intro hexit
    obtain ⟨-, honly⟩ | ⟨hone, -⟩ := hexits
    · exact honly
    · exact absurd (hexit.symm.trans hone) Nat.zero_ne_one
  · intro hexit hnotells hnoleaves
    obtain ⟨hzero, -⟩ | ⟨-, hsame | ⟨_, _, htells⟩ | ⟨_, _, _, hleaves⟩⟩ := hexits
    · exact absurd (hzero.symm.trans hexit) Nat.zero_ne_one
    · exact hsame
    · exact absurd htells (hnotells _ _)
    · exact absurd hleaves (hnoleaves _ _ _)
  · intro answer after htells
    rw [htold htells]
    refine ⟨rfl, ?_, ?_⟩
    · intro hnone
      have hdelivers := htells.delivers
      rw [hnone] at hdelivers
      obtain rfl : after = tree := hdelivers
      exact ⟨fun _ ↦ rfl, htells.shown_eq hnone⟩
    · intro path hpath
      have hdelivers := htells.delivers
      rw [hpath] at hdelivers ⊢
      exact ⟨hdelivers.writtenTo, rfl⟩
  · intro path code after hleaves
    obtain ⟨err, hend⟩ := hleft hleaves
    rw [hend]
    exact ⟨rfl, hleaves.delivers.writtenTo, rfl⟩

/-- A script that prints 1 is to go to a file and to run, but there is no runtime for it. -/
theorem run_single_left :
    let tree : FileTree := ⟨[], []⟩
    let ending := run ⟨Utf8.bytes "bol\n1\n", [], fun _ ↦ none⟩ ["-o", "x.js", "--run"] tree
    ending.exit = 1 ∧ tree.WrittenTo ending.tree ⟨"x.js"⟩ (Utf8.bytes "console.log(1);") ∧
      ending.stdout = "" := by
  intro tree ending
  have hrequest : Request.ofArguments ["-o", "x.js", "--run"] =
      .ok ⟨.single ⟨none, some ⟨"x.js"⟩, .script, some "node"⟩, false⟩ := rfl
  refine (run_single hrequest tree).2.2.2.2 ⟨"x.js"⟩ "console.log(1);"
    ⟨[], [(["x.js"], .file (Utf8.bytes "console.log(1);") false)]⟩ ?_
  exact
    { output := rfl
      delivers := fun _ _ ↦ rfl
      runtime := ⟨"node", rfl, trivial⟩
      format := rfl
      compiles := ⟨"bol\n1\n", rfl, compileScript_bol⟩ }

/-! ### A runtime that does not take the script -/

/-- A runtime that reads nothing and ends well: a text that is longer than what is kept for it until
it is read cannot be sent. -/
def readsNothing : Executable := fun text ↦
  if 65536 < text.utf8ByteSize then ⟨.refused .brokenPipe, [], []⟩ else ⟨.code 0, [], []⟩

/-- A tree with that runtime in it. -/
def binTree : FileTree := ⟨[], [(["bin"], .directory), (["bin", "true"], .file [] true)]⟩

/-- What a run finds that has a source on its standard input and that runtime. -/
def onInput (source : String) : Surroundings :=
  ⟨Utf8.bytes source, [⟨"/bin"⟩], fun _ ↦ some readsNothing⟩

/-- A script that is too long for the runtime is left in its file. -/
theorem run_readsNothing {source code : String} (hcompile : compileScript source = .ok code)
    (hlong : 65536 < code.utf8ByteSize) :
    run (onInput source) ["-o", "out.js", "--run", "--runtime", "true"] binTree =
      ⟨1, "", Failure.report (.sendScript .brokenPipe),
        binTree.put ["out.js"] (.file (Utf8.bytes code) false)⟩ := by
  have hsource : Step.source (onInput source) binTree none = .ok source := by
    rw [Step.source, onInput, Utf8.bytes_eq_encode, Utf8.strict?_encode, String.ofList_toList]
  obtain ⟨err, herr, hemit⟩ := Step.emitScript_of_ok hcompile (onInput source) false
    ⟨none, some ⟨"out.js"⟩, .script, some "true"⟩ binTree "" ""
  rw [herr rfl] at hemit
  have hscript (session : Session)
      (hfind : Step.findRuntime (onInput source) "true" session = .ok readsNothing session) :
      Step.runScript (onInput source) "true" code session =
        .error (.sendScript .brokenPipe) session := by
    rw [Step.runScript, Step.bind_of_ok hfind, readsNothing, if_pos hlong]
    rfl
  have hrun : Step.runJob (onInput source) false ⟨none, some ⟨"out.js"⟩, .script, some "true"⟩
      ⟨binTree, "", ""⟩ = .error (.sendScript .brokenPipe)
        ⟨binTree.put ["out.js"] (.file (Utf8.bytes code) false), "", ""⟩ := by
    rw [Step.runJob_eq, hsource]
    refine hemit.trans ((Step.bind_of_ok rfl).trans (Step.bind_of_error (hscript _ rfl)))
  have hending : run (onInput source) ["-o", "out.js", "--run", "--runtime", "true"] binTree =
      ending (Step.runJob (onInput source) false
        ⟨none, some ⟨"out.js"⟩, .script, some "true"⟩) binTree := rfl
  rw [hending, ending, hrun]
  simp only [String.empty_append]

theorem length_le_utf8ByteSize (cs : List Char) : cs.length ≤ (String.ofList cs).utf8ByteSize := by
  induction cs with
  | nil => exact Nat.zero_le _
  | cons c cs ih =>
    have hpos := c.utf8Size_pos
    rw [String.ofList_cons, String.utf8ByteSize_append, String.utf8ByteSize_singleton,
      List.length_cons]
    omega

/-- A program that prints a text of 70000 letters. -/
def longProgram : Program := ⟨[.print (.string (String.ofList (List.replicate 70000 'a')))]⟩

theorem compileScript_longProgram : compileScript longProgram.print = .ok longProgram.code :=
  compileScript_print rfl rfl

theorem quote_letters (n : Nat) : Script.quote (String.ofList (List.replicate n 'a')) =
    String.ofList ('\x22' :: (List.replicate n 'a' ++ ['\x22'])) := by
  have hletters : (List.replicate n 'a').flatMap Script.escapeChar = List.replicate n 'a' := by
    rw [List.flatMap_replicate]
    exact List.flatten_replicate_singleton
  rw [Script.quote, Text.quoted, String.toList_ofList, hletters]

theorem lt_utf8ByteSize_longProgram : 65536 < longProgram.code.utf8ByteSize := by
  have hcode : longProgram.code =
      "console.log(" ++ Script.quote (String.ofList (List.replicate 70000 'a')) ++ ");" := rfl
  have hlength := length_le_utf8ByteSize ('\x22' :: (List.replicate 70000 'a' ++ ['\x22']))
  rw [List.length_cons, List.length_append, List.length_replicate, ← quote_letters] at hlength
  rw [hcode, String.utf8ByteSize_append, String.utf8ByteSize_append]
  omega

/-- The runtime starts and gives no exit code that would tell of a failure. It does not take the
script, and so the run fails and leaves the script in its file. -/
theorem run_single_refused :
    let arguments := ["-o", "out.js", "--run", "--runtime", "true"]
    let ending := run (onInput longProgram.print) arguments binTree
    Request.ofArguments arguments =
        .ok ⟨.single ⟨none, some ⟨"out.js"⟩, .script, some "true"⟩, false⟩ ∧
      compileScript longProgram.print = .ok longProgram.code ∧
      Step.runtime? (onInput longProgram.print) ending.tree "true" = .ok readsNothing ∧
      (∀ exit, (readsNothing longProgram.code).exit ≠ .code exit) ∧
      ending.exit = 1 ∧ ending.stderr = Failure.report (.sendScript .brokenPipe) ∧
      binTree.contents? ["out.js"] = none ∧
      ending.tree.contents? ["out.js"] = some (Utf8.bytes longProgram.code) := by
  intro arguments ending
  have hrun : ending = _ := run_readsNothing compileScript_longProgram lt_utf8ByteSize_longProgram
  rw [hrun, readsNothing, if_pos lt_utf8ByteSize_longProgram]
  exact ⟨rfl, compileScript_longProgram, rfl, nofun, rfl, rfl, rfl, rfl⟩

end Command

end JPlusPlus
