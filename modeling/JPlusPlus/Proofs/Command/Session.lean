import JPlusPlus.Command.Run
import JPlusPlus.Proofs.File.Tree

/-!
# What the steps of a run do

One statement for each step that the command is made of: what it does to the files and to the
standard output when it goes through, and that it leaves both as they are when it fails. Only the
step that writes a file can fail half way, and then it may have made directories.

The progress that a run reports goes to the standard error output. It is left out of account here
wherever the other output and the files are described.
-/

namespace JPlusPlus

namespace Step

variable {α β : Type} {session session' : Session} {failure : Failure}

/-! ## Sequences of steps -/

theorem bind_of_ok {step : Step α} {next : α → Step β} {a : α}
    (h : step session = .ok a session') : (step >>= next) session = next a session' := by
  show EStateM.bind step next session = _
  rw [EStateM.bind, h]

theorem bind_of_error {step : Step α} {next : α → Step β}
    (h : step session = .error failure session') :
    (step >>= next) session = .error failure session' := by
  show EStateM.bind step next session = _
  rw [EStateM.bind, h]

theorem bind_pure_unit (step : Step Unit) (session : Session) :
    (step >>= fun _ ↦ pure ()) session = step session := by
  rcases h : step session with ⟨_, session'⟩ | ⟨failure, session'⟩
  · exact bind_of_ok h
  · exact bind_of_error h

theorem get_apply (session : Session) : (get : Step Session) session = .ok session session := rfl

theorem orFail_ok {ε : Type} (failure : ε → Failure) (a : α) (session : Session) :
    orFail failure (.ok a) session = .ok a session := rfl

theorem orFail_error {ε : Type} (failure : ε → Failure) (fault : ε) (session : Session) :
    (orFail failure (.error fault) : Step α) session = .error (failure fault) session := rfl

theorem print_apply (text : String) (session : Session) :
    print text session = .ok () { session with out := session.out ++ text } := rfl

/-- The session after a step that only reports. -/
structure Reports (session session' : Session) : Prop where
  /-- The files stay. -/
  tree : session'.tree = session.tree
  /-- The standard output stays. -/
  out : session'.out = session.out

theorem reports_noteProgress (artifact : Artifact) (session : Session) :
    ∃ session', noteProgress artifact session = .ok () session' ∧ Reports session session' :=
  ⟨_, rfl, rfl, rfl⟩

theorem reports_noteNotRun (job : Job) (session : Session) :
    ∃ session', noteNotRun job session = .ok () session' ∧ Reports session session' := by
  rw [noteNotRun]
  split
  · exact ⟨_, rfl, rfl, rfl⟩
  · exact ⟨_, rfl, rfl, rfl⟩

/-! ## The source of a job -/

/-- The text of the source of a job, or why there is none. -/
def source (surroundings : Surroundings) (tree : FileTree) (input : Option Path) :
    Except Failure String :=
  match input with
  | some path => (tree.readText path).mapError (.readSource path)
  | none =>
    match Utf8.strict? surroundings.stdin with
    | some text => .ok text
    | none => .error (.readInput .notText)

theorem runJob_eq (surroundings : Surroundings) (verbose : Bool) (job : Job) (session : Session) :
    runJob surroundings verbose job session =
      match source surroundings session.tree job.input with
      | .ok text => emit surroundings verbose job text session
      | .error failure => .error failure session := by
  rw [runJob]
  rcases job.input with _ | path
  · dsimp only [source, readInput]
    rcases Utf8.strict? surroundings.stdin with _ | text <;> rfl
  · dsimp only [source]
    have hread : readSource path session =
        orFail (.readSource path) (session.tree.readText path) session := rfl
    rcases htext : session.tree.readText path with fault | text
    · rw [htext, orFail_error] at hread
      exact bind_of_error hread
    · rw [htext, orFail_ok] at hread
      exact bind_of_ok hread

/-! ## Writing the output -/

/-- A text with a line feed at its end. -/
def endLine (text : String) : String :=
  if text.toList.getLast? = some '\n' then text else text ++ "\n"

theorem endLine_lineFeed (text : String) : endLine (text ++ "\n") = text ++ "\n" := by
  have hlast : (text ++ "\n").toList.getLast? = some '\n' := by
    rw [String.toList_append]
    exact List.getLast?_concat
  rw [endLine, if_pos hlast]

/-- What of the output goes to the standard output. -/
def shown (output : Option Path) (text : String) : String :=
  match output with
  | none => endLine text
  | some _ => ""

theorem onFiles_of_ok {reason : IoFault → Failure} {action : FileTree.Action Unit}
    {after : FileTree} (h : action session.tree = .ok () after) :
    onFiles reason action session = .ok () { session with tree := after } := by
  rw [onFiles, h]

theorem onFiles_of_error {reason : IoFault → Failure} {action : FileTree.Action Unit}
    {fault : IoFault} {after : FileTree} (h : action session.tree = .error fault after) :
    onFiles reason action session = .error (reason fault) { session with tree := after } := by
  rw [onFiles, h]

/-- The step goes through on these files, and leaves them like this. -/
def Changes (step : Step Unit) (before after : FileTree) : Prop :=
  ∀ out err, step ⟨before, out, err⟩ = .ok () ⟨after, out, err⟩

/-- The step fails on these files, and leaves them like this. -/
def Fails (step : Step Unit) (before after : FileTree) : Prop :=
  ∃ failure, ∀ out err, step ⟨before, out, err⟩ = .error failure ⟨after, out, err⟩

theorem Changes.bind {first second : Step Unit} {before middle after : FileTree}
    (h : Changes first before middle) (h' : Changes second middle after) :
    Changes (first >>= fun _ ↦ second) before after := by
  intro out err
  rw [bind_of_ok (h out err), h' out err]

theorem Changes.bind_fails {first second : Step Unit} {before middle after : FileTree}
    (h : Changes first before middle) (h' : Fails second middle after) :
    Fails (first >>= fun _ ↦ second) before after := by
  obtain ⟨failure, h'⟩ := h'
  refine ⟨failure, fun out err ↦ ?_⟩
  rw [bind_of_ok (h out err), h' out err]

theorem Fails.bind {first second : Step Unit} {before after : FileTree}
    (h : Fails first before after) : Fails (first >>= fun _ ↦ second) before after := by
  obtain ⟨failure, h⟩ := h
  exact ⟨failure, fun out err ↦ bind_of_error (h out err)⟩

theorem Changes.not_fails {step : Step Unit} {before after later : FileTree}
    (h : Changes step before after) : ¬Fails step before later := by
  rintro ⟨failure, hfails⟩
  have hboth := (h "" "").symm.trans (hfails "" "")
  cases hboth

theorem Changes.unique {step : Step Unit} {before after later : FileTree}
    (h : Changes step before after) (hother : Changes step before later) : later = after := by
  have hboth := (h "" "").symm.trans (hother "" "")
  cases hboth
  rfl

/-- Making the directories above a file changes no file. -/
theorem makeParent_cases (path : Path) (tree : FileTree) :
    ∃ after, tree.SameFiles after ∧
      (Changes (makeParent path) tree after ∨ Fails (makeParent path) tree after) := by
  rw [makeParent]
  rcases path.parent? with _ | parent
  · exact ⟨tree, fun _ ↦ rfl, .inl fun _ _ ↦ rfl⟩
  · dsimp only
    split
    · exact ⟨tree, fun _ ↦ rfl, .inl fun _ _ ↦ rfl⟩
    · have hsame := FileTree.sameFiles_makeDirectories parent tree
      rcases hmake : FileTree.makeDirectories parent tree with ⟨_, after⟩ | ⟨fault, after⟩
      · rw [FileTree.Action.leaves_of_ok hmake] at hsame
        exact ⟨after, hsame, .inl fun _ _ ↦ onFiles_of_ok hmake⟩
      · rw [FileTree.Action.leaves_of_error hmake] at hsame
        exact ⟨after, hsame, .inr ⟨_, fun _ _ ↦ onFiles_of_error hmake⟩⟩

/-- A file is written with its contents, or it is not written and no file has changed. -/
theorem writeFile_cases (path : Path) (text : String) (tree : FileTree) :
    ∃ after,
      Changes (writeFile path text) tree after ∧ tree.WrittenTo after path (Utf8.bytes text) ∨
        Fails (writeFile path text) tree after ∧ tree.SameFiles after := by
  rw [writeFile]
  obtain ⟨middle, hsame, hmake | hmake⟩ := makeParent_cases path tree
  · rcases hwrite : FileTree.write path (Utf8.bytes text) middle with ⟨_, after⟩ | ⟨fault, after⟩
    · have hchanges : Changes (onFiles (.writeOutput path)
          (FileTree.write path (Utf8.bytes text))) middle after := fun _ _ ↦ onFiles_of_ok hwrite
      refine ⟨after, .inl ⟨hmake.bind hchanges, ?_⟩⟩
      exact hsame.writtenTo (FileTree.writtenTo_of_write hwrite)
    · obtain rfl := FileTree.leaves_write_of_error hwrite
      have hfails : Fails (onFiles (.writeOutput path)
          (FileTree.write path (Utf8.bytes text))) after after :=
        ⟨_, fun _ _ ↦ onFiles_of_error hwrite⟩
      exact ⟨after, .inr ⟨hmake.bind_fails hfails, hsame⟩⟩
  · exact ⟨middle, .inr ⟨hmake.bind, hsame⟩⟩

/-- The output is written, and the files are left like this. Without a file to write to, the output
goes to the standard output and the files stay. -/
def Delivers (before : FileTree) (output : Option Path) (text : String) (after : FileTree) : Prop :=
  match output with
  | none => after = before
  | some path => Changes (writeFile path text) before after

theorem writeOutput_of_delivers {before after : FileTree} {output : Option Path} {text : String}
    (h : Delivers before output text after) (out err : String) :
    writeOutput output text ⟨before, out, err⟩ = .ok () ⟨after, out ++ shown output text, err⟩ := by
  rcases output with _ | path
  · obtain rfl : after = before := h
    rfl
  · rw [shown, String.append_empty]
    exact h out err

/-- The output is delivered, or the step fails and no file has changed. -/
theorem writeOutput_cases (output : Option Path) (text : String) (tree : FileTree) :
    ∃ after, Delivers tree output text after ∨
      (∀ later, ¬Delivers tree output text later) ∧
        Fails (writeOutput output text) tree after ∧ tree.SameFiles after := by
  rcases output with _ | path
  · exact ⟨tree, .inl rfl⟩
  · obtain ⟨after, ⟨hchanges, -⟩ | ⟨hfails, hsame⟩⟩ := writeFile_cases path text tree
    · exact ⟨after, .inl hchanges⟩
    · exact ⟨after, .inr ⟨fun _ hdelivers ↦ hdelivers.not_fails hfails, hfails, hsame⟩⟩

/-- The file of the output has the text for its contents, and no other file has changed. -/
theorem Delivers.writtenTo {before after : FileTree} {path : Path} {text : String}
    (h : Delivers before (some path) text after) :
    before.WrittenTo after path (Utf8.bytes text) := by
  obtain ⟨later, ⟨hchanges, hwritten⟩ | ⟨hfails, -⟩⟩ := writeFile_cases path text before
  · obtain rfl : later = after := Changes.unique h hchanges
    exact hwritten
  · exact absurd hfails (Changes.not_fails h)

end Step

end JPlusPlus
