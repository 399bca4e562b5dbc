import JPlusPlus.Command.Failure
import JPlusPlus.Text.Blank
import JPlusPlus.Text.Utf8

/-!
# Sessions

What a run of the command works on: the files, which it reads and changes, and the texts it has
written so far. A step of a run changes the session or fails; what it has done before it fails stays
done.
-/

namespace JPlusPlus

/-- How the run of a program ends. -/
inductive RunExit where
  /-- The program took its input and ended with an exit code; one that is ended by a signal counts
  as failing. -/
  | code (code : UInt8)
  /-- The program has no input. -/
  | noInput
  /-- The program did not take all of its input, for which there is a reason. -/
  | refused (fault : IoFault)
  /-- The program took its input, but its end cannot be waited for. -/
  | lost (fault : IoFault)
  deriving DecidableEq, Repr

/-- An exit code stands for a program that ended with it. -/
instance : Coe UInt8 RunExit := ⟨.code⟩

/-- What a program that has run leaves behind. -/
structure RunReport where
  /-- How it ended. -/
  exit : RunExit
  /-- The bytes it wrote. -/
  stdout : List UInt8
  /-- The bytes of its messages. -/
  stderr : List UInt8

/-- The text that a script wrote, or why there is none, by the report of its runtime. -/
def RunReport.text (report : RunReport) : Except Failure String :=
  match report.exit with
  | .noInput => .error .noRuntimeInput
  | .refused fault => .error (.sendScript fault)
  | .lost fault => .error (.awaitRuntime fault)
  | .code exit =>
    if exit = 0 then .ok (Utf8.text report.stdout)
    else .error (.runtimeError (Text.trim (Utf8.text report.stderr)))

/-- A program that can be started: what it does with the text it is given to read, which it need not
take. Such a program changes no files. -/
abbrev Executable : Type := String → RunReport

/-- What a run finds around it and does not change. -/
structure Surroundings where
  /-- The bytes of the standard input. -/
  stdin : List UInt8
  /-- The directories in which a program is looked for that is named without a slash. -/
  places : List Path
  /-- What the contents of a file are as a program, if they are one. -/
  executable? : List UInt8 → Option Executable

/-- What a run works on. -/
structure Session where
  /-- The files. -/
  tree : FileTree
  /-- What was written to the standard output. -/
  out : String
  /-- What was written to the standard error output. -/
  err : String

/-- A step of a run. -/
abbrev Step : Type → Type := EStateM Failure Session

namespace Step

/-- Writes to the standard output. -/
def print (text : String) : Step Unit :=
  modify fun session ↦ { session with out := session.out ++ text }

/-- Writes a line to the standard error output. -/
def note (line : String) : Step Unit :=
  modify fun session ↦ { session with err := session.err ++ line ++ "\n" }

/-- Takes a result, or fails for its reason. -/
def orFail {ε α : Type} (failure : ε → Failure) : Except ε α → Step α
  | .ok value => pure value
  | .error fault => throw (failure fault)

/-- Acts on the files, or fails for the reason that the files give. -/
def onFiles (failure : IoFault → Failure) (action : FileTree.Action Unit) : Step Unit :=
  fun session ↦
    match action session.tree with
    | .ok _ tree => .ok () { session with tree }
    | .error fault tree => .error (failure fault) { session with tree }

/-- The text of a source file. -/
def readSource (path : Path) : Step String := do
  orFail (.readSource path) ((← get).tree.readText path)

/-- The text of the standard input. -/
def readInput (surroundings : Surroundings) : Step String :=
  match Utf8.strict? surroundings.stdin with
  | some text => pure text
  | none => throw (.readInput .notText)

/-- Makes the directories above a file where they are missing; a path of one segment names a file of
the working directory, which is there. -/
def makeParent (path : Path) : Step Unit :=
  match path.parent? with
  | none => pure ()
  | some parent =>
    if parent.text = "" then pure ()
    else onFiles (.makeDirectory parent) (FileTree.makeDirectories parent)

/-- Writes a file, and makes the directories above it where they are missing. -/
def writeFile (path : Path) (text : String) : Step Unit := do
  makeParent path
  onFiles (.writeOutput path) (FileTree.write path (Utf8.bytes text))

/-- Writes a text as the output: to a file as it is, to the standard output with a line feed at the
end if it has none. -/
def writeOutput (output : Option Path) (text : String) : Step Unit :=
  match output with
  | some path => writeFile path text
  | none => print (if text.toList.getLast? = some '\n' then text else text ++ "\n")

/-! ## Runtimes -/

/-- The program at a path. -/
def program (surroundings : Surroundings) (tree : FileTree) (path : Path) :
    Except IoFault Executable := do
  match ← tree.find path with
  | (_, .directory) | (_, .file _ false) => .error .denied
  | (_, .file contents true) =>
    match surroundings.executable? contents with
    | some executable => return executable
    | none => .error .notProgram

/-- The program of a name in the first of the places that has one. A place that lacks the name, or
where what has the name may not be started, is passed over; `fault` is the reason to give when no
place is left. -/
def searchProgram (surroundings : Surroundings) (tree : FileTree) (name : String)
    (fault : IoFault) : List Path → Except IoFault Executable
  | [] => .error fault
  | place :: more =>
    match program surroundings tree (place.join name) with
    | .error .notFound | .error .notDirectory =>
      searchProgram surroundings tree name fault more
    | .error .denied => searchProgram surroundings tree name .denied more
    | result => result

/-- Finds a runtime by its name: a path, or without a slash the name of a program in one of the
places where programs are kept. -/
def findRuntime (surroundings : Surroundings) (name : String) : Step Executable := do
  let tree := (← get).tree
  orFail (.startRuntime name)
    (if name = "" || '/' ∈ name.toList then program surroundings tree ⟨name⟩
      else searchProgram surroundings tree name .notFound surroundings.places)

/-- Runs a script in a runtime and gives the text that the script wrote. -/
def runScript (surroundings : Surroundings) (runtime code : String) : Step String := do
  let executable ← findRuntime surroundings runtime
  orFail id (executable code).text

end Step

end JPlusPlus
