import JPlusPlus.Command.Request
import JPlusPlus.Command.Session
import JPlusPlus.Compile.Basic
import JPlusPlus.Program.Outline
import JPlusPlus.Token.Listing

/-!
# The command

`jppc` compiles a single source, or every source below a directory. A run starts from its arguments,
its surroundings and a file tree, and ends with an exit code, two texts and the tree it leaves: exit
code 0 when the task is done, 1 when it fails, and 2 when the arguments are wrong.
-/

namespace JPlusPlus

namespace Step

/-! ## A single source -/

/-- Reports what a compilation has made. -/
def noteProgress (artifact : Artifact) : Step Unit := do
  note ("lexed " ++ toString artifact.tokens.length ++ " tokens")
  note ("parsed " ++ toString artifact.program.body.length ++ " top-level statements")
  note ("emitted " ++ toString artifact.code.utf8ByteSize ++ " bytes of JavaScript")

/-- Writes a script and runs it. A script that is to run is written only where the output names a
file, because the standard output is then for what the script writes. -/
def deliverScript (surroundings : Surroundings) (job : Job) (code : String) : Step Unit := do
  if job.output.isSome || job.runtime.isNone then writeOutput job.output code
  match job.runtime with
  | some runtime => print (← runScript surroundings runtime code)
  | none => pure ()

/-- Writes the script of a source and runs it. -/
def emitScript (surroundings : Surroundings) (verbose : Bool) (job : Job) (source : String) :
    Step Unit := do
  let artifact ← orFail .compile (compileArtifact source)
  if verbose then noteProgress artifact
  deliverScript surroundings job artifact.code

/-- Writes the uniform answer for a source. -/
def emitJson (job : Job) (source : String) : Step Unit := do
  let result := compile source
  writeOutput job.output (result.json.pretty ++ "\n")
  if !result.isSuccess then throw .compilationFailed

/-- Writes the outline of the program of a source. -/
def emitOutline (job : Job) (source : String) : Step Unit := do
  let artifact ← orFail .compile (compileArtifact source)
  writeOutput job.output (artifact.program.outline.pretty ++ "\n")

/-- Writes the listing of the tokens of a source. -/
def emitTokens (job : Job) (source : String) : Step Unit := do
  let tokens ← orFail .compile (sourceTokens source)
  writeOutput job.output (Token.listing tokens)

/-- Notes that only scripts run. -/
def noteNotRun (job : Job) : Step Unit := do
  if job.runtime.isSome then note "--run is ignored for non-js outputs"

/-- Turns a source into what a job asks for. -/
def emit (surroundings : Surroundings) (verbose : Bool) (job : Job) (source : String) :
    Step Unit :=
  match job.format with
  | .script => emitScript surroundings verbose job source
  | .json => do
    emitJson job source
    noteNotRun job
  | .outline => do
    emitOutline job source
    noteNotRun job
  | .tokens => do
    emitTokens job source
    noteNotRun job
  | .unknown name => throw (.unknownFormat name)

/-- Compiles a single source. -/
def runJob (surroundings : Surroundings) (verbose : Bool) (job : Job) : Step Unit := do
  let source ←
    match job.input with
    | some path => readSource path
    | none => readInput surroundings
  emit surroundings verbose job source

/-! ## Every source below a directory -/

/-- The extension of source files. -/
def sourceExtension : String := "jpp"

/-- Whether a path is that of a source file. -/
def isSource (path : Path) : Bool := Path.extension? path.name = some sourceExtension

/-- The path of the script of a source file. -/
def scriptPath (path : Path) : Path := path.replaceExtension sourceExtension "js"

/-- Compiles a source file to a file beside it. -/
def compileFile (verbose : Bool) (path : Path) : Step Unit := do
  let source ← readSource path
  let code ← orFail (.compileFile path) (compileScript source)
  writeFile (scriptPath path) code
  if verbose then note (path.text ++ " -> " ++ (scriptPath path).text)

/-- Compiles what a path leads to, if that is a source file, and counts it. -/
def visit (verbose : Bool) (path : Path) : Step Nat := do
  if (← get).tree.leadsToFile path && isSource path then
    compileFile verbose path
    return 1
  else
    return 0

mutual

/-- Compiles the source files at and below a path, and counts them. A directory is listed when it is
met; what is written afterwards can change what is found at a path, but not which paths of the
directory are gone to. -/
def compileAt (verbose : Bool) (root path : Path) (isDirectory : Bool) : Step Nat := do
  let listing := (← get).tree.list path
  let count ← visit verbose path
  if isDirectory then
    let listing ← orFail (.walk root path) listing
    return count + (← compileEach verbose root path listing.fits listing.children)
  else
    return count
termination_by (path.room, 1, 0)
decreasing_by exact .right _ (.left _ _ Nat.zero_lt_one)

/-- Compiles the source files at and below the listed entries of a directory, and counts them. -/
def compileEach (verbose : Bool) (root path : Path) (fits : path.fits = true) :
    List FileTree.Child → Step Nat
  | [] => return 0
  | child :: more => do
    let count ← compileAt verbose root (path.join child.name) child.isDirectory
    return count + (← compileEach verbose root path fits more)
termination_by children => (path.room, 0, children.length)
decreasing_by
  · exact .left _ _ (Path.room_join_lt fits child.name_ne)
  · exact .right _ (.right _ (Nat.lt_succ_self _))

end

/-- Compiles every source file at or below a path, up to the first failure. -/
def runDirectory (verbose : Bool) (root : Path) : Step Unit := do
  let (_, entry) ← orFail (.walk root root) ((← get).tree.find root)
  let count ← compileAt verbose root root (entry = .directory)
  if verbose then note ("compiled " ++ toString count ++ " file(s)")

/-- Does what a request asks for. -/
def run (surroundings : Surroundings) (request : Request) : Step Unit :=
  match request.task with
  | .single job => runJob surroundings request.verbose job
  | .directory root => runDirectory request.verbose root

end Step

/-! ## The whole command -/

/-- How a run ends. -/
structure Ending where
  /-- The exit code. -/
  exit : Nat
  /-- What was written to the standard output. -/
  stdout : String
  /-- What was written to the standard error output, but for what is said to wrong arguments. -/
  stderr : String
  /-- The files as they are left. -/
  tree : FileTree

namespace Command

/-- The version of the command. -/
def versionText : String := "jppc 0.1.0\n"

/-- The help of the command. -/
def helpText : String :=
  "Compiles J++ source to JavaScript\n\n" ++
  "Usage: jppc [OPTIONS]\n\n" ++
  "Options:\n" ++
  "  -i, --input <INPUT>    Source file (reads stdin when omitted)\n" ++
  "  -o, --output <OUTPUT>  Output file (writes stdout when omitted)\n" ++
  "      --dir <DIR>        Compile every .jpp file under DIR to a .js file next to it\n" ++
  "      --emit <FORMAT>    Output format: js, json, ast, tokens [default: js]\n" ++
  "      --run              Run the emitted JavaScript with an external runtime\n" ++
  "      --runtime <PATH>   JavaScript runtime used by --run [default: node]\n" ++
  "  -v, --verbose          Report pipeline progress on stderr\n" ++
  "  -h, --help             Print help\n" ++
  "  -V, --version          Print version\n"

/-- How a run ends that has no task. The wording of what is said to wrong arguments is left out. -/
def endAt (stop : Stop) (tree : FileTree) : Ending :=
  match stop with
  | .usage => ⟨2, "", "", tree⟩
  | .version => ⟨0, versionText, "", tree⟩
  | .help => ⟨0, helpText, "", tree⟩

/-- How a step ends a run that starts with it. -/
def ending (step : Step Unit) (tree : FileTree) : Ending :=
  match step ⟨tree, "", ""⟩ with
  | .ok _ session => ⟨0, session.out, session.err, session.tree⟩
  | .error failure session => ⟨1, session.out, session.err ++ failure.report, session.tree⟩

/-- Runs the command. -/
def run (surroundings : Surroundings) (arguments : List String) (tree : FileTree) : Ending :=
  match Request.ofArguments arguments with
  | .error stop => endAt stop tree
  | .ok request => ending (Step.run surroundings request) tree

end Command

end JPlusPlus
