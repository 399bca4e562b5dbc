import JPlusPlus.Compile.Result
import JPlusPlus.Program.Lower
import JPlusPlus.Program.Parse.Stmt
import JPlusPlus.Script.Text

/-!
# Compilation

From a source to the text of its script: scan, parse, check, lower and write, ending at the first
fault.
-/

namespace JPlusPlus

/-- What a compilation that succeeds has made. -/
structure Artifact where
  /-- The tokens of the source. -/
  tokens : List Token
  /-- The program of the tokens. -/
  program : Program
  /-- The text of the program's script. -/
  code : String

/-- The tokens of a source. -/
def sourceTokens (source : String) : Except Fault (List Token) :=
  (tokenize source).mapError ScanFault.toFault

/-- The program of tokens. -/
def tokensProgram (tokens : List Token) : Except Fault Program :=
  (parse tokens).mapError ParseFault.toFault

/-- The program of a source. -/
def sourceProgram (source : String) : Except Fault Program := do
  tokensProgram (← sourceTokens source)

/-- Checks a program. -/
def checkProgram (program : Program) : Except Fault Unit := program.check.mapError TypeFault.toFault

/-- The text of a program's script; what was not checked is written all the same. -/
def Program.code (program : Program) : String := program.lower.text

/-- Compiles a source and keeps what each stage made. -/
def compileArtifact (source : String) : Except Fault Artifact := do
  let tokens ← sourceTokens source
  let program ← tokensProgram tokens
  checkProgram program
  return ⟨tokens, program, program.code⟩

/-- Compiles a source to the text of its script. -/
def compileScript (source : String) : Except Fault String := do
  return (← compileArtifact source).code

/-- Compiles a source to the uniform answer. -/
def compile (source : String) : CompileResult := .ofExcept (compileScript source)

end JPlusPlus
