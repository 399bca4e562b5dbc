import JPlusPlus.Compile.Fault
import JPlusPlus.Text.Json

/-!
# Results

The uniform answer of a compilation, and how it is written in JSON: a script, or one diagnostic.
-/

namespace JPlusPlus

/-- How grave a diagnostic is. -/
inductive Severity where
  /-- The compilation failed. -/
  | error
  /-- The compilation went on. -/
  | warning
  deriving DecidableEq, Repr

namespace Severity

/-- The name of a severity. -/
def name : Severity → String
  | error => "error"
  | warning => "warning"

/-- The severity of a given name. -/
def ofName? (name : String) : Option Severity := [error, warning].find? fun s ↦ s.name = name

end Severity

/-- A message to the user of the compiler. -/
structure Diagnostic where
  /-- The message. -/
  message : String
  /-- How grave it is. -/
  severity : Severity
  deriving DecidableEq, Repr

namespace Diagnostic

/-- Whether a diagnostic is an error. -/
def isError (diagnostic : Diagnostic) : Bool := diagnostic.severity = .error

/-- The diagnostic of a fault. -/
def ofFault (fault : Fault) : Diagnostic := ⟨fault.message, .error⟩

/-- The diagnostic in JSON. -/
def json (diagnostic : Diagnostic) : Json :=
  .obj [("message", .str diagnostic.message), ("type", .str diagnostic.severity.name)]

end Diagnostic

/-- The answer of a compilation. -/
inductive CompileResult where
  /-- It gave a script. -/
  | success (code : String)
  /-- It failed. -/
  | failure (diagnostic : Diagnostic)
  deriving DecidableEq, Repr

namespace CompileResult

/-- Whether the compilation gave a script. -/
def isSuccess : CompileResult → Bool
  | success _ => true
  | failure _ => false

/-- The script, if there is one. -/
def code? : CompileResult → Option String
  | success code => some code
  | failure _ => none

/-- The diagnostics. -/
def errors : CompileResult → List Diagnostic
  | success _ => []
  | failure diagnostic => [diagnostic]

/-- The answer for a script or a fault. -/
def ofExcept : Except Fault String → CompileResult
  | .ok code => success code
  | .error fault => failure (Diagnostic.ofFault fault)

/-- The answer in JSON; without a script it has no field for one. -/
def json (result : CompileResult) : Json :=
  .obj ([("success", .bool result.isSuccess)] ++
    (result.code?.map fun code ↦ ("code", Json.str code)).toList ++
    [("errors", .arr (result.errors.map Diagnostic.json))])

end CompileResult

end JPlusPlus
