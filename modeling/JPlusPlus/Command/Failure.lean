import JPlusPlus.Compile.Fault
import JPlusPlus.File.Tree
import JPlusPlus.Text.Quoted

/-!
# Failures of the command

Why a task is not done, and how that is reported: a message, and below it what caused it, the
nearest cause first.
-/

namespace JPlusPlus

/-- Why a task is not done. -/
inductive Failure where
  /-- The standard input cannot be read. -/
  | readInput (fault : IoFault)
  /-- A source file cannot be read. -/
  | readSource (path : Path) (fault : IoFault)
  /-- The source has a fault. -/
  | compile (fault : Fault)
  /-- The source in a file below the directory has a fault. -/
  | compileFile (path : Path) (fault : Fault)
  /-- The source has a fault, which the output tells. -/
  | compilationFailed
  /-- There is no such format. -/
  | unknownFormat (name : String)
  /-- The directory of the output cannot be made. -/
  | makeDirectory (path : Path) (fault : IoFault)
  /-- The output cannot be written. -/
  | writeOutput (path : Path) (fault : IoFault)
  /-- The directory cannot be gone through, because of what stands at a path in it. -/
  | walk (root path : Path) (fault : IoFault)
  /-- The runtime does not start. -/
  | startRuntime (name : String) (fault : IoFault)
  /-- The runtime has no input. -/
  | noRuntimeInput
  /-- The runtime does not take the script. -/
  | sendScript (fault : IoFault)
  /-- The end of the runtime cannot be waited for. -/
  | awaitRuntime (fault : IoFault)
  /-- The script fails in its runtime, which gave a message. -/
  | runtimeError (message : String)
  deriving DecidableEq, Repr

namespace Failure

/-- What a failure says. -/
def message : Failure → String
  | readInput fault => fault.message
  | readSource path _ => "failed to read input file " ++ path.text
  | compile fault => fault.report
  | compileFile path _ => "failed to compile " ++ path.text
  | compilationFailed => "compilation failed"
  | unknownFormat name => "unsupported emit format: " ++ name
  | makeDirectory path _ => "failed to create directory " ++ Text.listed path.text
  | writeOutput path _ => "failed to write output file " ++ path.text
  | walk root _ _ => "failed to walk " ++ root.text
  | startRuntime name _ => "failed to start JavaScript runtime " ++ name
  | noRuntimeInput => "runtime stdin unavailable"
  | sendScript _ => "failed to send program to runtime"
  | awaitRuntime _ => "failed to wait for runtime"
  | runtimeError message => "runtime error: " ++ message

/-- The causes of a failure, the nearest first. -/
def causes : Failure → List String
  | readSource _ fault | makeDirectory _ fault | writeOutput _ fault | startRuntime _ fault
  | sendScript fault | awaitRuntime fault => [fault.message]
  | compileFile _ fault => [fault.report]
  | walk _ path fault =>
    ["IO error for operation on " ++ path.text ++ ": " ++ fault.message, fault.message]
  | readInput _ | compile _ | compilationFailed | unknownFormat _ | noRuntimeInput
  | runtimeError _ => []

/-- The text with `margin` after each line feed. -/
def hang (margin text : String) : String :=
  String.ofList (text.toList.flatMap fun c ↦ if c = '\n' then '\n' :: margin.toList else [c])

/-- The number right-aligned in five places. -/
def padNumber (n : Nat) : String :=
  let digits := toString n
  String.ofList (List.replicate (5 - digits.length) ' ') ++ digits

/-- Several causes, each on a line with its number, counted from `n` on. -/
def numbered (n : Nat) : List String → String
  | [] => ""
  | cause :: more => "\n" ++ padNumber n ++ ": " ++ hang "       " cause ++ numbered (n + 1) more

/-- The causes below a message; a single one has no number. -/
def causeLines : List String → String
  | [] => ""
  | [cause] => "\n\nCaused by:\n    " ++ hang "    " cause
  | causes => "\n\nCaused by:" ++ numbered 0 causes

/-- A failure as it is reported. -/
def report (failure : Failure) : String :=
  "Error: " ++ failure.message ++ causeLines failure.causes ++ "\n"

end Failure

end JPlusPlus
