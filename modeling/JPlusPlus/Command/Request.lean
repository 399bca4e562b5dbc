import JPlusPlus.File.Path

/-!
# Requests

What the arguments of the command ask for. Arguments are read from left to right. An option with a
value takes it from the same argument (`--input=P`, `-iP`, `-i=P`) or from the next one, which must
not look like an option itself; short options may share an argument (`-vi P`). Nothing else may be
given, and nothing may be given twice.

A request for help or for the version is answered at the argument that makes it, so only mistakes
before it count; that a directory goes with no other path is checked after all arguments.
-/

namespace JPlusPlus

/-- What a single source is turned into. -/
inductive Format where
  /-- The script. -/
  | script
  /-- The uniform answer in JSON. -/
  | json
  /-- The outline of the program. -/
  | outline
  /-- The listing of the tokens. -/
  | tokens
  /-- A format that there is not. -/
  | unknown (name : String)
  deriving DecidableEq, Repr

/-- The format of a given name. -/
def Format.ofName (name : String) : Format :=
  if name = "js" then script
  else if name = "json" then json
  else if name = "ast" then outline
  else if name = "tokens" then tokens
  else unknown name

/-- The compilation of a single source. -/
structure Job where
  /-- The file of the source, which otherwise comes from the standard input. -/
  input : Option Path
  /-- The file of the output, which otherwise goes to the standard output. -/
  output : Option Path
  /-- What the source is turned into. -/
  format : Format
  /-- The runtime that the script is to run in, if it is to run. -/
  runtime : Option String
  deriving DecidableEq, Repr

/-- What there is to do. -/
inductive Task where
  /-- Compile a single source. -/
  | single (job : Job)
  /-- Compile every source at or below a path. -/
  | directory (root : Path)
  deriving DecidableEq, Repr

/-- What the arguments ask for. -/
structure Request where
  /-- What there is to do. -/
  task : Task
  /-- Whether progress is reported. -/
  verbose : Bool
  deriving DecidableEq, Repr

/-- Why arguments ask for no task. -/
inductive Stop where
  /-- They are wrong. -/
  | usage
  /-- They ask for the version. -/
  | version
  /-- They ask for help. -/
  | help
  deriving DecidableEq, Repr

namespace Request

/-! ## Options -/

/-- The options that take a value. -/
inductive Parameter where
  /-- The source file. -/
  | input
  /-- The output file. -/
  | output
  /-- The directory. -/
  | dir
  /-- The format. -/
  | emit
  /-- The runtime. -/
  | runtime
  deriving DecidableEq, Repr

/-- The options without a value. -/
inductive Flag where
  /-- Run the script. -/
  | run
  /-- Report progress. -/
  | verbose
  deriving DecidableEq, Repr

/-- What an option means. -/
inductive Meaning where
  /-- It takes a value. -/
  | value (parameter : Parameter)
  /-- It takes none. -/
  | flag (flag : Flag)
  /-- It ends the reading of arguments. -/
  | stop (stop : Stop)
  deriving DecidableEq, Repr

/-- The meaning of a long option. -/
def long? (name : String) : Option Meaning :=
  [("input", Meaning.value .input), ("output", .value .output), ("dir", .value .dir),
    ("emit", .value .emit), ("runtime", .value .runtime), ("run", .flag .run),
    ("verbose", .flag .verbose), ("version", .stop .version), ("help", .stop .help)].lookup name

/-- The meaning of a short option. -/
def short? (letter : Char) : Option Meaning :=
  [('i', Meaning.value .input), ('o', .value .output), ('v', .flag .verbose), ('V', .stop .version),
    ('h', .stop .help)].lookup letter

/-- Whether the value of an option is a path, which may not be empty. -/
def Parameter.isPath : Parameter → Bool
  | input | output | dir => true
  | emit | runtime => false

/-! ## Reading arguments -/

/-- What the arguments have said so far. -/
structure Settings where
  /-- The values given. -/
  values : List (Parameter × String) := []
  /-- The flags given. -/
  flags : List Flag := []

namespace Settings

/-- Takes down the value of an option. -/
def give (settings : Settings) (parameter : Parameter) (value : String) : Except Stop Settings :=
  if (settings.values.lookup parameter).isSome then throw .usage
  else if parameter.isPath && value = "" then throw .usage
  else return { settings with values := (parameter, value) :: settings.values }

/-- Takes down a flag. -/
def raise (settings : Settings) (flag : Flag) : Except Stop Settings :=
  if flag ∈ settings.flags then throw .usage
  else return { settings with flags := flag :: settings.flags }

end Settings

/-- Reads the letters of short options; an option whose value is still to come is given back. -/
def readShorts (settings : Settings) : List Char → Except Stop (Settings × Option Parameter)
  | [] => return (settings, none)
  | letter :: more =>
    match short? letter, more with
    | none, _ => throw .usage
    | some (.stop stop), _ => throw stop
    | some (.flag flag), more => do readShorts (← settings.raise flag) more
    | some (.value parameter), [] => return (settings, some parameter)
    | some (.value parameter), '=' :: value =>
      return (← settings.give parameter (String.ofList value), none)
    | some (.value parameter), value =>
      return (← settings.give parameter (String.ofList value), none)

/-- Reads a long option, without its dashes. -/
def readLong (settings : Settings) (text : List Char) :
    Except Stop (Settings × Option Parameter) :=
  let name := String.ofList (text.takeWhile (· ≠ '='))
  match long? name, text.dropWhile (· ≠ '=') with
  | some (.stop stop), [] => throw stop
  | some (.flag flag), [] => return (← settings.raise flag, none)
  | some (.value parameter), [] => return (settings, some parameter)
  | some (.value parameter), _ :: value =>
    return (← settings.give parameter (String.ofList value), none)
  | _, _ => throw .usage

/-- Whether an argument looks like an option; a single dash does not. -/
def looksLikeOption (argument : String) : Bool :=
  argument ≠ "-" && argument.toList.head? = some '-'

/-- Reads arguments, where `pending` is an option whose value comes next. -/
def readArguments (settings : Settings) (pending : Option Parameter) :
    List String → Except Stop Settings
  | [] => if pending.isSome then throw .usage else return settings
  | argument :: more =>
    match pending, argument.toList with
    | some parameter, _ => do
      if looksLikeOption argument then throw .usage
      readArguments (← settings.give parameter argument) none more
    | none, ['-', '-'] => if more.isEmpty then return settings else throw .usage
    | none, '-' :: '-' :: text => do
      let (settings, pending) ← readLong settings text
      readArguments settings pending more
    | none, '-' :: letter :: letters => do
      let (settings, pending) ← readShorts settings (letter :: letters)
      readArguments settings pending more
    | none, _ => throw .usage

/-- The request that settings make. -/
def ofSettings (settings : Settings) : Except Stop Request := do
  let value parameter := settings.values.lookup parameter
  let path parameter := (value parameter).map Path.mk
  let verbose := Flag.verbose ∈ settings.flags
  match path .dir, path .input, path .output with
  | some root, none, none => return ⟨.directory root, verbose⟩
  | some _, _, _ => throw .usage
  | none, input, output =>
    let runtime := if Flag.run ∈ settings.flags then some ((value .runtime).getD "node") else none
    let format := Format.ofName ((value .emit).getD "js")
    return ⟨.single ⟨input, output, format, runtime⟩, verbose⟩

/-- The request that arguments make. -/
def ofArguments (arguments : List String) : Except Stop Request := do
  ofSettings (← readArguments {} none arguments)

end Request

end JPlusPlus
