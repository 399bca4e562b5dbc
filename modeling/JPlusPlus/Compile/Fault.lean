import JPlusPlus.Program.Parse.Reading
import JPlusPlus.Text.Outline
import JPlusPlus.Token.Scan
import JPlusPlus.Typing.Check

/-!
# Faults

What the outside sees of a fault: the stage that met it and its wording.
-/

namespace JPlusPlus

/-- The stages that can meet a fault. -/
inductive Stage where
  /-- From text to tokens. -/
  | scan
  /-- From tokens to a program. -/
  | parse
  /-- The check of types. -/
  | type
  deriving DecidableEq, Repr

namespace Stage

/-- The name of a stage in messages. -/
def name : Stage → String
  | scan => "lex"
  | parse => "parse"
  | type => "type"

/-- The name of a stage's faults in listings. -/
def label : Stage → String
  | scan => "LexError"
  | parse => "ParseError"
  | type => "TypeError"

/-- The stage of a given name. -/
def ofName? (name : String) : Option Stage := [scan, parse, type].find? fun s ↦ s.name = name

end Stage

/-- A fault: the stage that met it and its wording. -/
structure Fault where
  /-- The stage that met the fault. -/
  stage : Stage
  /-- The wording of the fault. -/
  message : String
  deriving DecidableEq, Repr

namespace Fault

/-- The fault as it stands in listings. -/
def outline (fault : Fault) : Outline := .tagged fault.stage.label (.text fault.message)

/-- The fault with the name of its stage. -/
def report (fault : Fault) : String := fault.stage.name ++ " error: " ++ fault.message

end Fault

/-- A fault of scanning as the outside sees it. -/
def ScanFault.toFault (fault : ScanFault) : Fault := ⟨.scan, fault.message⟩

/-- A fault of parsing as the outside sees it. -/
def ParseFault.toFault (fault : ParseFault) : Fault := ⟨.parse, fault.message⟩

/-- A fault of typing as the outside sees it. -/
def TypeFault.toFault (fault : TypeFault) : Fault := ⟨.type, fault.message⟩

end JPlusPlus
