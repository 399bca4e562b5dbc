import JPlusPlus.Command.Run

/-!
# The executable

The command on the files of the machine. The files that a request can reach are read into a tree,
the run is worked out on that tree, and what it changed is written back. No program of the machine
can be started from here, so a script that is to run finds no runtime.
-/

namespace JPlusPlus.Machine

/-- The path of a location on the machine. -/
def pathOf (location : Location) : String := "/" ++ "/".intercalate location

/-- The working directory. -/
def home : IO Location := do
  return (Path.split (← IO.currentDir).toString).filter fun name ↦ !Path.isIdle name

/-- What stands at a location; what cannot be read counts as missing. -/
def entry? (location : Location) : IO (Option Entry) := do
  let place := (← IO.currentDir) / pathOf location
  if ← place.isDir then return some .directory
  try return some (.file (← IO.FS.readBinFile place).data.toList false)
  catch _ => return none

/-- The tree with what stands at a location. -/
def load (tree : FileTree) (location : Location) : IO FileTree := do
  match ← entry? location with
  | some entry => return tree.put location entry
  | none => return tree

/-- The locations that segments lead through. -/
def passed (location : Location) : List String → List Location
  | [] => [location]
  | segment :: more =>
    location ::
      (if Path.isIdle segment then passed location more
        else if segment = ".." then passed location.dropLast more
        else passed (location ++ [segment]) more)

/-- The tree with what stands on the way of a path. -/
def loadPath (tree : FileTree) (path : Path) : IO FileTree :=
  (passed (tree.start path) path.segments).foldlM load tree

/-- The tree with all that stands below a location. -/
partial def loadBelow (tree : FileTree) (location : Location) : IO FileTree := do
  let place := (← IO.currentDir) / pathOf location
  if !(← place.isDir) then return tree
  let mut tree := tree
  for child in ← place.readDir do
    let below := location ++ [child.fileName]
    tree ← loadBelow (← load tree below) below
  return tree

/-- The tree that a request can reach. -/
def loadFor (request : Request) : IO FileTree := do
  let here ← home
  let tree ← (passed [] here).foldlM load ⟨here, []⟩
  match request.task with
  | .single job =>
    (job.input.toList ++ job.output.toList ++ job.runtime.toList.map Path.mk).foldlM loadPath tree
  | .directory root =>
    let tree ← loadPath tree root
    match tree.locate root with
    | .ok location => loadBelow tree location
    | .error _ => return tree

/-- The bytes of the standard input. -/
partial def readAll (input : IO.FS.Stream) (bytes : ByteArray) : IO ByteArray := do
  let more ← input.read 65536
  if more.isEmpty then return bytes else readAll input (bytes ++ more)

/-- The standard input, if a request reads it. -/
def inputFor (request : Request) : IO ByteArray := do
  match request.task with
  | .single ⟨none, _, _, _⟩ => readAll (← IO.getStdin) ByteArray.empty
  | _ => return ByteArray.empty

/-- Writes what a run has changed. -/
def store (before after : FileTree) : IO Unit := do
  for (location, entry) in after.entries do
    if entry = .directory && (before.get? location).isNone then
      IO.FS.createDirAll (pathOf location)
  for (location, contents) in FileTree.changes before after do
    IO.FS.writeBinFile (pathOf location) contents.toByteArray

/-- Runs the command on the machine. -/
def run (arguments : List String) : IO Ending := do
  match Request.ofArguments arguments with
  | .error stop => return Command.endAt stop ⟨[], []⟩
  | .ok request =>
    let tree ← loadFor request
    let surroundings : Surroundings := ⟨(← inputFor request).data.toList, [], fun _ ↦ none⟩
    let ending := Command.run surroundings arguments tree
    store tree ending.tree
    return ending

end JPlusPlus.Machine

/-- The entry point of `jppc`. -/
def main (arguments : List String) : IO UInt32 := do
  let ending ← JPlusPlus.Machine.run arguments
  IO.print ending.stdout
  IO.eprint ending.stderr
  return ending.exit.toUInt32
