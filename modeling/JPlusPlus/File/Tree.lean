import JPlusPlus.File.Path
import JPlusPlus.Text.Utf8

/-!
# File trees

The files and directories that the command works on. An entry has a location, which is the list of
names that lead to it from the root; the root itself is always a directory. Paths are followed
segment by segment from the root or, if they are relative, from the working directory: every
location passed on the way must be a directory, `..` leads to the directory above, and at the root
it leads nowhere. The length of a path is looked at before it is followed, and the length of a name
when it is looked for.

Each operation fails for the reasons that a file system gives, and a failed operation changes
nothing. Permissions are not part of a tree, but for whether a file may be started: all that stands
in it may be read, listed and written.
-/

namespace JPlusPlus

/-- The names that lead from the root to an entry. -/
abbrev Location := List String

/-- What stands at a location. -/
inductive Entry where
  /-- A directory. -/
  | directory
  /-- A file with its contents, and whether it may be started as a program. -/
  | file (contents : List UInt8) (startable : Bool)
  deriving DecidableEq

/-- Why an operation on files fails. -/
inductive IoFault where
  /-- Nothing stands at the location. -/
  | notFound
  /-- Something stands there already. -/
  | exists
  /-- A directory is needed and something else stands there. -/
  | notDirectory
  /-- A file is needed and a directory stands there. -/
  | isDirectory
  /-- What stands there may not be used in this way. -/
  | denied
  /-- A name or a path is longer than names and paths can be. -/
  | nameTooLong
  /-- The contents are not a program. -/
  | notProgram
  /-- The contents are not text. -/
  | notText
  /-- A program has closed its input. -/
  | brokenPipe
  /-- There is no program to wait for. -/
  | noChild
  deriving DecidableEq, Repr

/-- The wording of a fault. -/
def IoFault.message : IoFault → String
  | notFound => "No such file or directory (os error 2)"
  | .exists => "File exists (os error 17)"
  | notDirectory => "Not a directory (os error 20)"
  | isDirectory => "Is a directory (os error 21)"
  | denied => "Permission denied (os error 13)"
  | nameTooLong => "File name too long (os error 36)"
  | notProgram => "Exec format error (os error 8)"
  | notText => "stream did not contain valid UTF-8"
  | brokenPipe => "Broken pipe (os error 32)"
  | noChild => "No child processes (os error 10)"

/-- A tree of files with a working directory. -/
structure FileTree where
  /-- The working directory. -/
  home : Location
  /-- The entries below the root; only the first entry of a location counts. -/
  entries : List (Location × Entry)

namespace FileTree

/-! ## Entries -/

/-- What stands at a location. -/
def get? (tree : FileTree) (location : Location) : Option Entry :=
  if location = [] then some .directory else tree.entries.lookup location

/-- The tree with an entry put at a location, in place of what stood there. -/
def put (tree : FileTree) (location : Location) (entry : Entry) : FileTree :=
  { tree with entries := (location, entry) :: tree.entries.filter fun e ↦ e.1 ≠ location }

/-- The contents of the file at a location. -/
def contents? (tree : FileTree) (location : Location) : Option (List UInt8) :=
  match tree.get? location with
  | some (.file contents _) => some contents
  | _ => none

/-- Whether a file that may be started stands at a location. -/
def isStartable (tree : FileTree) (location : Location) : Bool :=
  match tree.get? location with
  | some (.file _ startable) => startable
  | _ => false

/-- Whether a directory stands at a location. -/
def isDirectory (tree : FileTree) (location : Location) : Bool :=
  tree.get? location = some .directory

/-! ## Following paths -/

/-- Follows segments from a location, at which a directory must stand if there are any. -/
def follow (tree : FileTree) (location : Location) : List String → Except IoFault Location
  | [] => .ok location
  | segment :: more =>
    match tree.get? location with
    | none => .error .notFound
    | some (.file _ _) => .error .notDirectory
    | some .directory =>
      if Path.isIdle segment then tree.follow location more
      else if segment = ".." then tree.follow location.dropLast more
      else if Path.nameFits segment then tree.follow (location ++ [segment]) more
      else .error .nameTooLong

/-- The location that a path starts from. -/
def start (tree : FileTree) (path : Path) : Location := if path.isAbsolute then [] else tree.home

/-- Follows the segments that a path starts with; a path that is empty or too long leads nowhere. -/
def followPath (tree : FileTree) (path : Path) (segments : List String) :
    Except IoFault Location :=
  if path.text = "" then .error .notFound
  else if path.fits then tree.follow (tree.start path) segments
  else .error .nameTooLong

/-- The location that a path leads to, at which something need not stand yet. -/
def locate (tree : FileTree) (path : Path) : Except IoFault Location :=
  tree.followPath path path.segments

/-- What stands where a path leads, with the location. -/
def find (tree : FileTree) (path : Path) : Except IoFault (Location × Entry) := do
  let location ← tree.locate path
  match tree.get? location with
  | none => .error .notFound
  | some entry => return (location, entry)

/-! ## Reading and writing -/

/-- The contents of the file that a path leads to. -/
def read (tree : FileTree) (path : Path) : Except IoFault (List UInt8) := do
  match ← tree.find path with
  | (_, .directory) => .error .isDirectory
  | (_, .file contents _) => return contents

/-- The text of the file that a path leads to. -/
def readText (tree : FileTree) (path : Path) : Except IoFault String := do
  match Utf8.strict? (← tree.read path) with
  | none => .error .notText
  | some text => return text

/-! ## Changing the tree

An action on the tree changes it or fails; what it has changed before it fails stays changed. -/

/-- An action on the tree. -/
abbrev Action : Type → Type := EStateM IoFault FileTree

/-- The location of the entry that a path names, be it there or not, in a directory that must be
there. None when the path names no entry of a directory but the directory itself, by a last segment
`.` or `..` or by having no segments. -/
def entryLocation? (tree : FileTree) (path : Path) : Except IoFault (Option Location) := do
  let segments := Path.dropSlashes path.segments
  let directory ← tree.followPath path segments.dropLast
  match tree.get? directory, segments.getLast? with
  | none, _ => throw .notFound
  | some (.file _ _), _ => throw .notDirectory
  | some .directory, none => return none
  | some .directory, some name =>
    if Path.isIdle name || name = ".." then return none else return some (directory ++ [name])

/-- Whether the last name of a location is short enough for an entry. -/
def canHold (location : Location) : Bool := (location.getLast?.map Path.nameFits).getD true

/-- Writes a file, new or in place of the contents it had; a path that ends in a slash names no
file. A file that may be started stays one, and a new file is none. -/
def write (path : Path) (contents : List UInt8) : Action Unit := fun tree ↦
  match tree.entryLocation? path with
  | .error fault => .error fault tree
  | .ok none => .error .isDirectory tree
  | .ok (some location) =>
    if path.endsInSlash then .error .isDirectory tree
    else if !canHold location then .error .nameTooLong tree
    else if tree.isDirectory location then .error .isDirectory tree
    else .ok () (tree.put location (.file contents (tree.isStartable location)))

/-- Makes a directory where nothing stands. -/
def makeDirectory (path : Path) : Action Unit := fun tree ↦
  match tree.entryLocation? path with
  | .error fault => .error fault tree
  | .ok none => .error .exists tree
  | .ok (some location) =>
    if !canHold location then .error .nameTooLong tree
    else
      match tree.get? location with
      | some _ => .error .exists tree
      | none => .ok () (tree.put location .directory)

/-- Whether a path leads to a directory. -/
def leadsToDirectory (tree : FileTree) (path : Path) : Bool :=
  match tree.find path with
  | .ok (_, .directory) => true
  | _ => false

/-- Makes a directory unless it is there. -/
def ensureDirectory (path : Path) : Action Unit := fun tree ↦
  match makeDirectory path tree with
  | .error .exists tree => if tree.leadsToDirectory path then .ok () tree else .error .exists tree
  | result => result

/-- Makes the directory of the given segments, and the directories above it where they are missing;
the directories that could be made stay when a further one cannot. -/
def ensureDirectories (absolute : Bool) (segments : List String) : Action Unit := fun tree ↦
  match segments with
  | [] => .ok () tree
  | segment :: more =>
    let path := Path.ofSegments absolute (segment :: more)
    match ensureDirectory path tree with
    | .error .notFound tree =>
      match ensureDirectories absolute (Path.dropIdle absolute (segment :: more).dropLast) tree with
      | .ok _ tree => ensureDirectory path tree
      | .error fault tree => .error fault tree
    | result => result
termination_by segments.length
decreasing_by
  have shorter := Path.dropIdle_length_le absolute (segment :: more).dropLast
  simp only [List.length_dropLast, List.length_cons] at shorter ⊢
  omega

/-- Makes the directory that a path names, and the directories above it. -/
def makeDirectories (path : Path) : Action Unit :=
  ensureDirectories path.isAbsolute (Path.dropIdle path.isAbsolute path.segments)

/-! ## Going through the tree -/

/-- The order of names: by their characters from the left, a character by its number. -/
def compareNames (a b : String) : Ordering :=
  List.compareLex (fun c d ↦ compareOfLessAndEq c.toNat d.toNat) a.toList b.toList

/-- An entry of a directory, as the directory lists it. -/
structure Child where
  /-- Its name. -/
  name : String
  /-- A name is not empty. -/
  name_ne : name ≠ ""
  /-- Whether it is a directory itself. -/
  isDirectory : Bool

/-- What is to be listed of an entry of the tree in the directory at a location. -/
def child? (location : Location) (e : Location × Entry) : Option Child :=
  match location.isPrefixOf? e.1 with
  | some [name] => if h : name ≠ "" then some ⟨name, h, e.2 = .directory⟩ else none
  | _ => none

/-- What stands in the directory at a location, in the order of the names. -/
def children (tree : FileTree) (location : Location) : List Child :=
  (tree.entries.filterMap (child? location)).mergeSort fun a b ↦ (compareNames a.name b.name).isLE

/-- What the directory that a path leads to lists. -/
structure Listing (path : Path) where
  /-- What stands in the directory, in the order of the names. -/
  children : List Child
  /-- The path is short enough to lead to it. -/
  fits : path.fits = true

/-- Lists the directory that a path leads to. -/
def list (tree : FileTree) (path : Path) : Except IoFault (Listing path) :=
  if h : path.fits = true then
    match tree.find path with
    | .error fault => .error fault
    | .ok (_, .file _ _) => .error .notDirectory
    | .ok (location, .directory) => .ok ⟨tree.children location, h⟩
  else .error .nameTooLong

/-- Whether a path leads to a file. -/
def leadsToFile (tree : FileTree) (path : Path) : Bool :=
  match tree.find path with
  | .ok (_, .file _ _) => true
  | _ => false

/-- The files of a later tree that are not in an earlier one with the same contents. -/
def changes (before after : FileTree) : List (Location × List UInt8) :=
  after.entries.filterMap fun e ↦
    match after.contents? e.1 with
    | none => none
    | some contents => if before.contents? e.1 = some contents then none else some (e.1, contents)

end FileTree

end JPlusPlus
