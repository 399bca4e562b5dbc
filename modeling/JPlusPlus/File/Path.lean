/-!
# Paths

A path is a text; its segments are what stands between slashes. Empty segments and segments `.` lead
nowhere, and the text of a path keeps them, because messages show a path as it was given. The
functions here work on the text alone; `FileTree` says where a path leads.
-/

namespace JPlusPlus

/-- A path, as its text. -/
structure Path where
  /-- The text of the path. -/
  text : String
  deriving DecidableEq, Repr

namespace Path

/-- What stands between slashes in a text. -/
def split (text : String) : List String := (text.toList.splitOn '/').map String.ofList

/-- Whether a path starts at the root. -/
def isAbsolute (path : Path) : Bool := path.text.toList.head? = some '/'

/-- The segments of a path; the slash that a path from the root starts with divides nothing. -/
def segments (path : Path) : List String :=
  if path.isAbsolute then split (String.ofList path.text.toList.tail) else split path.text

/-- Whether a segment leads nowhere. -/
def isIdle (segment : String) : Bool := segment = "" || segment = "."

/-- The path of the given segments. -/
def ofSegments (absolute : Bool) (segments : List String) : Path :=
  ⟨(if absolute then "/" else "") ++ "/".intercalate segments⟩

/-- Removes the empty segments that slashes at the end of a path leave. -/
def dropSlashes : List String → List String
  | [] => []
  | segment :: more =>
    match dropSlashes more with
    | [] => if segment = "" then [] else [segment]
    | kept => segment :: kept

/-- Whether a path ends in a slash. -/
def endsInSlash (path : Path) : Bool := path.text.toList.getLast? = some '/'

/-! ## Limits -/

/-- The most bytes that the name of an entry has. -/
def maxNameBytes : Nat := 255

/-- The most bytes that a path has. -/
def maxBytes : Nat := 4095

/-- Whether a name is short enough for an entry. -/
def nameFits (name : String) : Bool := name.utf8ByteSize ≤ maxNameBytes

/-- Whether a path is short enough to be followed. -/
def fits (path : Path) : Bool := path.text.utf8ByteSize ≤ maxBytes

/-! ## Parents -/

/-- Removes idle segments at the end; a `.` that starts a relative path counts as a segment. -/
def dropIdle (absolute : Bool) : List String → List String
  | [] => []
  | segment :: more =>
    match dropIdle true more with
    | [] => if isIdle segment && (absolute || segment = "") then [] else [segment]
    | kept => segment :: kept

theorem dropIdle_length_le (absolute : Bool) (segments : List String) :
    (dropIdle absolute segments).length ≤ segments.length := by
  fun_induction dropIdle absolute segments with
  | case1 => simp
  | case2 absolute segment more h _ ih => simp
  | case3 absolute segment more h _ ih => simp
  | case4 absolute segment more _ ih => simpa using ih

/-- The path without its last segment; a path of no segments has no parent, and the parent of a
single segment is the empty path or the root. -/
def parent? (path : Path) : Option Path :=
  match dropIdle path.isAbsolute path.segments with
  | [] => none
  | segment :: more =>
    some (ofSegments path.isAbsolute (dropIdle path.isAbsolute (segment :: more).dropLast))

/-! ## Names and extensions -/

/-- The path of an entry of a directory. -/
def join (path : Path) (name : String) : Path :=
  if path.endsInSlash then ⟨path.text ++ name⟩ else ⟨path.text ++ "/" ++ name⟩

/-- The bytes that can be added to a path before it is too long to be followed. -/
def room (path : Path) : Nat := maxBytes + 1 - path.text.utf8ByteSize

theorem room_join_lt {path : Path} {name : String} (h : path.fits = true) (hname : name ≠ "") :
    (path.join name).room < path.room := by
  have hsize : name.utf8ByteSize ≠ 0 := fun hzero ↦ hname (String.utf8ByteSize_eq_zero_iff.mp hzero)
  rw [fits, decide_eq_true_eq] at h
  rw [room, room, join]
  split <;> simp only [String.utf8ByteSize_append] <;> omega

/-- What follows the last dot of a name; a dot that starts the name does not count as its last. -/
def extension? (name : String) : Option String :=
  match (name.toList.splitOn '.').reverse with
  | [] | [_] | [_, []] => none
  | last :: _ :: _ => some (String.ofList last)

/-- The last segment of a path. -/
def name (path : Path) : String := path.segments.getLast?.getD ""

/-- The path with `extension` for the extension of its name, which is `old`. What is left of the
name `..old` without its extension leads to the parent directory, and so it gets none. -/
def replaceExtension (path : Path) (old extension : String) : Path :=
  let stem : Path := ⟨String.ofList (path.text.toList.take (path.text.length - old.length))⟩
  if stem.name = ".." then stem else ⟨stem.text ++ extension⟩

end Path

end JPlusPlus
