import JPlusPlus.File.Tree
import JPlusPlus.Proofs.File.Path

/-!
# What actions leave in a file tree

Where a path leads depends only on the directories of a tree, so an action that changes files alone
changes where no path leads. An action that makes directories puts them where nothing stood and so
changes the contents of no file; an action that writes changes the contents of one file, to which
its path leads afterwards. What fails changes the contents of no file, though it may leave
directories that it has made on the way.

## Main statements

* `FileTree.SameDirectories.locate_eq_ok`: trees with the same directories give paths the same
  locations.
* `FileTree.sameFiles_makeDirectories`: making directories leaves the contents of all files.
* `FileTree.writtenTo_of_write`: writing a file changes that file and no other.
-/

namespace JPlusPlus.FileTree

variable {tree before after : FileTree} {location : Location} {path : Path}

/-! ## Entries -/

@[simp] theorem get?_nil (tree : FileTree) : tree.get? [] = some .directory := if_pos rfl

theorem get?_put_self (h : location ≠ []) (entry : Entry) :
    (tree.put location entry).get? location = some entry := by
  rw [get?, if_neg h, put, List.lookup_cons_self]

theorem get?_put_of_ne {l : Location} (h : l ≠ location) (entry : Entry) :
    (tree.put location entry).get? l = tree.get? l := by
  have hfilter (entries : List (Location × Entry)) :
      (entries.filter fun e ↦ e.1 ≠ location).lookup l = entries.lookup l := by
    induction entries with
    | nil => rfl
    | cons e entries ih =>
      by_cases he : e.1 = location
      · have hkey : (l == e.1) = false := beq_false_of_ne (he ▸ h)
        rw [List.filter_cons_of_neg (by simpa using he), List.lookup_cons, hkey, ih]
      · rw [List.filter_cons_of_pos (by simpa using he), List.lookup_cons, List.lookup_cons,
          ih]
  have hkey : (l == location) = false := beq_false_of_ne h
  rw [get?, get?, put]
  split
  · rfl
  · rw [List.lookup_cons, hkey]
    exact hfilter tree.entries

theorem contents?_of_get? {l : Location} (h : after.get? l = before.get? l) :
    after.contents? l = before.contents? l := by
  rw [contents?, contents?, h]

/-! ## Trees with the same directories -/

/-- The trees have the same working directory and directories at the same locations. -/
structure SameDirectories (before after : FileTree) : Prop where
  /-- The working directory stays. -/
  home : after.home = before.home
  /-- Directories stay, and none is new. -/
  directory_iff : ∀ l, after.get? l = some .directory ↔ before.get? l = some .directory

theorem SameDirectories.refl (tree : FileTree) : SameDirectories tree tree := ⟨rfl, fun _ ↦ Iff.rfl⟩

theorem SameDirectories.trans {first second third : FileTree} (h : SameDirectories first second)
    (h' : SameDirectories second third) : SameDirectories first third :=
  ⟨h'.home.trans h.home, fun l ↦ (h'.directory_iff l).trans (h.directory_iff l)⟩

/-- A file that is put where no directory stands leaves the directories. -/
theorem SameDirectories.put (hne : location ≠ []) (h : tree.get? location ≠ some .directory)
    (contents : List UInt8) (startable : Bool) :
    SameDirectories tree (tree.put location (.file contents startable)) where
  home := rfl
  directory_iff l := by
    by_cases hl : l = location
    · subst hl
      rw [get?_put_self hne]
      exact iff_of_false nofun h
    · rw [get?_put_of_ne hl]

/-! ## Following paths -/

/-- Where a segment leads from a directory, unless it is too long for a name. -/
def next? (location : Location) (segment : String) : Option Location :=
  if Path.isIdle segment then some location
  else if segment = ".." then some location.dropLast
  else if Path.nameFits segment then some (location ++ [segment])
  else none

theorem follow_cons_eq_ok {segment : String} {more : List String} {l : Location} :
    tree.follow location (segment :: more) = .ok l ↔ tree.get? location = some .directory ∧
      ∃ m, next? location segment = some m ∧ tree.follow m more = .ok l := by
  rw [follow, next?]
  split
  · next h => simp [h]
  · next h => simp [h]
  · next h =>
    rw [h]
    repeat' split
    all_goals simp

theorem follow_append_eq_ok {segments more : List String} {l : Location} :
    tree.follow location (segments ++ more) = .ok l ↔
      ∃ m, tree.follow location segments = .ok m ∧ tree.follow m more = .ok l := by
  induction segments generalizing location with
  | nil => simp [follow]
  | cons segment segments ih =>
    simp only [List.cons_append, follow_cons_eq_ok, ih]
    constructor
    · rintro ⟨hdirectory, m, hm, n, hn, hl⟩
      exact ⟨n, ⟨hdirectory, m, hm, hn⟩, hl⟩
    · rintro ⟨n, ⟨hdirectory, m, hm, hn⟩, hl⟩
      exact ⟨hdirectory, m, hm, n, hn, hl⟩

theorem SameDirectories.follow_eq_ok (h : SameDirectories before after) {segments : List String}
    {l : Location} :
    after.follow location segments = .ok l ↔ before.follow location segments = .ok l := by
  induction segments generalizing location with
  | nil => simp only [follow]
  | cons segment segments ih => simp only [follow_cons_eq_ok, h.directory_iff, ih]

theorem followPath_eq_ok {segments : List String} {l : Location} :
    tree.followPath path segments = .ok l ↔ path.text ≠ "" ∧ path.fits = true ∧
      tree.follow (tree.start path) segments = .ok l := by
  rw [followPath]
  repeat' split
  all_goals simp_all

theorem locate_eq_ok {l : Location} :
    tree.locate path = .ok l ↔ path.text ≠ "" ∧ path.fits = true ∧
      tree.follow (tree.start path) path.segments = .ok l :=
  followPath_eq_ok

theorem SameDirectories.start_eq (h : SameDirectories before after) (path : Path) :
    after.start path = before.start path := by
  rw [start, start, h.home]

/-- Trees with the same directories give paths the same locations. -/
theorem SameDirectories.locate_eq_ok (h : SameDirectories before after) {l : Location} :
    after.locate path = .ok l ↔ before.locate path = .ok l := by
  rw [FileTree.locate_eq_ok, FileTree.locate_eq_ok, h.start_eq, h.follow_eq_ok]

theorem find_eq_ok {l : Location} {entry : Entry} :
    tree.find path = .ok (l, entry) ↔ tree.locate path = .ok l ∧ tree.get? l = some entry := by
  rw [find]
  rcases hlocate : tree.locate path with fault | l'
  · simp [bind, Except.bind]
  · simp only [bind, Except.bind, pure, Except.pure]
    rcases hget : tree.get? l' with _ | entry'
    · simp only [reduceCtorEq, false_iff, Except.ok.injEq, not_and]
      rintro rfl
      simp [hget]
    · simp only [Except.ok.injEq, Prod.mk.injEq]
      constructor
      · rintro ⟨rfl, rfl⟩
        exact ⟨rfl, hget⟩
      · rintro ⟨rfl, he⟩
        rw [hget] at he
        exact ⟨rfl, Option.some.inj he⟩

theorem read_eq_ok {contents : List UInt8} :
    tree.read path = .ok contents ↔
      ∃ l startable, tree.find path = .ok (l, .file contents startable) := by
  rw [read]
  rcases hfind : tree.find path with fault | ⟨l, entry⟩
  · simp [bind, Except.bind]
  · cases entry <;> simp [bind, Except.bind, pure, Except.pure]

theorem readText_congr {tree' : FileTree} {path' : Path} (h : tree.find path = tree'.find path') :
    tree.readText path = tree'.readText path' := by
  rw [readText, readText, read, read, h]

theorem leadsToDirectory_iff :
    tree.leadsToDirectory path = true ↔ ∃ l, tree.find path = .ok (l, .directory) := by
  rw [leadsToDirectory]
  split
  · next l hfind => exact iff_of_true rfl ⟨l, hfind⟩
  · next hnot => exact iff_of_false nofun fun ⟨l, hfind⟩ ↦ hnot l hfind

theorem leadsToFile_iff :
    tree.leadsToFile path = true ↔
      ∃ l contents startable, tree.find path = .ok (l, .file contents startable) := by
  rw [leadsToFile]
  split
  · next l contents startable hfind => exact iff_of_true rfl ⟨l, contents, startable, hfind⟩
  · next hnot =>
    exact iff_of_false nofun fun ⟨l, contents, startable, hfind⟩ ↦ hnot l contents startable hfind

/-! ## Actions that leave the contents of files -/

/-- No file has other contents, no file is gone and none is new. -/
def SameFiles (before after : FileTree) : Prop :=
  ∀ l, after.contents? l = before.contents? l

theorem SameFiles.trans {first second third : FileTree} (h : SameFiles first second)
    (h' : SameFiles second third) : SameFiles first third := fun l ↦ (h' l).trans (h l)

/-- A directory that is put where nothing stands changes no file. -/
theorem sameFiles_put (h : tree.get? location = none) :
    SameFiles tree (tree.put location .directory) := by
  have hne : location ≠ [] := by
    rintro rfl
    rw [get?_nil] at h
    cases h
  intro l
  by_cases hl : l = location
  · subst hl
    rw [contents?, contents?, get?_put_self hne, h]
  · exact contents?_of_get? (get?_put_of_ne hl _)

/-- The tree that an action leaves, also when it fails. -/
def Action.leaves (action : Action Unit) (tree : FileTree) : FileTree :=
  match action tree with
  | .ok _ tree' | .error _ tree' => tree'

theorem Action.leaves_of_ok {action : Action Unit} {tree' : FileTree}
    (h : action tree = .ok () tree') : action.leaves tree = tree' := by
  rw [leaves, h]

theorem Action.leaves_of_error {action : Action Unit} {fault : IoFault} {tree' : FileTree}
    (h : action tree = .error fault tree') : action.leaves tree = tree' := by
  rw [leaves, h]

theorem sameFiles_makeDirectory (path : Path) (tree : FileTree) :
    SameFiles tree ((makeDirectory path).leaves tree) := by
  rw [Action.leaves, makeDirectory]
  rcases hplace : tree.entryLocation? path with fault | _ | location
  · exact fun _ ↦ rfl
  · exact fun _ ↦ rfl
  · dsimp only
    by_cases hhold : canHold location = true
    · rw [hhold, Bool.not_true, if_neg Bool.false_ne_true]
      rcases hget : tree.get? location with _ | entry
      · exact sameFiles_put hget
      · exact fun _ ↦ rfl
    · rw [Bool.not_eq_true] at hhold
      rw [hhold, Bool.not_false, if_pos rfl]
      exact fun _ ↦ rfl

theorem leaves_ensureDirectory (path : Path) (tree : FileTree) :
    (ensureDirectory path).leaves tree = (makeDirectory path).leaves tree := by
  rw [Action.leaves, Action.leaves, ensureDirectory]
  rcases makeDirectory path tree with _ | ⟨fault, tree'⟩
  · rfl
  · cases fault with
    | «exists» => by_cases hdirectory : tree'.leadsToDirectory path = true <;> simp [hdirectory]
    | _ => rfl

theorem sameFiles_ensureDirectory (path : Path) (tree : FileTree) :
    SameFiles tree ((ensureDirectory path).leaves tree) := by
  rw [leaves_ensureDirectory]
  exact sameFiles_makeDirectory path tree

/-- Each directory on the way is made where nothing stood, so no file changes on the way. -/
theorem sameFiles_ensureDirectories (absolute : Bool) (segments : List String) (tree : FileTree) :
    SameFiles tree ((ensureDirectories absolute segments).leaves tree) := by
  rw [Action.leaves]
  fun_induction ensureDirectories absolute segments tree with
  | case1 tree => exact fun _ ↦ rfl
  | case2 tree segment more path tree₁ hfirst _ tree₂ habove ih =>
    have hfirst : SameFiles tree tree₁ :=
      Action.leaves_of_error hfirst ▸ sameFiles_ensureDirectory path tree
    have habove : SameFiles tree₁ tree₂ := by rwa [habove] at ih
    exact (hfirst.trans habove).trans (sameFiles_ensureDirectory path tree₂)
  | case3 tree segment more path tree₁ hfirst fault tree₂ habove ih =>
    have hfirst : SameFiles tree tree₁ :=
      Action.leaves_of_error hfirst ▸ sameFiles_ensureDirectory path tree
    have habove : SameFiles tree₁ tree₂ := by rwa [habove] at ih
    exact hfirst.trans habove
  | case4 tree segment more path => exact sameFiles_ensureDirectory path tree

/-- Making directories leaves the contents of all files. -/
theorem sameFiles_makeDirectories (path : Path) (tree : FileTree) :
    SameFiles tree ((makeDirectories path).leaves tree) :=
  sameFiles_ensureDirectories _ _ tree

/-! ## Writing files -/

theorem entryLocation?_eq {directory : Location} {name : String}
    (hfollow : tree.followPath path (Path.dropSlashes path.segments).dropLast = .ok directory)
    (hdirectory : tree.get? directory = some .directory)
    (hlast : (Path.dropSlashes path.segments).getLast? = some name) :
    tree.entryLocation? path =
      .ok (if Path.isIdle name || name = ".." then none else some (directory ++ [name])) := by
  simp only [entryLocation?, hfollow, bind, Except.bind, hdirectory, hlast]
  split <;> rfl

theorem exists_of_entryLocation? {l : Location} (h : tree.entryLocation? path = .ok (some l)) :
    ∃ directory name,
      tree.followPath path (Path.dropSlashes path.segments).dropLast = .ok directory ∧
      tree.get? directory = some .directory ∧
      (Path.dropSlashes path.segments).getLast? = some name ∧ Path.isIdle name = false ∧
      name ≠ ".." ∧ l = directory ++ [name] := by
  rcases hfollow : tree.followPath path (Path.dropSlashes path.segments).dropLast with
    fault | directory
  · simp [entryLocation?, hfollow, bind, Except.bind] at h
  · rcases hget : tree.get? directory with _ | _ | _
    · simp [entryLocation?, hfollow, hget, bind, Except.bind, throw, throwThe,
        MonadExceptOf.throw] at h
    · rcases hlast : (Path.dropSlashes path.segments).getLast? with _ | name
      · simp [entryLocation?, hfollow, hget, hlast, bind, Except.bind, pure, Except.pure] at h
      · rw [entryLocation?_eq hfollow hget hlast] at h
        split at h
        · cases h
        · next hname =>
          rw [Bool.or_eq_true, decide_eq_true_eq, not_or, Bool.not_eq_true] at hname
          cases h
          exact ⟨directory, name, rfl, hget, rfl, hname.1, hname.2, rfl⟩
    · simp [entryLocation?, hfollow, hget, bind, Except.bind, throw, throwThe,
        MonadExceptOf.throw] at h

/-- The entry that a path names is where the path leads, unless it has a slash at its end. -/
theorem locate_of_entryLocation? {l : Location} (h : tree.entryLocation? path = .ok (some l))
    (hslash : path.endsInSlash = false) (hhold : canHold l = true) : tree.locate path = .ok l := by
  obtain ⟨directory, name, hfollow, hdirectory, hlast, hidle, hup, rfl⟩ :=
    exists_of_entryLocation? h
  obtain ⟨htext, hfits, hfollow⟩ := followPath_eq_ok.mp hfollow
  have hplain : Path.dropSlashes path.segments = path.segments := by
    apply Path.dropSlashes_eq_self
    intro hempty
    rw [← Path.endsInSlash_iff htext, hslash] at hempty
    exact Bool.false_ne_true hempty
  rw [hplain] at hfollow hlast
  have hsegments : path.segments = path.segments.dropLast ++ [name] := by
    obtain ⟨segments, hsegments⟩ := List.getLast?_eq_some_iff.mp hlast
    rw [hsegments, List.dropLast_concat]
  have hname : next? directory name = some (directory ++ [name]) := by
    have hfits : Path.nameFits name = true := by simpa [canHold] using hhold
    rw [next?, hidle, if_neg Bool.false_ne_true, if_neg hup, if_pos hfits]
  refine locate_eq_ok.mpr ⟨htext, hfits, ?_⟩
  rw [hsegments]
  refine follow_append_eq_ok.mpr ⟨directory, hfollow, ?_⟩
  refine follow_cons_eq_ok.mpr ⟨hdirectory, _, hname, ?_⟩
  rw [follow]

theorem write_eq_ok {contents : List UInt8} {tree' : FileTree} :
    write path contents tree = .ok () tree' ↔ ∃ l, tree.entryLocation? path = .ok (some l) ∧
      path.endsInSlash = false ∧ canHold l = true ∧ tree.get? l ≠ some .directory ∧
      tree' = tree.put l (.file contents (tree.isStartable l)) := by
  rw [write]
  rcases hplace : tree.entryLocation? path with fault | _ | l
  · simp
  · simp
  · have hdirectory : tree.isDirectory l = false ↔ tree.get? l ≠ some .directory := by
      rw [isDirectory, decide_eq_false_iff_not]
    simp only [Except.ok.injEq, Option.some.injEq, exists_eq_left', ← hdirectory]
    cases path.endsInSlash <;> cases canHold l <;> cases tree.isDirectory l <;>
      simp [eq_comm (a := tree')]

/-- Writing a file that fails changes nothing. -/
theorem leaves_write_of_error {contents : List UInt8} {fault : IoFault} {tree' : FileTree}
    (h : write path contents tree = .error fault tree') : tree' = tree := by
  rw [write] at h
  repeat' split at h
  all_goals cases h
  all_goals rfl

/-- The file that a path leads to has the given contents, and no other file has changed. -/
structure WrittenTo (before after : FileTree) (path : Path) (contents : List UInt8) : Prop where
  /-- The path leads to a file with the contents. -/
  read_eq : after.read path = .ok contents
  /-- The other files are as they were. -/
  others : ∀ l, after.locate path ≠ .ok l → after.contents? l = before.contents? l

theorem SameFiles.writtenTo {first second third : FileTree} {contents : List UInt8}
    (h : SameFiles first second) (h' : WrittenTo second third path contents) :
    WrittenTo first third path contents :=
  ⟨h'.read_eq, fun l hl ↦ (h'.others l hl).trans (h l)⟩

/-- Writing a file changes that file and no other. -/
theorem writtenTo_of_write {contents : List UInt8} {tree' : FileTree}
    (h : write path contents tree = .ok () tree') : WrittenTo tree tree' path contents := by
  obtain ⟨l, hplace, hslash, hhold, hfree, rfl⟩ := write_eq_ok.mp h
  have hne : l ≠ [] := by
    obtain ⟨directory, name, -, -, -, -, -, rfl⟩ := exists_of_entryLocation? hplace
    simp
  have hsame : SameDirectories tree (tree.put l (.file contents (tree.isStartable l))) :=
    .put hne hfree _ _
  have hlocate := hsame.locate_eq_ok.mpr (locate_of_entryLocation? hplace hslash hhold)
  constructor
  · exact read_eq_ok.mpr ⟨l, _, find_eq_ok.mpr ⟨hlocate, get?_put_self hne _⟩⟩
  · intro l' hl'
    have hother : l' ≠ l := fun he ↦ hl' (he ▸ hlocate)
    exact contents?_of_get? (get?_put_of_ne hother _)

end JPlusPlus.FileTree
