import JPlusPlus.Proofs.Command.Source
import JPlusPlus.Proofs.File.Walk
import Mathlib.Data.List.TakeWhile

/-!
# Compiling on the way

A run on a directory walks, reads and writes in turn, and all that on one tree: a directory is
listed when it is met, and by then there may be scripts in it that were not there when the run
began. Here it is shown that the run does what it would do along the entries of the first tree, in
the order of a walk.

The tree that the run has come to is `Step.Compiled` from the first one: the directories are the
same and the sources are as they were, so the listing of a directory has the same directories and
the same sources in it, and what else it has is passed over.

## Main statements

* `Step.Compiled.seesSource_eq`: what is written changes no source that is visited later.
* `Step.compilesAlong_compileAt`: a walk that compiles on the way compiles what the first tree has.
-/

namespace JPlusPlus.Step

open FileTree (WellFormed find_eq_ok locate_eq_ok leadsToFile_iff)

variable {tree middle : FileTree} {root path : Path} {location names : Location}
  {paths : List Path}

/-! ## Source files on the way -/

/-- Whether the last name of a location has the extension of sources. -/
def hasSourceName (location : Location) : Bool :=
  location.getLast?.bind Path.extension? = some sourceExtension

theorem exists_of_hasSourceName {l : Location} (h : hasSourceName l = true) :
    ∃ directory stem, stem ≠ "" ∧ l = directory ++ [stem ++ sourceExtension] := by
  rw [hasSourceName, decide_eq_true_eq, Option.bind_eq_some_iff] at h
  obtain ⟨name, hname, hextension⟩ := h
  obtain ⟨directory, rfl⟩ := List.getLast?_eq_some_iff.mp hname
  obtain ⟨stem, -, rfl⟩ := Path.exists_stem hextension
  exact ⟨directory, stem ++ ".", by simp, rfl⟩

/-- A path that leads to a file is that of a source file when its location says so. -/
theorem isSource_of_find (htree : WellFormed tree) {contents : List UInt8} {startable : Bool}
    (h : tree.find path = .ok (location, .file contents startable)) :
    isSource path = hasSourceName location := by
  obtain ⟨directory, name, rfl, hnames⟩ := htree.names_of_find h
  obtain ⟨segments, hsegments, -⟩ := hnames.leads
  have hname : path.name = name := by
    rw [Path.name, hsegments, List.getLast?_concat]
    rfl
  rw [isSource, hasSourceName, hname, List.getLast?_concat]
  rfl

/-- Whether a source file is found at a path. -/
def seesSource (tree : FileTree) (path : Path) : Bool := tree.leadsToFile path && isSource path

theorem seesSource_iff (htree : WellFormed tree) :
    seesSource tree path = true ↔ ∃ l contents startable,
      tree.find path = .ok (l, .file contents startable) ∧ hasSourceName l = true := by
  rw [seesSource, Bool.and_eq_true, leadsToFile_iff]
  constructor
  · rintro ⟨⟨l, contents, startable, hfind⟩, hsource⟩
    exact ⟨l, contents, startable, hfind, isSource_of_find htree hfind ▸ hsource⟩
  · rintro ⟨l, contents, startable, hfind, hsource⟩
    exact ⟨⟨l, contents, startable, hfind⟩, (isSource_of_find htree hfind).trans hsource⟩

theorem leadsToSource_of_seesSource (htree : WellFormed tree) (h : seesSource tree path = true) :
    ∃ directory stem, LeadsToSource tree path directory stem := by
  obtain ⟨l, contents, startable, hfind, hsource⟩ := (seesSource_iff htree).mp h
  obtain ⟨directory, stem, hne, rfl⟩ := exists_of_hasSourceName hsource
  obtain ⟨directory', name, heq, hnames⟩ := htree.names_of_find hfind
  obtain ⟨rfl, hname⟩ := List.append_inj' heq rfl
  obtain rfl := List.singleton_inj.mp hname
  exact ⟨directory, stem, hnames, hne, contents, startable, (find_eq_ok.mp hfind).2⟩

/-- What is written changes no source that is visited later: at each path a source file is found
when one was found there before. -/
theorem Compiled.seesSource_eq (h : Compiled tree paths middle) (htree : WellFormed tree)
    (path : Path) : seesSource middle path = seesSource tree path := by
  rw [Bool.eq_iff_iff, seesSource_iff h.wellFormed, seesSource_iff htree]
  refine exists₃_congr fun l contents startable ↦ and_congr_left fun hsource ↦ ?_
  obtain ⟨directory, stem, -, rfl⟩ := exists_of_hasSourceName hsource
  rw [find_eq_ok, find_eq_ok, h.sameDirectories.locate_eq_ok, h.get?_source htree]

theorem visit_of_seesSource (h : seesSource tree path = true) (verbose : Bool) (out err : String) :
    visit verbose path ⟨tree, out, err⟩ =
      (compileFile verbose path >>= fun _ ↦ pure 1) ⟨tree, out, err⟩ := by
  rw [seesSource] at h
  rw [visit, bind_of_ok (get_apply _), if_pos h]

theorem visit_of_not_seesSource (h : seesSource tree path = false) (verbose : Bool)
    (out err : String) : visit verbose path ⟨tree, out, err⟩ = .ok 0 ⟨tree, out, err⟩ := by
  rw [seesSource] at h
  rw [visit, bind_of_ok (get_apply _), h]
  rfl

/-! ## Along entries -/

/-- Whether a run comes past an entry: the path of a directory must lead there, and a source file
must have a script. -/
def passes (tree : FileTree) (root : Path) (e : Location × Entry) : Bool :=
  FileTree.goesOn root e &&
    (!seesSource tree (root.joinAll e.1) || isReady tree (root.joinAll e.1))

/-- The paths of the source files among entries, up to the first entry that a run does not come
past. -/
def readyPaths (tree : FileTree) (root : Path) (es : List (Location × Entry)) : List Path :=
  ((es.takeWhile (passes tree root)).filter fun e ↦ seesSource tree (root.joinAll e.1)).map
    fun e ↦ root.joinAll e.1

/-- The step compiles the source files among entries of a tree, up to the first entry that it does
not come past, where it fails. It does so on every tree that differs by scripts that were written
before. -/
def CompilesAlong (tree : FileTree) (root : Path) (step : Step Nat)
    (es : List (Location × Entry)) : Prop :=
  ∀ paths middle, Compiled tree paths middle → ∀ out err, ∃ after err',
    Compiled tree (paths ++ readyPaths tree root es) after ∧
      ((∀ e ∈ es, passes tree root e = true) ∧
          (∃ count, step ⟨middle, out, err⟩ = .ok count ⟨after, out, err'⟩) ∨
        ¬(∀ e ∈ es, passes tree root e = true) ∧
          ∃ failure, step ⟨middle, out, err⟩ = .error failure ⟨after, out, err'⟩)

variable {es es' : List (Location × Entry)} {e : Location × Entry}

theorem readyPaths_cons (hpass : passes tree root e = true)
    (hsees : seesSource tree (root.joinAll e.1) = false) :
    readyPaths tree root (e :: es) = readyPaths tree root es := by
  rw [readyPaths, List.takeWhile_cons_of_pos hpass, List.filter_cons_of_neg (by simp [hsees]),
    readyPaths]

theorem readyPaths_of_not_passes (h : passes tree root e = false) :
    readyPaths tree root (e :: es) = [] := by
  rw [readyPaths, List.takeWhile_cons_of_neg (by simp [h])]
  rfl

theorem readyPaths_append (h : ∀ e ∈ es, passes tree root e = true) :
    readyPaths tree root (es ++ es') = readyPaths tree root es ++ readyPaths tree root es' := by
  rw [readyPaths, List.takeWhile_append_of_pos h, List.filter_append, List.map_append, readyPaths,
    List.takeWhile_eq_self_iff.mpr h, readyPaths]

theorem readyPaths_append_of_not (h : ¬∀ e ∈ es, passes tree root e = true) :
    readyPaths tree root (es ++ es') = readyPaths tree root es := by
  have hlength : (es.takeWhile (passes tree root)).length ≠ es.length := by
    intro heq
    have hself := (List.takeWhile_prefix (passes tree root)).eq_of_length heq
    exact h (List.takeWhile_eq_self_iff.mp hself)
  rw [readyPaths, List.takeWhile_append, if_neg hlength, readyPaths]

/-- Two steps, one after the other. -/
theorem CompilesAlong.bind {first second : Step Nat} (h : CompilesAlong tree root first es)
    (h' : CompilesAlong tree root second es') :
    CompilesAlong tree root (do return (← first) + (← second)) (es ++ es') := by
  intro paths middle hmiddle out err
  obtain ⟨after, err', hafter, ⟨hpass, count, hfirst⟩ | ⟨hpass, failure, hfirst⟩⟩ :=
    h _ _ hmiddle out err
  · obtain ⟨later, err'', hlater, hresult⟩ := h' _ _ hafter out err'
    rw [List.append_assoc, ← readyPaths_append hpass] at hlater
    refine ⟨later, err'', hlater, ?_⟩
    rw [bind_of_ok hfirst, List.forall_mem_append, and_iff_right hpass]
    refine hresult.imp (And.imp_right ?_) (And.imp_right ?_)
    · rintro ⟨count', hsecond⟩
      exact ⟨count + count', bind_of_ok hsecond⟩
    · rintro ⟨failure, hsecond⟩
      exact ⟨failure, bind_of_error hsecond⟩
  · rw [← readyPaths_append_of_not hpass] at hafter
    refine ⟨after, err', hafter, .inr ⟨fun hall ↦ ?_, failure, bind_of_error hfirst⟩⟩
    exact hpass (List.forall_mem_append.mp hall).1

/-- A step that does nothing, along entries at which there is nothing to do. -/
theorem compilesAlong_of_idle {step : Step Nat}
    (hstep : ∀ {paths middle}, Compiled tree paths middle → ∀ out err,
      ∃ count, step ⟨middle, out, err⟩ = .ok count ⟨middle, out, err⟩)
    (hes : ∀ e ∈ es, FileTree.goesOn root e = true ∧
      seesSource tree (root.joinAll e.1) = false) :
    CompilesAlong tree root step es := by
  intro paths middle hmiddle out err
  have hpass : ∀ e ∈ es, passes tree root e = true := by
    intro e he
    obtain ⟨hgoes, hsees⟩ := hes e he
    rw [passes, hgoes, hsees]
    rfl
  have hpaths : readyPaths tree root es = [] := by
    rw [readyPaths, List.takeWhile_eq_self_iff.mpr hpass, List.filter_eq_nil_iff.mpr]
    · rfl
    · exact fun e he ↦ by simp [(hes e he).2]
  refine ⟨middle, err, ?_, .inl ⟨hpass, hstep hmiddle out err⟩⟩
  rwa [hpaths, List.append_nil]

/-- A visit at which a source file is found. -/
theorem compilesAlong_visit (htree : WellFormed tree) (verbose : Bool)
    (h : seesSource tree (root.joinAll e.1) = true) (hgoes : FileTree.goesOn root e = true) :
    CompilesAlong tree root (visit verbose (root.joinAll e.1)) [e] := by
  intro paths middle hmiddle out err
  obtain ⟨directory, stem, hsource⟩ := leadsToSource_of_seesSource htree h
  have hsource' := hmiddle.leadsToSource htree hsource
  have hscript := hmiddle.script?_eq htree hsource
  have hvisit := visit_of_seesSource ((hmiddle.seesSource_eq htree _).trans h) verbose out err
  have hpass : passes tree root e = isReady tree (root.joinAll e.1) := by
    rw [passes, hgoes, h]
    rfl
  rw [hvisit, List.forall_mem_singleton, hpass]
  rcases hcode : script? tree (root.joinAll e.1) with _ | code
  · have hready : isReady tree (root.joinAll e.1) = false := by rw [isReady, hcode]; rfl
    obtain ⟨failure, hfile⟩ := hsource'.compileFile_of_none (hscript.trans hcode) verbose
    rw [readyPaths_of_not_passes (hpass.trans hready), List.append_nil]
    exact ⟨middle, err, hmiddle, .inr ⟨by simp [hready], failure, bind_of_error (hfile out err)⟩⟩
  · have hready : isReady tree (root.joinAll e.1) = true := by rw [isReady, hcode]; rfl
    obtain ⟨err', hfile⟩ :=
      hsource'.compileFile_of_some hmiddle.wellFormed (hscript.trans hcode) verbose out err
    have hpaths : readyPaths tree root [e] = [root.joinAll e.1] := by
      rw [readyPaths, List.takeWhile_cons_of_pos (hpass.trans hready), List.takeWhile_nil,
        List.filter_singleton, h]
      rfl
    rw [hpaths]
    exact ⟨_, err', hmiddle.concat htree hsource hcode, .inl ⟨hready, 1, bind_of_ok hfile⟩⟩

/-! ## Along a tree -/

theorem compileAt_of_not_directory (verbose : Bool) (root path : Path) :
    compileAt verbose root path false = visit verbose path := by
  funext session
  rw [compileAt, bind_of_ok (get_apply _)]
  rcases hvisit : visit verbose path session with ⟨count, session'⟩ | ⟨failure, session'⟩
  · exact bind_of_ok hvisit
  · exact bind_of_error hvisit

/-- A directory is listed, and its entries are gone through. -/
theorem compileAt_of_listed {listing : FileTree.Listing path} (hlist : tree.list path = .ok listing)
    (hsees : seesSource tree path = false) (verbose : Bool) (root : Path) (out err : String) :
    compileAt verbose root path true ⟨tree, out, err⟩ = (do
      return 0 + (← compileEach verbose root path listing.fits listing.children))
        ⟨tree, out, err⟩ := by
  rw [compileAt, bind_of_ok (get_apply _),
    bind_of_ok (visit_of_not_seesSource hsees verbose out err), hlist]
  exact bind_of_ok (orFail_ok _ _ _)

theorem compileAt_of_not_listed {fault : IoFault} (hlist : tree.list path = .error fault)
    (hsees : seesSource tree path = false) (verbose : Bool) (root : Path) (out err : String) :
    compileAt verbose root path true ⟨tree, out, err⟩ =
      .error (.walk root path fault) ⟨tree, out, err⟩ := by
  rw [compileAt, bind_of_ok (get_apply _),
    bind_of_ok (visit_of_not_seesSource hsees verbose out err), hlist]
  exact bind_of_error (orFail_error _ _ _)

/-- The entries of a directory are gone through one after the other. -/
theorem compilesAlong_compileEach {verbose : Bool} {hfits : path.fits = true}
    {children : List FileTree.Child} {entries : FileTree.Child → List (Location × Entry)}
    (h : ∀ child ∈ children, CompilesAlong tree root
      (compileAt verbose root (path.join child.name) child.isDirectory) (entries child)) :
    CompilesAlong tree root (compileEach verbose root path hfits children)
      (children.flatMap entries) := by
  induction children with
  | nil =>
    rw [compileEach]
    exact compilesAlong_of_idle (fun _ _ _ ↦ ⟨0, rfl⟩) (List.forall_mem_nil _)
  | cons child children ih =>
    obtain ⟨hchild, hchildren⟩ := List.forall_mem_cons.mp h
    rw [compileEach, List.flatMap_cons]
    exact hchild.bind (ih hchildren)

/-- The path of joined names leads where the names lead, if it is short enough. -/
def Leads (tree : FileTree) (root : Path) (location names : Location) : Prop :=
  (root.joinAll names).fits = true → tree.locate (root.joinAll names) = .ok (location ++ names)

theorem Leads.get?_of_seesSource (h : Leads tree root location names) (htree : WellFormed tree)
    (hsees : seesSource tree (root.joinAll names) = true) : ∃ contents startable,
      tree.get? (location ++ names) = some (.file contents startable) := by
  obtain ⟨l, contents, startable, hfind, -⟩ := (seesSource_iff htree).mp hsees
  obtain ⟨hlocate, hget⟩ := find_eq_ok.mp hfind
  rw [h (locate_eq_ok.mp hlocate).2.1] at hlocate
  rw [← Except.ok.inj hlocate] at hget
  exact ⟨contents, startable, hget⟩

theorem Leads.seesSource_of_directory (h : Leads tree root location names) (htree : WellFormed tree)
    (hget : tree.get? (location ++ names) = some .directory) :
    seesSource tree (root.joinAll names) = false := by
  refine Bool.eq_false_iff.mpr fun hsees ↦ ?_
  obtain ⟨_, _, hfile⟩ := h.get?_of_seesSource htree hsees
  cases hget.symm.trans hfile

/-- A visit where no directory stands. -/
theorem Leads.compilesAlong_visit (h : Leads tree root location names) (htree : WellFormed tree)
    (hne : tree.get? (location ++ names) ≠ some .directory) (verbose : Bool) :
    CompilesAlong tree root (visit verbose (root.joinAll names))
      (tree.entriesAt location names) := by
  rw [htree.entriesAt_of_ne hne]
  cases hsees : seesSource tree (root.joinAll names) with
  | true =>
    obtain ⟨contents, startable, hget⟩ := h.get?_of_seesSource htree hsees
    rw [hget]
    exact Step.compilesAlong_visit htree verbose hsees rfl
  | false =>
    refine compilesAlong_of_idle (fun hmiddle out err ↦ ⟨0, ?_⟩) fun e he ↦ ?_
    · have hsees' := (hmiddle.seesSource_eq htree (root.joinAll names)).trans hsees
      exact visit_of_not_seesSource hsees' verbose out err
    · obtain ⟨entry, hget, rfl⟩ := Option.map_eq_some_iff.mp (Option.mem_toList.mp he)
      rcases entry with _ | ⟨contents, startable⟩
      · exact absurd hget hne
      · exact ⟨rfl, hsees⟩

/-- What is listed in a directory of a later tree. -/
theorem Compiled.leads_child (h : Compiled tree paths middle)
    (hroot : tree.locate root = .ok location) {child : FileTree.Child}
    (hchild : child ∈ middle.children (location ++ names)) :
    Leads tree root location (names ++ [child.name]) ∧ (child.isDirectory = true ↔
      tree.get? (location ++ (names ++ [child.name])) = some .directory) := by
  obtain ⟨entry, hget, hdirectory⟩ := h.wellFormed.mem_children.mp hchild
  refine ⟨fun hfits ↦ ?_, ?_⟩
  · have hnames := h.wellFormed.names_joinAll (h.sameDirectories.locate_eq_ok.mpr hroot) hget hfits
    rw [← h.sameDirectories.locate_eq_ok, hnames.locate_eq, List.append_assoc]
  · rw [hdirectory, decide_eq_true_eq, ← h.sameDirectories.directory_iff, ← List.append_assoc, hget,
      Option.some_inj]

theorem Compiled.exists_child (h : Compiled tree paths middle) (htree : WellFormed tree)
    {l : Location} {name : String} {entry : Entry} (hget : tree.get? (l ++ [name]) = some entry) :
    ∃ child ∈ middle.children l, child.name = name := by
  obtain ⟨entry', hget'⟩ := h.exists_get? htree hget
  have hname := (htree.parent hget).1.ne_empty
  exact ⟨⟨name, hname, decide (entry' = .directory)⟩,
    h.wellFormed.mem_children.mpr ⟨entry', hget', rfl⟩, rfl⟩

/-- What stands at and below a directory, by the entries that it lists in a later tree. -/
theorem Compiled.entriesAt_eq (h : Compiled tree paths middle) (htree : WellFormed tree)
    (hget : tree.get? (location ++ names) = some .directory) :
    tree.entriesAt location names = (names, .directory) ::
      (middle.children (location ++ names)).flatMap fun child ↦
        tree.entriesAt location (names ++ [child.name]) :=
  htree.entriesAt_eq hget (h.wellFormed.pairwise_children _) fun _ _ ↦ h.exists_child htree

/-- A directory with a path that is too long ends the walk. -/
theorem Leads.compilesAlong_of_long (h : Leads tree root location names) (htree : WellFormed tree)
    (hget : tree.get? (location ++ names) = some .directory)
    (hlong : (root.joinAll names).fits = false) (verbose : Bool) :
    CompilesAlong tree root (compileAt verbose root (root.joinAll names) true)
      (tree.entriesAt location names) := by
  intro paths middle hmiddle out err
  have hsees := (hmiddle.seesSource_eq htree _).trans (h.seesSource_of_directory htree hget)
  have hpass : passes tree root (names, .directory) = false := by
    rw [passes, FileTree.goesOn, hlong]
    rfl
  have hrun := compileAt_of_not_listed (FileTree.list_of_long hlong) hsees verbose root out err
  rw [hmiddle.entriesAt_eq htree hget, readyPaths_of_not_passes hpass, List.append_nil, hrun]
  refine ⟨middle, err, hmiddle, .inr ⟨fun hall ↦ ?_, _, rfl⟩⟩
  exact Bool.false_ne_true (hpass.symm.trans (hall _ List.mem_cons_self))

/-- A directory is gone through by the entries that it lists when it is met. -/
theorem Leads.compilesAlong_of_fits (h : Leads tree root location names) (htree : WellFormed tree)
    (hget : tree.get? (location ++ names) = some .directory)
    (hfits : (root.joinAll names).fits = true) {verbose : Bool}
    (heach : ∀ paths middle, Compiled tree paths middle → CompilesAlong tree root
      (compileEach verbose root (root.joinAll names) hfits (middle.children (location ++ names)))
      ((middle.children (location ++ names)).flatMap fun child ↦
        tree.entriesAt location (names ++ [child.name]))) :
    CompilesAlong tree root (compileAt verbose root (root.joinAll names) true)
      (tree.entriesAt location names) := by
  intro paths middle hmiddle out err
  have hsees := h.seesSource_of_directory htree hget
  have hpass : passes tree root (names, .directory) = true := by
    rw [passes, FileTree.goesOn, hfits, hsees]
    rfl
  have hfind : middle.find (root.joinAll names) = .ok (location ++ names, .directory) :=
    find_eq_ok.mpr ⟨hmiddle.sameDirectories.locate_eq_ok.mpr (h hfits),
      (hmiddle.sameDirectories.directory_iff _).mpr hget⟩
  have hrun := compileAt_of_listed (FileTree.list_of_find hfits hfind)
    ((hmiddle.seesSource_eq htree _).trans hsees) verbose root out err
  rw [hmiddle.entriesAt_eq htree hget, readyPaths_cons hpass hsees, hrun, List.forall_mem_cons,
    and_iff_right hpass]
  obtain ⟨after, err', hafter, hresult⟩ := heach paths middle hmiddle paths middle hmiddle out err
  refine ⟨after, err', hafter, hresult.imp (And.imp_right ?_) (And.imp_right ?_)⟩
  · rintro ⟨count, hdone⟩
    exact ⟨0 + count, bind_of_ok hdone⟩
  · rintro ⟨failure, hfails⟩
    exact ⟨failure, bind_of_error hfails⟩

/-- **A walk that compiles on the way** compiles what the first tree has at and below a place, as if
all of it had been found before anything was written. -/
theorem compilesAlong_compileAt (htree : WellFormed tree) (hroot : tree.locate root = .ok location)
    (verbose : Bool) {isDirectory : Bool} (h : Leads tree root location names)
    (hkind : isDirectory = true ↔ tree.get? (location ++ names) = some .directory) :
    CompilesAlong tree root (compileAt verbose root (root.joinAll names) isDirectory)
      (tree.entriesAt location names) := by
  -- The induction is on the bytes that can be added to the path: each name below takes some.
  induction hroom : (root.joinAll names).room using Nat.strong_induction_on
    generalizing names isDirectory with
  | _ room ih =>
  subst hroom
  cases isDirectory with
  | false =>
    have hne : tree.get? (location ++ names) ≠ some .directory :=
      fun hget ↦ Bool.false_ne_true (hkind.mpr hget)
    rw [compileAt_of_not_directory]
    exact h.compilesAlong_visit htree hne verbose
  | true =>
    have hget := hkind.mp rfl
    cases hfits : (root.joinAll names).fits with
    | false => exact h.compilesAlong_of_long htree hget hfits verbose
    | true =>
      refine h.compilesAlong_of_fits htree hget hfits fun paths middle hmiddle ↦ ?_
      refine compilesAlong_compileEach fun child hchild ↦ ?_
      obtain ⟨hleads, hdirectory⟩ := hmiddle.leads_child hroot hchild
      have hroom := Path.room_join_lt hfits child.name_ne
      rw [← Path.joinAll_concat] at hroom ⊢
      exact ih _ hroom hleads hdirectory rfl

end JPlusPlus.Step
