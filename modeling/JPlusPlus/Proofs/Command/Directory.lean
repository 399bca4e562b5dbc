import JPlusPlus.Proofs.Command.Visit

/-!
# Runs on a directory

What a run on a directory leaves behind. The sources that it comes to are those of the tree at its
start, because what it writes on the way changes none of them. They are given here by the names that
lead to them from the root (`Step.IsSources`), which determines them, so that a second run can be
said to find the same ones.

There is a limit to the length of a path. A file below the root with a longer path is passed over as
if it were not there; a directory with a longer path ends the walk and fails the run, after the
sources before it are compiled.

## Main statements

* `Step.runDirectory_cases`: which sources are compiled, and whether the run goes through.
* `Command.run_directory`: what a run leaves, and that a second run changes nothing.
-/

namespace JPlusPlus

namespace Step

open FileTree (WellFormed find_eq_ok)

variable {tree after : FileTree} {paths : List Path}

/-! ## The sources of a directory -/

/-- The names that lead from a root to its sources, in the order of a walk. -/
structure IsSources (tree : FileTree) (root : Path) (location : Location)
    (sources : List Location) : Prop where
  /-- They are in the order of a walk. -/
  ordered : sources.Pairwise Location.Precedes
  /-- They lead to the files that a walk meets and that have the extension of sources. -/
  mem_iff : ∀ names, names ∈ sources ↔
    tree.Meets root location names ∧ hasSourceName (location ++ names) = true

variable {root : Path} {location : Location} {entry : Entry} {sources : List Location}

/-- A source file is found at a joined path when a walk meets it as a file with the name of one. -/
theorem seesSource_joinAll {names : Location} (htree : WellFormed tree)
    (hroot : tree.locate root = .ok location)
    (hget : tree.get? (location ++ names) = some entry) :
    seesSource tree (root.joinAll names) =
      (FileTree.isMet root (names, entry) && hasSourceName (location ++ names)) := by
  rw [Bool.eq_iff_iff, Bool.and_eq_true, seesSource_iff htree, htree.find_joinAll hroot hget]
  constructor
  · rintro ⟨l, contents, startable, hfind, hname⟩
    split at hfind
    · next hfits =>
      obtain ⟨rfl, rfl⟩ := Prod.mk.inj (Except.ok.inj hfind)
      exact ⟨hfits, hname⟩
    · cases hfind
  · rintro ⟨hmet, hname⟩
    rcases entry with _ | ⟨contents, startable⟩
    · cases hmet
    · exact ⟨_, contents, startable, if_pos hmet, hname⟩

theorem IsSources.leadsToSource (h : IsSources tree root location sources) (htree : WellFormed tree)
    (hroot : tree.locate root = .ok location) {names : Location} (hnames : names ∈ sources) :
    ∃ directory stem, LeadsToSource tree (root.joinAll names) directory stem := by
  obtain ⟨⟨⟨contents, startable, hget⟩, hfits, -⟩, hname⟩ := (h.mem_iff names).mp hnames
  apply leadsToSource_of_seesSource htree
  rw [seesSource_joinAll htree hroot hget, hname, Bool.and_true]
  exact hfits

/-- Source files and directories determine what the sources are. -/
theorem IsSources.of_compiled (h : Compiled tree paths after) (htree : WellFormed tree)
    (hsources : IsSources tree root location sources) : IsSources after root location sources where
  ordered := hsources.ordered
  mem_iff names := by
    rw [hsources.mem_iff, and_congr_left_iff]
    intro hname
    obtain ⟨directory, stem, -, hl⟩ := exists_of_hasSourceName hname
    have hget : after.get? (location ++ names) = tree.get? (location ++ names) := by
      rw [hl, h.get?_source htree]
    have hdirectory := h.sameDirectories.directory_iff
    constructor
    · rintro ⟨hfile, hfits, hbefore⟩
      refine ⟨hget ▸ hfile, hfits, fun further hfurther ↦ ?_⟩
      exact hbefore further ((hdirectory _).mp hfurther)
    · rintro ⟨hfile, hfits, hbefore⟩
      refine ⟨hget ▸ hfile, hfits, fun further hfurther ↦ ?_⟩
      exact hbefore further ((hdirectory _).mpr hfurther)

theorem IsSources.unique {sources' : List Location} (h : IsSources tree root location sources)
    (h' : IsSources tree root location sources') : sources' = sources := by
  refine Location.eq_of_pairwise_precedes h'.ordered h.ordered fun names ↦ ?_
  rw [h'.mem_iff, h.mem_iff]

/-! ## A whole run -/

/-- The names that lead to the sources before the first that fails. -/
def readySources (tree : FileTree) (root : Path) (sources : List Location) : List Location :=
  sources.takeWhile fun names ↦ isReady tree (root.joinAll names)

/-- No source fails, and no directory has a path that is too long. -/
def NothingFails (tree : FileTree) (root : Path) (location : Location) (sources : List Location) :
    Prop :=
  (∀ names ∈ sources, isReady tree (root.joinAll names) = true) ∧ tree.AllFit root location

theorem filter_takeWhile_and {α : Type} (p q r : α → Bool) (as : List α) :
    (as.takeWhile fun a ↦ p a && (!q a || r a)).filter q =
      ((as.takeWhile p).filter q).takeWhile r := by
  induction as with
  | nil => rfl
  | cons a as ih =>
    cases hp : p a with
    | false => simp [hp]
    | true => cases hq : q a <;> cases hr : r a <;> simp [hp, hq, hr, ih]

/-- The names that lead to the sources that a walk through a tree meets. -/
def sourcesFrom (tree : FileTree) (root : Path) (location : Location) : List Location :=
  (((tree.entriesFrom location).takeWhile (FileTree.goesOn root)).filter fun e ↦
    seesSource tree (root.joinAll e.1)).map Prod.fst

theorem isSources_sourcesFrom (htree : WellFormed tree) (hroot : tree.locate root = .ok location) :
    IsSources tree root location (sourcesFrom tree root location) where
  ordered := by
    have hordered := (htree.pairwise_entriesFrom location).sublist
      (List.takeWhile_sublist (FileTree.goesOn root))
    exact List.pairwise_map.mpr (hordered.filter _)
  mem_iff names := by
    have hsees {entry : Entry}
        (hmem : (names, entry) ∈ (tree.entriesFrom location).takeWhile (FileTree.goesOn root)) :=
      seesSource_joinAll htree hroot
        (htree.mem_entriesFrom.mp ((List.takeWhile_sublist _).subset hmem))
    rw [sourcesFrom, htree.meets_iff, List.mem_map]
    constructor
    · rintro ⟨⟨_, entry⟩, he, rfl⟩
      obtain ⟨hmem, hsource⟩ := List.mem_filter.mp he
      rw [hsees hmem, Bool.and_eq_true] at hsource
      exact ⟨⟨entry, hmem, hsource.1⟩, hsource.2⟩
    · rintro ⟨⟨entry, hmem, hmet⟩, hname⟩
      refine ⟨(names, entry), List.mem_filter.mpr ⟨hmem, ?_⟩, rfl⟩
      rw [hsees hmem, hmet, hname]
      rfl

/-- What a run compiles along the entries of a tree. -/
theorem readyPaths_entriesFrom (tree : FileTree) (root : Path) (location : Location) :
    readyPaths tree root (tree.entriesFrom location) =
      (readySources tree root (sourcesFrom tree root location)).map root.joinAll := by
  rw [readyPaths, readySources, sourcesFrom, List.takeWhile_map, List.map_map]
  congr 1
  exact filter_takeWhile_and _ _ _ _

/-- A run comes past all entries of a tree when nothing fails. -/
theorem passes_entriesFrom (htree : WellFormed tree) (root : Path) (location : Location) :
    (∀ e ∈ tree.entriesFrom location, passes tree root e = true) ↔
      NothingFails tree root location (sourcesFrom tree root location) := by
  rw [NothingFails, htree.allFit_iff, sourcesFrom]
  simp only [passes, Bool.and_eq_true, Bool.or_eq_true, Bool.not_eq_true']
  constructor
  · intro hall
    refine ⟨fun names hnames ↦ ?_, fun e he ↦ (hall e he).1⟩
    obtain ⟨e, he, rfl⟩ := List.mem_map.mp hnames
    obtain ⟨hmem, hsees⟩ := List.mem_filter.mp he
    obtain hnot | hready := (hall e ((List.takeWhile_sublist _).subset hmem)).2
    · cases hnot.symm.trans hsees
    · exact hready
  · rintro ⟨hready, hgoes⟩ e he
    refine ⟨hgoes e he, ?_⟩
    rw [List.takeWhile_eq_self_iff.mpr hgoes] at hready
    cases hsees : seesSource tree (root.joinAll e.1) with
    | false => exact .inl rfl
    | true => exact .inr (hready e.1 (List.mem_map_of_mem (List.mem_filter.mpr ⟨he, hsees⟩)))

/-- A run on a directory that is there. -/
theorem runDirectory_of_find {session : Session}
    (hroot : session.tree.find root = .ok (location, entry)) (verbose : Bool) :
    runDirectory verbose root session = (do
      let count ← compileAt verbose root (root.joinAll []) (decide (entry = Entry.directory))
      if verbose then note ("compiled " ++ toString count ++ " file(s)")) session := by
  rw [runDirectory, bind_of_ok (get_apply _), hroot]
  exact bind_of_ok (orFail_ok _ _ _)

/-- What a run on a directory comes to. -/
theorem runDirectory_cases (htree : WellFormed tree)
    (hroot : tree.find root = .ok (location, entry)) (verbose : Bool) :
    ∃ sources, IsSources tree root location sources ∧ ∃ after err,
      Compiled tree ((readySources tree root sources).map root.joinAll) after ∧
      (NothingFails tree root location sources ∧
          runDirectory verbose root ⟨tree, "", ""⟩ = .ok () ⟨after, "", err⟩ ∨
        ¬NothingFails tree root location sources ∧ ∃ failure,
          runDirectory verbose root ⟨tree, "", ""⟩ = .error failure ⟨after, "", err⟩) := by
  obtain ⟨hlocate, hget⟩ := find_eq_ok.mp hroot
  have hleads : Leads tree root location [] := fun _ ↦ by rw [List.append_nil]; exact hlocate
  have hkind : decide (entry = .directory) = true ↔
      tree.get? (location ++ []) = some .directory := by
    rw [List.append_nil, hget, decide_eq_true_eq, Option.some_inj]
  obtain ⟨after, err, hafter, hresult⟩ :=
    compilesAlong_compileAt htree hlocate verbose hleads hkind _ _ (.refl htree) "" ""
  rw [FileTree.entriesAt_nil, List.nil_append, readyPaths_entriesFrom] at hafter
  rw [FileTree.entriesAt_nil, passes_entriesFrom htree] at hresult
  rw [runDirectory_of_find hroot]
  refine ⟨_, isSources_sourcesFrom htree hlocate, after, ?_⟩
  obtain ⟨hdone, count, hrun⟩ | ⟨hdone, failure, hrun⟩ := hresult
  · rw [bind_of_ok hrun]
    cases verbose with
    | false => exact ⟨_, hafter, .inl ⟨hdone, rfl⟩⟩
    | true => exact ⟨_, hafter, .inl ⟨hdone, rfl⟩⟩
  · exact ⟨err, hafter, .inr ⟨hdone, failure, bind_of_error hrun⟩⟩

/-- The same sources are compiled once more, and nothing has changed. -/
theorem Compiled.get?_again {later : FileTree} (h : Compiled tree paths after)
    (h' : Compiled after paths later) (htree : WellFormed tree) (l : Location) :
    later.get? l = after.get? l := by
  obtain hsame | ⟨path, hpath, directory, stem, code, hsource, hcode, rfl, hget⟩ :=
    h'.get?_cases h.wellFormed l
  · exact hsame
  · obtain ⟨directory', stem', code', hsource', hcode', hget'⟩ := h.written path hpath
    have hlocate := (hsource.names_scriptPath h.wellFormed hcode).1.locate_eq
    have hlocate' := (hsource'.names_scriptPath htree hcode').1.locate_eq
    rw [h.sameDirectories.locate_eq_ok, hlocate'] at hlocate
    rw [Except.ok.inj hlocate] at hget'
    rw [h.script?_eq htree hsource', hcode'] at hcode
    rw [hget, hget', Option.some.inj hcode, h.isStartable_eq htree]

theorem Compiled.find_eq (h : Compiled tree paths after) (htree : WellFormed tree)
    (hroot : tree.find root = .ok (location, entry)) :
    ∃ entry', after.find root = .ok (location, entry') := by
  obtain ⟨hlocate, hget⟩ := find_eq_ok.mp hroot
  obtain ⟨entry', hget'⟩ := h.exists_get? htree hget
  exact ⟨entry', find_eq_ok.mpr ⟨h.sameDirectories.locate_eq_ok.mpr hlocate, hget'⟩⟩

theorem readySources_congr (h : ∀ names ∈ sources,
      isReady after (root.joinAll names) = isReady tree (root.joinAll names)) :
    readySources after root sources = readySources tree root sources := by
  rw [readySources, readySources]
  induction sources with
  | nil => rfl
  | cons names sources ih =>
    obtain ⟨hnames, hsources⟩ := List.forall_mem_cons.mp h
    rw [List.takeWhile_cons, List.takeWhile_cons, hnames, ih hsources]

/-- What fails does not depend on the scripts that are written. -/
theorem Compiled.same_failures (h : Compiled tree paths after) (htree : WellFormed tree)
    (hroot : tree.locate root = .ok location) (hsources : IsSources tree root location sources) :
    readySources after root sources = readySources tree root sources ∧
      (NothingFails after root location sources ↔ NothingFails tree root location sources) := by
  have hready : ∀ names ∈ sources,
      isReady after (root.joinAll names) = isReady tree (root.joinAll names) := by
    intro names hnames
    obtain ⟨directory, stem, hsource⟩ := hsources.leadsToSource htree hroot hnames
    rw [isReady, h.script?_eq htree hsource, isReady]
  refine ⟨readySources_congr hready, and_congr ?_ ?_⟩
  · exact forall₂_congr fun names hnames ↦ by rw [hready names hnames]
  · exact forall_congr' fun names ↦ by rw [h.sameDirectories.directory_iff]

end Step

namespace Command

open Step (IsSources NothingFails readySources scriptPath hasSourceName)

variable {arguments : List String} {root : Path} {verbose : Bool} {tree : FileTree}
  {location : Location} {entry : Entry}

/-- How a run on a directory ends. -/
theorem run_directory_cases (h : Request.ofArguments arguments = .ok ⟨.directory root, verbose⟩)
    (htree : tree.WellFormed) (hroot : tree.find root = .ok (location, entry))
    (surroundings : Surroundings) :
    let ending := run surroundings arguments tree
    ending.stdout = "" ∧ ∃ sources, IsSources tree root location sources ∧
      Step.Compiled tree ((readySources tree root sources).map root.joinAll) ending.tree ∧
      (NothingFails tree root location sources → ending.exit = 0) ∧
      (¬NothingFails tree root location sources → ending.exit = 1) := by
  intro ending
  have hending : ending = Command.ending (Step.runDirectory verbose root) tree := by
    show run surroundings arguments tree = _
    rw [run, h]
    rfl
  obtain ⟨sources, hsources, after, err, hcompiled, ⟨hdone, hrun⟩ | ⟨hdone, failure, hrun⟩⟩ :=
    Step.runDirectory_cases htree hroot verbose
  · rw [hending, Command.ending, hrun]
    exact ⟨rfl, sources, hsources, hcompiled, fun _ ↦ rfl, fun hnot ↦ absurd hdone hnot⟩
  · rw [hending, Command.ending, hrun]
    exact ⟨rfl, sources, hsources, hcompiled, fun hall ↦ absurd hall hdone, fun _ ↦ rfl⟩

/-- **What a run on a directory leaves.** The sources before the first that fails are compiled, each
to the script of what it was before the run; nothing else has changed, and nothing is written to the
standard output. The run goes through when no source fails and no directory has a path that is too
long. A second run changes nothing and ends like the first. -/
theorem run_directory (h : Request.ofArguments arguments = .ok ⟨.directory root, verbose⟩)
    (htree : tree.WellFormed) (hroot : tree.find root = .ok (location, entry))
    (surroundings : Surroundings) :
    let ending := run surroundings arguments tree
    let again := run surroundings arguments ending.tree
    ∃ sources, IsSources tree root location sources ∧
      (∀ names ∈ readySources tree root sources, ∃ source code,
        tree.readText (root.joinAll names) = .ok source ∧ compileScript source = .ok code ∧
        ending.tree.read (scriptPath (root.joinAll names)) = .ok (Utf8.bytes code)) ∧
      (∀ l, (∀ names ∈ readySources tree root sources,
          ending.tree.locate (scriptPath (root.joinAll names)) ≠ .ok l) →
        ending.tree.get? l = tree.get? l) ∧
      (∀ l, hasSourceName l = true → ending.tree.get? l = tree.get? l) ∧
      ending.stdout = "" ∧
      (NothingFails tree root location sources → ending.exit = 0) ∧
      (¬NothingFails tree root location sources → ending.exit = 1) ∧
      (∀ l, again.tree.get? l = ending.tree.get? l) ∧ again.exit = ending.exit := by
  intro ending again
  obtain ⟨hout, sources, hsources, hcompiled, hzero, hone⟩ :=
    run_directory_cases h htree hroot surroundings
  obtain ⟨entry', hroot'⟩ := hcompiled.find_eq htree hroot
  obtain ⟨-, sources', hsources', hcompiled', hzero', hone'⟩ :=
    run_directory_cases h hcompiled.wellFormed hroot' surroundings
  have hlocate := (FileTree.find_eq_ok.mp hroot).1
  -- The second run finds the same sources, and the same ones fail.
  obtain rfl : sources' = sources := (hsources.of_compiled hcompiled htree).unique hsources'
  obtain ⟨hsame, hfails⟩ := hcompiled.same_failures htree hlocate hsources
  refine ⟨sources', hsources, ?_, ?_, ?_, hout, hzero, hone, ?_, ?_⟩
  · intro names hnames
    obtain ⟨directory, stem, code, hsource, hcode, hget⟩ :=
      hcompiled.written _ (List.mem_map_of_mem hnames)
    obtain ⟨source, hread, hcompile, -⟩ := Step.script?_eq_some.mp hcode
    have hplace := (hsource.names_scriptPath htree hcode).1.locate_eq
    have hfind := FileTree.find_eq_ok.mpr
      ⟨hcompiled.sameDirectories.locate_eq_ok.mpr hplace, hget⟩
    exact ⟨source, code, hread, hcompile, FileTree.read_eq_ok.mpr ⟨_, _, hfind⟩⟩
  · intro l hl
    refine hcompiled.others l fun path hpath ↦ ?_
    obtain ⟨names, hnames, rfl⟩ := List.mem_map.mp hpath
    rw [Ne, ← hcompiled.sameDirectories.locate_eq_ok]
    exact hl names hnames
  · intro l hl
    obtain ⟨directory, stem, -, rfl⟩ := Step.exists_of_hasSourceName hl
    exact hcompiled.get?_source htree directory stem
  · rw [hsame] at hcompiled'
    exact hcompiled.get?_again hcompiled' htree
  · by_cases hdone : NothingFails tree root location sources'
    · rw [hzero hdone]
      exact hzero' (hfails.mpr hdone)
    · rw [hone hdone]
      exact hone' fun hall ↦ hdone (hfails.mp hall)

/-! ## A directory with one source -/

/-- A directory with one source, which prints 1. -/
def smallTree : FileTree :=
  ⟨[], [(["d"], .directory), (["d", "x.jpp"], .file (Utf8.bytes "bol\n1\n") false)]⟩

theorem wellFormed_smallTree : smallTree.WellFormed where
  nodup := by decide
  entry e he := by
    rcases List.mem_cons.mp he with rfl | he
    · exact ⟨[], "d", rfl, ⟨rfl, by decide, by decide, rfl⟩, rfl⟩
    · obtain rfl := List.mem_singleton.mp he
      exact ⟨["d"], "x.jpp", rfl, ⟨rfl, by decide, by decide, rfl⟩, rfl⟩

theorem get?_smallTree {names : Location} (h : smallTree.get? (["d"] ++ names) = some entry) :
    names = [] ∧ entry = .directory ∨
      names = ["x.jpp"] ∧ entry = .file (Utf8.bytes "bol\n1\n") false := by
  have hmem := FileTree.mem_of_get? (by simp) h
  simpa [smallTree] using hmem

theorem allFit_smallTree (hfits : root.fits = true) : smallTree.AllFit root ["d"] := by
  intro names hget
  obtain ⟨rfl, -⟩ | ⟨-, hfile⟩ := get?_smallTree hget
  · exact hfits
  · cases hfile

/-- The source is found, unless its path is too long. -/
theorem mem_sources_smallTree {sources : List Location} (hfits : root.fits = true)
    (h : IsSources smallTree root ["d"] sources) {names : Location} :
    names ∈ sources ↔ names = ["x.jpp"] ∧ (root.join "x.jpp").fits = true := by
  rw [h.mem_iff]
  constructor
  · rintro ⟨⟨⟨contents, startable, hget⟩, hpath, -⟩, -⟩
    obtain ⟨-, hfile⟩ | ⟨rfl, -⟩ := get?_smallTree hget
    · cases hfile
    · exact ⟨rfl, hpath⟩
  · rintro ⟨rfl, hpath⟩
    refine ⟨⟨⟨_, _, rfl⟩, hpath, fun further hget hlong ↦ ?_⟩, rfl⟩
    rw [allFit_smallTree hfits further hget] at hlong
    cases hlong

theorem script?_smallTree : Step.script? smallTree ⟨"d/x.jpp"⟩ = some "console.log(1);" :=
  Step.script?_eq_some.mpr ⟨"bol\n1\n", rfl, compileScript_bol, rfl⟩

/-- The path of the directory with slashes at its end. -/
def slashed (count : Nat) : Path := .ofSegments false ("d" :: List.replicate count "")

theorem text_slashed (count : Nat) :
    ∃ slashes, (slashed count).text = "d" ++ slashes ∧ slashes.utf8ByteSize = count := by
  simp only [slashed]
  induction count with
  | zero => exact ⟨"", rfl, rfl⟩
  | succ count ih =>
    obtain ⟨slashes, htext, hsize⟩ := ih
    rw [List.replicate_succ', ← List.cons_append,
      Path.text_ofSegments_concat (List.cons_ne_nil _ _), htext]
    refine ⟨slashes ++ "/", ?_, ?_⟩
    · rw [String.append_empty, String.append_assoc]
    · rw [String.utf8ByteSize_append, hsize]
      rfl

theorem ofArguments_dir {text : String} (hoption : Request.looksLikeOption text = false)
    (hne : text ≠ "") :
    Request.ofArguments ["--dir", text] = .ok ⟨.directory ⟨text⟩, false⟩ := by
  have hdir : Request.ofArguments ["--dir", text] =
      (Request.readArguments {} (some .dir) [text] >>= Request.ofSettings) := rfl
  simp only [hdir, Request.readArguments, hoption, Request.Settings.give, hne]
  rfl

/-- Slashes at the end of a path lead nowhere. -/
theorem find_slashed {count : Nat} (h : count < Path.maxBytes) :
    smallTree.find (slashed count) = .ok (["d"], .directory) := by
  obtain ⟨slashes, htext, hsize⟩ := text_slashed count
  have hsplit : Path.IsSplit false ("d" :: List.replicate count "") := by
    refine ⟨List.cons_ne_nil _ _, List.forall_mem_cons.mpr ⟨by decide, ?_⟩, fun _ ↦ by simp⟩
    intro segment hsegment
    rw [List.eq_of_mem_replicate hsegment]
    exact List.not_mem_nil
  have hidle : ∀ segment ∈ List.replicate count "", Path.isIdle segment = true := by
    intro segment hsegment
    rw [List.eq_of_mem_replicate hsegment]
    rfl
  refine FileTree.find_eq_ok.mpr ⟨FileTree.locate_eq_ok.mpr ⟨?_, ?_, ?_⟩, rfl⟩
  · rw [htext]
    simp
  · rw [Path.fits, htext, String.utf8ByteSize_append, hsize, decide_eq_true_eq, Nat.add_comm]
    exact h
  · rw [slashed, FileTree.start, hsplit.isAbsolute, hsplit.segments_eq]
    exact FileTree.follow_cons_eq_ok.mpr ⟨rfl, ["d"], rfl, FileTree.follow_idle hidle rfl⟩

theorem ofArguments_slashed (count : Nat) :
    Request.ofArguments ["--dir", (slashed count).text] =
      .ok ⟨.directory (slashed count), false⟩ := by
  obtain ⟨slashes, htext, -⟩ := text_slashed count
  refine ofArguments_dir ?_ ?_
  · simp [htext, Request.looksLikeOption]
  · simp [htext]

/-- With so many slashes the path of the directory is short enough, and that of the source is not.
The run does not see the source. -/
theorem run_slashed {count : Nat} (h : count < Path.maxBytes) (hlong : Path.maxBytes < count + 6)
    (surroundings : Surroundings) :
    (run surroundings ["--dir", (slashed count).text] smallTree).exit = 0 ∧ ∀ l,
      (run surroundings ["--dir", (slashed count).text] smallTree).tree.get? l =
        smallTree.get? l := by
  have hroot := find_slashed h
  have hfits := (FileTree.locate_eq_ok.mp (FileTree.find_eq_ok.mp hroot).1).2.1
  have hpath : ((slashed count).join "x.jpp").fits = false := by
    obtain ⟨slashes, htext, hsize⟩ := text_slashed count
    have hname : "x.jpp".utf8ByteSize = 5 := rfl
    have hfirst : "d".utf8ByteSize = 1 := rfl
    rw [Path.join, Path.fits, decide_eq_false_iff_not, Nat.not_le]
    split
    · simp only [htext, String.utf8ByteSize_append, hsize, hname, hfirst]
      omega
    · simp only [htext, String.utf8ByteSize_append, hsize, hname, hfirst]
      omega
  obtain ⟨-, sources, hsources, hcompiled, hexit, -⟩ :=
    run_directory_cases (ofArguments_slashed count) wellFormed_smallTree hroot surroundings
  obtain rfl : sources = [] := by
    refine List.eq_nil_iff_forall_not_mem.mpr fun names hnames ↦ ?_
    obtain ⟨-, hshort⟩ := (mem_sources_smallTree hfits hsources).mp hnames
    rw [hpath] at hshort
    cases hshort
  have hdone : NothingFails smallTree (slashed count) ["d"] [] :=
    ⟨List.forall_mem_nil _, allFit_smallTree hfits⟩
  exact ⟨hexit hdone, fun l ↦ hcompiled.others l (List.forall_mem_nil _)⟩

/-- The source is compiled. -/
theorem run_directory_smallTree :
    let ending := run ⟨[], [], fun _ ↦ none⟩ ["--dir", "d"] smallTree
    ending.exit = 0 ∧ ending.stdout = "" ∧
      ending.tree.read ⟨"d/x.js"⟩ = .ok (Utf8.bytes "console.log(1);") := by
  intro ending
  have hrequest : Request.ofArguments ["--dir", "d"] = .ok ⟨.directory ⟨"d"⟩, false⟩ := rfl
  have hroot : smallTree.find ⟨"d"⟩ = .ok (["d"], .directory) := rfl
  obtain ⟨sources, hsources, hwritten, -, -, hout, hexit, -⟩ :=
    run_directory hrequest wellFormed_smallTree hroot ⟨[], [], fun _ ↦ none⟩
  have hready : ∀ names ∈ sources, Step.isReady smallTree (Path.joinAll ⟨"d"⟩ names) = true := by
    intro names hnames
    obtain ⟨rfl, -⟩ := (mem_sources_smallTree rfl hsources).mp hnames
    exact Option.isSome_iff_exists.mpr ⟨_, script?_smallTree⟩
  have hmem : ["x.jpp"] ∈ readySources smallTree ⟨"d"⟩ sources := by
    rw [readySources, List.takeWhile_eq_self_iff.mpr hready, mem_sources_smallTree rfl hsources]
    exact ⟨rfl, rfl⟩
  obtain ⟨source, code, hread, hcompile, hscript⟩ := hwritten _ hmem
  obtain rfl : "bol\n1\n" = source := Except.ok.inj hread
  rw [compileScript_bol] at hcompile
  obtain rfl := Except.ok.inj hcompile
  exact ⟨hexit ⟨hready, allFit_smallTree rfl⟩, hout, hscript⟩

/-- A source with a path that is too long is not compiled, and the run does not fail: with 4090
slashes after the directory, the path of the source has 4096 bytes. -/
theorem run_directory_long_path :
    let ending := run ⟨[], [], fun _ ↦ none⟩ ["--dir", (slashed 4090).text] smallTree
    Request.ofArguments ["--dir", (slashed 4090).text] = .ok ⟨.directory (slashed 4090), false⟩ ∧
      smallTree.WellFormed ∧ smallTree.find (slashed 4090) = .ok (["d"], .directory) ∧
      smallTree.get? ["d", "x.jpp"] = some (.file (Utf8.bytes "bol\n1\n") false) ∧
      hasSourceName ["d", "x.jpp"] = true ∧ compileScript "bol\n1\n" = .ok "console.log(1);" ∧
      smallTree.get? ["d", "x.js"] = none ∧
      ending.exit = 0 ∧ ending.tree.get? ["d", "x.js"] = none := by
  have hshort : 4090 < Path.maxBytes := by decide
  have hlong : Path.maxBytes < 4090 + 6 := by decide
  obtain ⟨hexit, hsame⟩ := run_slashed hshort hlong ⟨[], [], fun _ ↦ none⟩
  exact ⟨ofArguments_slashed 4090, wellFormed_smallTree, find_slashed hshort, rfl, rfl,
    compileScript_bol, rfl, hexit, hsame ["d", "x.js"]⟩

end Command

end JPlusPlus
