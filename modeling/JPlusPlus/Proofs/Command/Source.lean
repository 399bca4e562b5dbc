import JPlusPlus.Proofs.Command.Session
import JPlusPlus.Proofs.Compile.Stages
import JPlusPlus.Proofs.File.Entry

/-!
# Source files and their scripts

What compiling source files in place does. A script is written beside its source, so it is to be
shown that writing does not change what is read later: a script stands where no source stands,
because its name has another extension, and two sources of one directory have scripts of different
names. The directories stay as they are, so every path leads where it led.

## Main statements

* `Step.LeadsToSource.compileFile_of_some`: a source file that has a script is compiled to it.
* `Step.LeadsToSource.compileFile_of_none`: a source file that has none stops the run.
* `Step.Compiled.concat`: one more source file is compiled, and the others stay compiled.
-/

namespace JPlusPlus.Step

open FileTree (EndsIn Names SameDirectories WellFormed find_eq_ok leadsToDirectory_iff
  readText_congr get?_put_self get?_put_of_ne)

variable {tree middle : FileTree} {path : Path} {directory : Location} {stem code : String}

/-! ## Sources and scripts -/

/-- A path leads to a source file, with a name that is a stem and the extension of sources. -/
structure LeadsToSource (tree : FileTree) (path : Path) (directory : Location) (stem : String) :
    Prop where
  /-- The path names an entry of a directory. -/
  names : Names tree path directory (stem ++ sourceExtension)
  /-- The stem is not empty. -/
  stem_ne : stem ≠ ""
  /-- A file stands there. -/
  isFile : ∃ contents startable,
    tree.get? (directory ++ [stem ++ sourceExtension]) = some (.file contents startable)

theorem append_js_ne {text : String} (h : text.toList.getLast? ≠ some 's') (stem : String) :
    stem ++ "js" ≠ text := by
  rintro rfl
  exact h (by simp)

/-- No source stands where a script stands. -/
theorem append_js_ne_append_jpp (stem stem' : String) :
    stem ++ "js" ≠ stem' ++ sourceExtension :=
  append_js_ne (by simp [sourceExtension]) stem

/-- A script has a name if its source has. -/
theorem isName_script (h : Path.IsName (stem ++ sourceExtension)) : Path.IsName (stem ++ "js") where
  notIdle := by
    have hempty : stem ++ "js" ≠ "" := append_js_ne (by decide) stem
    have hdot : stem ++ "js" ≠ "." := append_js_ne (by decide) stem
    simp [Path.isIdle, hempty, hdot]
  notUp := append_js_ne (by decide) stem
  noSlash := by
    have hslash := h.noSlash
    rw [String.toList_append, List.mem_append, not_or] at hslash ⊢
    exact ⟨hslash.1, by decide⟩
  fits := by
    have hfits := h.fits
    rw [Path.nameFits, decide_eq_true_eq, String.utf8ByteSize_append] at hfits ⊢
    have hjs : "js".utf8ByteSize = 2 := rfl
    have hjpp : sourceExtension.utf8ByteSize = 3 := rfl
    omega

/-- Where the path of a script ends. -/
theorem LeadsToSource.endsIn_scriptPath (h : LeadsToSource tree path directory stem) :
    ∃ last, EndsIn tree (scriptPath path) directory last ∧ (last = ".." ∨ last = stem ++ "js") := by
  obtain ⟨segments, hsegments, hfollow⟩ := h.names.leads
  have hjpp : sourceExtension.utf8ByteSize = 3 := rfl
  have hend {last : String} (hne : last ≠ "") (hslash : '/' ∉ last.toList)
      (hle : last.utf8ByteSize ≤ (stem ++ sourceExtension).utf8ByteSize) :
      EndsIn tree (Path.ofSegments path.isAbsolute (segments ++ [last])) directory last := by
    obtain ⟨hsegs, habsolute, hfits⟩ := Path.segments_sibling hsegments h.names.isName.ne_empty hne
      hslash hle h.names.fits
    refine ⟨hfits, ⟨segments, hsegs, ?_⟩, h.names.isDirectory⟩
    rw [FileTree.start, habsolute]
    exact hfollow
  rw [scriptPath, Path.replaceExtension_eq hsegments h.stem_ne]
  split
  · -- The stem of the name `..jpp` leads to the directory above, and so it gets no extension.
    next hup =>
    refine ⟨stem, hend h.stem_ne ?_ ?_, .inl hup⟩
    · rw [hup]
      decide
    · rw [String.utf8ByteSize_append]
      omega
  · have hname := isName_script h.names.isName
    refine ⟨stem ++ "js", hend hname.ne_empty hname.noSlash ?_, .inr rfl⟩
    have hjs : "js".utf8ByteSize = 2 := rfl
    rw [String.utf8ByteSize_append, String.utf8ByteSize_append]
    omega

/-- The directories above a script are there, because its source is. -/
theorem LeadsToSource.makeParent_scriptPath (h : LeadsToSource tree path directory stem) :
    Changes (makeParent (scriptPath path)) tree tree := by
  obtain ⟨last, hend, hlast⟩ := h.endsIn_scriptPath
  have hidle : Path.isIdle last = false := by
    rcases hlast with rfl | rfl
    · decide
    · exact (isName_script h.names.isName).notIdle
  intro out err
  rw [makeParent]
  rcases hparent : (scriptPath path).parent? with _ | parent
  · rfl
  · dsimp only
    split
    · rfl
    · next hne => exact onFiles_of_ok (hend.makeDirectories_eq hidle hparent hne)

/-- The path of a script leads to a directory, or it names an entry beside its source. -/
theorem LeadsToSource.scriptPath_cases (h : LeadsToSource tree path directory stem)
    (htree : WellFormed tree) :
    tree.leadsToDirectory (scriptPath path) = true ∨
      Names tree (scriptPath path) directory (stem ++ "js") := by
  obtain ⟨last, hend, rfl | rfl⟩ := h.endsIn_scriptPath
  · have hlocate := hend.locate_eq (by decide) rfl
    have hdirectory := htree.get?_dropLast hend.isDirectory
    exact .inl (leadsToDirectory_iff.mpr ⟨_, find_eq_ok.mpr ⟨hlocate, hdirectory⟩⟩)
  · exact .inr ⟨hend, isName_script h.names.isName⟩

/-! ## One source file -/

/-- The script of a source file, if the file has text that compiles and no directory stands where
the script is to be written. -/
def script? (tree : FileTree) (path : Path) : Option String :=
  match tree.readText path with
  | .error _ => none
  | .ok source =>
    match compileScript source with
    | .error _ => none
    | .ok code => if tree.leadsToDirectory (scriptPath path) then none else some code

theorem script?_eq_some :
    script? tree path = some code ↔ ∃ source, tree.readText path = .ok source ∧
      compileScript source = .ok code ∧ tree.leadsToDirectory (scriptPath path) = false := by
  rw [script?]
  rcases tree.readText path with fault | source
  · simp
  · rcases hcompile : compileScript source with fault | code'
    · simp [hcompile]
    · cases tree.leadsToDirectory (scriptPath path) <;> simp [hcompile]

theorem readSource_apply (path : Path) (session : Session) :
    readSource path session = orFail (.readSource path) (session.tree.readText path) session := rfl

/-- A source file that has a script has a place for it. -/
theorem LeadsToSource.names_scriptPath (h : LeadsToSource tree path directory stem)
    (htree : WellFormed tree) (hcode : script? tree path = some code) :
    Names tree (scriptPath path) directory (stem ++ "js") ∧
      tree.get? (directory ++ [stem ++ "js"]) ≠ some .directory := by
  obtain ⟨-, -, -, hfree⟩ := script?_eq_some.mp hcode
  obtain hleads | hnames := h.scriptPath_cases htree
  · exact absurd (hfree.symm.trans hleads) Bool.false_ne_true
  · refine ⟨hnames, fun hdirectory ↦ ?_⟩
    have hleads := leadsToDirectory_iff.mpr ⟨_, find_eq_ok.mpr ⟨hnames.locate_eq, hdirectory⟩⟩
    exact absurd (hfree.symm.trans hleads) Bool.false_ne_true

/-- The tree with the script of a source file beside it. -/
def withScript (tree : FileTree) (directory : Location) (stem code : String) : FileTree :=
  tree.put (directory ++ [stem ++ "js"])
    (.file (Utf8.bytes code) (tree.isStartable (directory ++ [stem ++ "js"])))

/-- A source file that has a script is compiled to it. -/
theorem LeadsToSource.compileFile_of_some (h : LeadsToSource tree path directory stem)
    (htree : WellFormed tree) (hcode : script? tree path = some code) (verbose : Bool)
    (out err : String) :
    ∃ err', compileFile verbose path ⟨tree, out, err⟩ =
      .ok () ⟨withScript tree directory stem code, out, err'⟩ := by
  obtain ⟨source, hsource, hcompile, -⟩ := script?_eq_some.mp hcode
  obtain ⟨hnames, hget⟩ := h.names_scriptPath htree hcode
  have hread : readSource path ⟨tree, out, err⟩ = .ok source ⟨tree, out, err⟩ := by
    rw [readSource_apply, hsource, orFail_ok]
  have hwrite : Changes (writeFile (scriptPath path) code) tree
      (withScript tree directory stem code) :=
    h.makeParent_scriptPath.bind fun _ _ ↦ onFiles_of_ok (hnames.write_eq hget (Utf8.bytes code))
  rw [compileFile, bind_of_ok hread, hcompile, bind_of_ok (orFail_ok _ _ _),
    bind_of_ok (hwrite out err)]
  cases verbose with
  | false => exact ⟨_, rfl⟩
  | true => exact ⟨_, rfl⟩

/-- A source file that has no script stops the run, and no file has changed. -/
theorem LeadsToSource.compileFile_of_none (h : LeadsToSource tree path directory stem)
    (hnone : script? tree path = none) (verbose : Bool) :
    Fails (compileFile verbose path) tree tree := by
  rcases hsource : tree.readText path with fault | source
  · refine ⟨.readSource path fault, fun out err ↦ bind_of_error ?_⟩
    rw [readSource_apply, hsource, orFail_error]
  have hread (out err : String) :
      readSource path ⟨tree, out, err⟩ = .ok source ⟨tree, out, err⟩ := by
    rw [readSource_apply, hsource, orFail_ok]
  rcases hcompile : compileScript source with fault | code
  · refine ⟨.compileFile path fault, fun out err ↦ ?_⟩
    rw [compileFile, bind_of_ok (hread out err), hcompile]
    exact bind_of_error (orFail_error _ _ _)
  have hleads : tree.leadsToDirectory (scriptPath path) = true := by
    refine Bool.of_not_eq_false fun hfree ↦ ?_
    rw [script?_eq_some.mpr ⟨source, hsource, hcompile, hfree⟩] at hnone
    cases hnone
  obtain ⟨fault, hwrite⟩ := FileTree.write_of_leadsToDirectory hleads (Utf8.bytes code)
  have hfails : Fails (onFiles (.writeOutput (scriptPath path))
      (FileTree.write (scriptPath path) (Utf8.bytes code))) tree tree :=
    ⟨_, fun _ _ ↦ onFiles_of_error hwrite⟩
  obtain ⟨failure, hfile⟩ := h.makeParent_scriptPath.bind_fails hfails
  refine ⟨failure, fun out err ↦ ?_⟩
  rw [compileFile, bind_of_ok (hread out err), hcompile, bind_of_ok (orFail_ok _ _ _)]
  exact bind_of_error (hfile out err)

/-! ## Many source files -/

theorem LeadsToSource.readText_eq {tree' : FileTree} {path' : Path}
    (h : LeadsToSource tree path directory stem) (h' : LeadsToSource tree' path' directory stem)
    (hsame : tree'.get? (directory ++ [stem ++ sourceExtension]) =
      tree.get? (directory ++ [stem ++ sourceExtension])) :
    tree'.readText path' = tree.readText path := by
  obtain ⟨contents, startable, hget⟩ := h.isFile
  apply readText_congr
  rw [find_eq_ok.mpr ⟨h.names.locate_eq, hget⟩]
  exact find_eq_ok.mpr ⟨h'.names.locate_eq, hsame.trans hget⟩

/-- A script depends on where its source file is, not on the path that leads there. -/
theorem LeadsToSource.code_unique {path' : Path} {code' : String}
    (h : LeadsToSource tree path directory stem) (h' : LeadsToSource tree path' directory stem)
    (hcode : script? tree path = some code) (hcode' : script? tree path' = some code') :
    code' = code := by
  obtain ⟨source, hsource, hcompile, -⟩ := script?_eq_some.mp hcode
  obtain ⟨source', hsource', hcompile', -⟩ := script?_eq_some.mp hcode'
  rw [h.readText_eq h' rfl, hsource] at hsource'
  rw [← Except.ok.inj hsource', hcompile] at hcompile'
  exact (Except.ok.inj hcompile').symm

/-- The scripts of source files are written, and nothing else has changed. -/
structure Compiled (before : FileTree) (paths : List Path) (after : FileTree) : Prop where
  /-- The tree stays well-formed. -/
  wellFormed : WellFormed after
  /-- The directories stay. -/
  sameDirectories : SameDirectories before after
  /-- The scripts are written, beside their sources. A file that could be started still can. -/
  written : ∀ path ∈ paths, ∃ directory stem code, LeadsToSource before path directory stem ∧
    script? before path = some code ∧ after.get? (directory ++ [stem ++ "js"]) =
      some (.file (Utf8.bytes code) (before.isStartable (directory ++ [stem ++ "js"])))
  /-- Nothing else has changed. -/
  others : ∀ l, (∀ path ∈ paths, before.locate (scriptPath path) ≠ .ok l) →
    after.get? l = before.get? l

theorem Compiled.refl (h : WellFormed tree) : Compiled tree [] tree :=
  ⟨h, .refl tree, nofun, fun _ _ ↦ rfl⟩

variable {paths : List Path}

/-- What stands at a location is as it was, or it is a script. -/
theorem Compiled.get?_cases (h : Compiled tree paths middle) (htree : WellFormed tree)
    (l : Location) :
    middle.get? l = tree.get? l ∨ ∃ path ∈ paths, ∃ directory stem code,
      LeadsToSource tree path directory stem ∧ script? tree path = some code ∧
        l = directory ++ [stem ++ "js"] ∧
        middle.get? l = some (.file (Utf8.bytes code) (tree.isStartable l)) := by
  by_cases hother : ∀ path ∈ paths, tree.locate (scriptPath path) ≠ .ok l
  · exact .inl (h.others l hother)
  · obtain ⟨path, hpath, hlocate⟩ : ∃ path ∈ paths, tree.locate (scriptPath path) = .ok l := by
      simpa using hother
    obtain ⟨directory, stem, code, hsource, hcode, hget⟩ := h.written path hpath
    rw [(hsource.names_scriptPath htree hcode).1.locate_eq] at hlocate
    obtain rfl := Except.ok.inj hlocate
    exact .inr ⟨path, hpath, directory, stem, code, hsource, hcode, rfl, hget⟩

/-- What was there is still there. -/
theorem Compiled.exists_get? (h : Compiled tree paths middle) (htree : WellFormed tree)
    {l : Location} {entry : Entry} (hget : tree.get? l = some entry) :
    ∃ entry', middle.get? l = some entry' := by
  obtain hsame | ⟨_, _, _, _, _, _, _, _, hscript⟩ := h.get?_cases htree l
  · exact ⟨entry, hsame.trans hget⟩
  · exact ⟨_, hscript⟩

/-- The sources are as they were, because no script has the name of a source. -/
theorem Compiled.get?_source (h : Compiled tree paths middle) (htree : WellFormed tree)
    (directory : Location) (stem : String) :
    middle.get? (directory ++ [stem ++ sourceExtension]) =
      tree.get? (directory ++ [stem ++ sourceExtension]) := by
  obtain hsame | ⟨_, _, directory', stem', _, _, _, heq, _⟩ := h.get?_cases htree
    (directory ++ [stem ++ sourceExtension])
  · exact hsame
  · obtain ⟨-, heq⟩ := List.append_inj' heq rfl
    exact absurd (List.singleton_inj.mp heq).symm (append_js_ne_append_jpp _ _)

theorem Compiled.isStartable_eq (h : Compiled tree paths middle) (htree : WellFormed tree)
    (l : Location) : middle.isStartable l = tree.isStartable l := by
  obtain hsame | ⟨_, _, _, _, _, _, _, _, hget⟩ := h.get?_cases htree l
  · rw [FileTree.isStartable, hsame, FileTree.isStartable]
  · rw [FileTree.isStartable, hget]

theorem Compiled.leadsToSource (h : Compiled tree paths middle) (htree : WellFormed tree)
    (hsource : LeadsToSource tree path directory stem) :
    LeadsToSource middle path directory stem where
  names := h.sameDirectories.names hsource.names
  stem_ne := hsource.stem_ne
  isFile := by
    rw [h.get?_source htree]
    exact hsource.isFile

theorem Compiled.script?_eq (h : Compiled tree paths middle) (htree : WellFormed tree)
    (hsource : LeadsToSource tree path directory stem) :
    script? middle path = script? tree path := by
  have hread : middle.readText path = tree.readText path :=
    hsource.readText_eq (h.leadsToSource htree hsource) (h.get?_source htree directory stem)
  have hleads : middle.leadsToDirectory (scriptPath path) =
      tree.leadsToDirectory (scriptPath path) := by
    rw [Bool.eq_iff_iff, leadsToDirectory_iff, leadsToDirectory_iff]
    simp only [find_eq_ok, h.sameDirectories.locate_eq_ok, h.sameDirectories.directory_iff]
  rw [script?, script?, hread, hleads]

/-- One more script is written. -/
theorem Compiled.concat (h : Compiled tree paths middle) (htree : WellFormed tree)
    (hsource : LeadsToSource tree path directory stem) (hcode : script? tree path = some code) :
    Compiled tree (paths ++ [path]) (withScript middle directory stem code) := by
  have hsource' := h.leadsToSource htree hsource
  have hcode' : script? middle path = some code := (h.script?_eq htree hsource).trans hcode
  obtain ⟨hnames, hfree⟩ := hsource'.names_scriptPath h.wellFormed hcode'
  have hne : directory ++ [stem ++ "js"] ≠ [] := by simp
  rw [withScript, h.isStartable_eq htree]
  refine ⟨h.wellFormed.put hnames.isName hnames.isDirectory hfree _ _,
    h.sameDirectories.trans (.put hne hfree _ _), ?_, ?_⟩
  · intro path' hpath'
    rcases List.mem_append.mp hpath' with hpath' | hpath'
    · obtain ⟨directory', stem', code', hother, hcode', hget⟩ := h.written path' hpath'
      refine ⟨directory', stem', code', hother, hcode', ?_⟩
      by_cases heq : directory' ++ [stem' ++ "js"] = directory ++ [stem ++ "js"]
      · -- The scripts have the same place, and so have the sources.
        obtain ⟨rfl, hname⟩ := List.append_inj' heq rfl
        obtain rfl := (String.append_left_inj "js").mp (List.singleton_inj.mp hname)
        rw [get?_put_self hne, hsource.code_unique hother hcode hcode']
      · rw [get?_put_of_ne heq, hget]
    · obtain rfl := List.mem_singleton.mp hpath'
      exact ⟨directory, stem, code, hsource, hcode, get?_put_self hne _⟩
  · intro l hl
    obtain ⟨hl, hlast⟩ := List.forall_mem_append.mp hl
    have hother : l ≠ directory ++ [stem ++ "js"] := by
      rintro rfl
      refine hlast path List.mem_cons_self ?_
      exact (hsource.names_scriptPath htree hcode).1.locate_eq
    rw [get?_put_of_ne hother]
    exact h.others l hl

/-- Whether a source file has a script. -/
def isReady (tree : FileTree) (path : Path) : Bool := (script? tree path).isSome

end JPlusPlus.Step
