import JPlusPlus.Proofs.File.Name
import JPlusPlus.Proofs.File.Tree

/-!
# Paths that name entries

A path that ends in a name leads to the entry of that name in a directory (`FileTree.Names`). Where
the directory is there, the directories above the entry need not be made, and writing the entry puts
a file there unless a directory stands in its place.

A tree of files is well-formed when every entry has a name and stands in a directory. Then every
entry below a directory is named by the path of the directory, joined with the names that lead from
there to the entry, if that path is short enough.

## Main statements

* `FileTree.EndsIn.makeDirectories_eq`: making the directories above an entry changes nothing.
* `FileTree.Names.write_eq`: what writing an entry does.
* `FileTree.WellFormed.names_joinAll`: joined paths name the entries below a directory.
-/

namespace JPlusPlus.FileTree

variable {tree before after : FileTree} {path : Path} {location directory : Location}
  {name : String} {contents : List UInt8}

/-! ## Idle segments -/

theorem eq_of_follow_idle {idles : List String} {l : Location}
    (hidles : ∀ segment ∈ idles, Path.isIdle segment = true)
    (h : tree.follow location idles = .ok l) : l = location := by
  induction idles with
  | nil =>
    rw [follow] at h
    exact (Except.ok.inj h).symm
  | cons segment idles ih =>
    obtain ⟨hidle, hidles⟩ := List.forall_mem_cons.mp hidles
    obtain ⟨-, m, hm, hl⟩ := follow_cons_eq_ok.mp h
    rw [next?, if_pos hidle] at hm
    obtain rfl := Option.some.inj hm
    exact ih hidles hl

theorem follow_idle {idles : List String}
    (hidles : ∀ segment ∈ idles, Path.isIdle segment = true)
    (h : tree.get? location = some .directory) : tree.follow location idles = .ok location := by
  induction idles with
  | nil => rw [follow]
  | cons segment idles ih =>
    obtain ⟨hidle, hidles⟩ := List.forall_mem_cons.mp hidles
    refine follow_cons_eq_ok.mpr ⟨h, location, ?_, ih hidles⟩
    rw [next?, if_pos hidle]

theorem next?_of_isName (h : Path.IsName name) :
    next? location name = some (location ++ [name]) := by
  rw [next?, h.notIdle, if_neg Bool.false_ne_true, if_neg h.notUp, if_pos h.fits]

/-! ## Directories that are there -/

theorem dropSlashes_append (segments : List String) :
    ∃ slashes, segments = Path.dropSlashes segments ++ slashes ∧
      ∀ segment ∈ slashes, Path.isIdle segment = true := by
  fun_induction Path.dropSlashes segments with
  | case1 => exact ⟨[], rfl, List.forall_mem_nil _⟩
  | case2 more hnone ih =>
    obtain ⟨slashes, hmore, hslashes⟩ := ih
    rw [hnone, List.nil_append] at hmore
    exact ⟨"" :: more, rfl, List.forall_mem_cons.mpr ⟨rfl, hmore ▸ hslashes⟩⟩
  | case3 segment more hnone hne ih =>
    obtain ⟨slashes, hmore, hslashes⟩ := ih
    rw [hnone, List.nil_append] at hmore
    exact ⟨more, rfl, hmore ▸ hslashes⟩
  | case4 segment more hsome ih =>
    obtain ⟨slashes, hmore, hslashes⟩ := ih
    refine ⟨slashes, ?_, hslashes⟩
    rw [List.cons_append, ← hmore]

/-- A directory that a path leads to cannot be made. -/
theorem makeDirectory_of_find (h : tree.find path = .ok (location, .directory)) :
    makeDirectory path tree = .error .exists tree := by
  obtain ⟨hlocate, hget⟩ := find_eq_ok.mp h
  obtain ⟨htext, hfits, hfollow⟩ := locate_eq_ok.mp hlocate
  obtain ⟨slashes, hsegments, hslashes⟩ := dropSlashes_append path.segments
  rcases List.eq_nil_or_concat (Path.dropSlashes path.segments) with hkept | ⟨init, last, hkept⟩
  · -- The path leads to where it starts.
    obtain ⟨first, more, hfirst⟩ := List.exists_cons_of_ne_nil path.segments_ne_nil
    rw [hfirst] at hfollow
    obtain ⟨hstart, -⟩ := follow_cons_eq_ok.mp hfollow
    have hnone : tree.followPath path [] = .ok (tree.start path) :=
      followPath_eq_ok.mpr ⟨htext, hfits, by rw [follow]⟩
    have hplace : tree.entryLocation? path = .ok none := by
      simp only [entryLocation?, hkept, List.dropLast_nil, hnone, bind, Except.bind, hstart,
        List.getLast?_nil]
      rfl
    rw [makeDirectory, hplace]
  · rw [hkept, List.concat_eq_append] at hsegments
    rw [hsegments, List.append_assoc] at hfollow
    obtain ⟨m, hm, hlast⟩ := follow_append_eq_ok.mp hfollow
    obtain ⟨hdirectory, n, hn, hrest⟩ := follow_cons_eq_ok.mp hlast
    obtain rfl := eq_of_follow_idle hslashes hrest
    have hinit : tree.followPath path (Path.dropSlashes path.segments).dropLast = .ok m := by
      rw [hkept, List.concat_eq_append, List.dropLast_concat]
      exact followPath_eq_ok.mpr ⟨htext, hfits, hm⟩
    have hend : (Path.dropSlashes path.segments).getLast? = some last := by
      rw [hkept, List.concat_eq_append, List.getLast?_concat]
    rw [makeDirectory, entryLocation?_eq hinit hdirectory hend]
    rw [next?] at hn
    split at hn
    · next hidle => rw [hidle, Bool.true_or, if_pos rfl]
    · next hidle =>
      split at hn
      · next hup => simp [hup]
      · next hup =>
        split at hn
        · next hnamefits =>
          obtain rfl := Option.some.inj hn
          have hhold : canHold (m ++ [last]) = true := by simpa [canHold] using hnamefits
          simp [hidle, hup, hhold, hget]
        · cases hn

/-- A directory that a path leads to need not be made. -/
theorem ensureDirectory_of_find (h : tree.find path = .ok (location, .directory)) :
    ensureDirectory path tree = .ok () tree := by
  have hleads := leadsToDirectory_iff.mpr ⟨location, h⟩
  rw [ensureDirectory, makeDirectory_of_find h]
  dsimp only
  rw [if_pos hleads]

/-! ## Entries in directories -/

/-- A path ends in a segment, and what stands before it leads to a directory. -/
structure EndsIn (tree : FileTree) (path : Path) (directory : Location) (last : String) : Prop where
  /-- The path is short enough. -/
  fits : path.fits = true
  /-- What stands before the segment leads to the directory. -/
  leads : ∃ segments, path.segments = segments ++ [last] ∧
    tree.follow (tree.start path) segments = .ok directory
  /-- The directory is there. -/
  isDirectory : tree.get? directory = some .directory

/-- A path names the entry of a name in a directory; the entry need not be there. -/
structure Names (tree : FileTree) (path : Path) (directory : Location) (name : String) : Prop
    extends EndsIn tree path directory name where
  /-- The name is one. -/
  isName : Path.IsName name

/-- Where a path leads is told by its last segment. -/
theorem EndsIn.locate_eq {last : String} (h : EndsIn tree path directory last) (hne : last ≠ "")
    (hnext : next? directory last = some location) : tree.locate path = .ok location := by
  obtain ⟨segments, hsegments, hfollow⟩ := h.leads
  refine locate_eq_ok.mpr ⟨Path.text_ne_empty hsegments hne, h.fits, ?_⟩
  rw [hsegments]
  refine follow_append_eq_ok.mpr ⟨directory, hfollow, ?_⟩
  exact follow_cons_eq_ok.mpr ⟨h.isDirectory, location, hnext, by rw [follow]⟩

theorem Names.text_ne_empty (h : Names tree path directory name) : path.text ≠ "" := by
  obtain ⟨segments, hsegments, -⟩ := h.leads
  exact Path.text_ne_empty hsegments h.isName.ne_empty

theorem Names.locate_eq (h : Names tree path directory name) :
    tree.locate path = .ok (directory ++ [name]) :=
  h.toEndsIn.locate_eq h.isName.ne_empty (next?_of_isName h.isName)

theorem SameDirectories.names (h : SameDirectories before after)
    (hnames : Names before path directory name) : Names after path directory name where
  fits := hnames.fits
  leads := by
    obtain ⟨segments, hsegments, hfollow⟩ := hnames.leads
    exact ⟨segments, hsegments, by rwa [h.start_eq, h.follow_eq_ok]⟩
  isDirectory := (h.directory_iff directory).mpr hnames.isDirectory
  isName := hnames.isName

/-- The directories above an entry of a directory that is there need not be made. -/
theorem EndsIn.makeDirectories_eq {last : String} {parent : Path}
    (h : EndsIn tree path directory last) (hlast : Path.isIdle last = false)
    (hparent : path.parent? = some parent) (hne : parent.text ≠ "") :
    makeDirectories parent tree = .ok () tree := by
  obtain ⟨hfits, ⟨segments, hsegments, hfollow⟩, hdirectory⟩ := h
  obtain rfl :
      Path.ofSegments path.isAbsolute (Path.dropIdle path.isAbsolute segments) = parent := by
    rw [Path.parent?_eq hsegments hlast] at hparent
    exact Option.some.inj hparent
  have htext : path.text ≠ "" := by
    refine Path.text_ne_empty hsegments ?_
    rintro rfl
    cases hlast
  obtain ⟨idles, hidles, hidle⟩ := Path.dropIdle_append path.isAbsolute segments
  have hagain := Path.dropIdle_dropIdle path.isAbsolute segments
  generalize Path.dropIdle path.isAbsolute segments = kept at *
  rcases hkept : kept with _ | ⟨first, more⟩
  · -- Only a path from the root has a parent of no segments that is not empty.
    subst hkept
    cases habsolute : path.isAbsolute with
    | false =>
      rw [habsolute] at hne
      exact absurd rfl hne
    | true =>
      have hroot : Path.dropIdle (Path.ofSegments true []).isAbsolute
          (Path.ofSegments true []).segments = [] := by decide
      rw [makeDirectories, hroot, ensureDirectories]
  · rw [← hkept]
    have hsplit : Path.IsSplit path.isAbsolute kept := by
      have hparts : path.segments = kept ++ (idles ++ [last]) := by
        rw [hsegments, hidles, List.append_assoc]
      exact (Path.isSplit_segments htext).of_append hparts (by simp [hkept])
    have hsame : (Path.ofSegments path.isAbsolute kept).isAbsolute = path.isAbsolute :=
      hsplit.isAbsolute
    have hfind :
        tree.find (Path.ofSegments path.isAbsolute kept) = .ok (directory, .directory) := by
      rw [hidles] at hfollow
      obtain ⟨m, hm, hrest⟩ := follow_append_eq_ok.mp hfollow
      obtain rfl := eq_of_follow_idle hidle hrest
      refine find_eq_ok.mpr ⟨locate_eq_ok.mpr ⟨hne, ?_, ?_⟩, hdirectory⟩
      · have hle := Path.utf8ByteSize_ofSegments_le path.isAbsolute kept (idles ++ [last])
        rw [← List.append_assoc, ← hidles, ← hsegments, Path.ofSegments_segments] at hle
        rw [Path.fits, decide_eq_true_eq] at hfits ⊢
        exact Nat.le_trans hle hfits
      · rw [start, hsame, hsplit.segments_eq]
        exact hm
    rw [makeDirectories, hsame, hsplit.segments_eq, hagain, hkept, ensureDirectories, ← hkept,
      ensureDirectory_of_find hfind]

/-- Writing an entry puts a file there, in place of a file that stood there. -/
theorem Names.write_eq (h : Names tree path directory name)
    (hfree : tree.get? (directory ++ [name]) ≠ some .directory) (contents : List UInt8) :
    write path contents tree = .ok () (tree.put (directory ++ [name])
      (.file contents (tree.isStartable (directory ++ [name])))) := by
  obtain ⟨segments, hsegments, hfollow⟩ := h.leads
  have hlast : path.segments.getLast? = some name := by rw [hsegments, List.getLast?_concat]
  have hplain : path.segments.getLast? ≠ some "" := by
    rw [hlast]
    exact fun he ↦ h.isName.ne_empty (Option.some.inj he)
  have hkept := Path.dropSlashes_eq_self hplain
  have hplace : tree.entryLocation? path = .ok (some (directory ++ [name])) := by
    have hinit :
        tree.followPath path (Path.dropSlashes path.segments).dropLast = .ok directory := by
      rw [hkept, hsegments, List.dropLast_concat]
      exact followPath_eq_ok.mpr ⟨h.text_ne_empty, h.fits, hfollow⟩
    rw [entryLocation?_eq hinit h.isDirectory (hkept ▸ hlast), h.isName.notIdle, Bool.false_or,
      decide_eq_false h.isName.notUp, if_neg Bool.false_ne_true]
  have hslash : path.endsInSlash = false := by
    rw [← Bool.not_eq_true, Path.endsInSlash_iff h.text_ne_empty]
    exact hplain
  have hhold : canHold (directory ++ [name]) = true := by simpa [canHold] using h.isName.fits
  exact write_eq_ok.mpr ⟨_, hplace, hslash, hhold, hfree, rfl⟩

/-- No file is written where a path leads to a directory. -/
theorem write_of_leadsToDirectory (h : tree.leadsToDirectory path = true) (contents : List UInt8) :
    ∃ fault, write path contents tree = .error fault tree := by
  rcases hwrite : write path contents tree with ⟨_, tree'⟩ | ⟨fault, tree'⟩
  · obtain ⟨l, hplace, hslash, hhold, hfree, -⟩ := write_eq_ok.mp hwrite
    obtain ⟨l', hfind⟩ := leadsToDirectory_iff.mp h
    obtain ⟨hlocate, hget⟩ := find_eq_ok.mp hfind
    rw [locate_of_entryLocation? hplace hslash hhold] at hlocate
    obtain rfl := Except.ok.inj hlocate
    exact absurd hget hfree
  · obtain rfl := leaves_write_of_error hwrite
    exact ⟨fault, rfl⟩

/-! ## Well-formed trees -/

/-- A tree of files: each location has one entry, which has a name and stands in a directory. -/
structure WellFormed (tree : FileTree) : Prop where
  /-- No location has two entries. -/
  nodup : (tree.entries.map Prod.fst).Nodup
  /-- Every entry has a name and stands in a directory. -/
  entry : ∀ e ∈ tree.entries, ∃ directory name,
    e.1 = directory ++ [name] ∧ Path.IsName name ∧ tree.get? directory = some .directory

theorem mem_of_get? {entry : Entry} (hne : location ≠ []) (h : tree.get? location = some entry) :
    (location, entry) ∈ tree.entries := by
  rw [get?, if_neg hne, List.lookup_eq_some_iff] at h
  obtain ⟨first, more, hentries, -⟩ := h
  rw [hentries]
  exact List.mem_append_right first List.mem_cons_self

theorem WellFormed.ne_nil {e : Location × Entry} (h : WellFormed tree) (hmem : e ∈ tree.entries) :
    e.1 ≠ [] := by
  obtain ⟨directory, name, he, -⟩ := h.entry e hmem
  rw [he]
  simp

theorem WellFormed.get?_of_mem {entry : Entry} (h : WellFormed tree)
    (hmem : (location, entry) ∈ tree.entries) : tree.get? location = some entry := by
  obtain ⟨first, more, hentries⟩ := List.append_of_mem hmem
  rw [get?, if_neg (h.ne_nil hmem), List.lookup_eq_some_iff]
  refine ⟨first, more, hentries, fun e he ↦ bne_iff_ne.mpr ?_⟩
  rintro rfl
  have hnodup := h.nodup
  rw [hentries, List.map_append, List.nodup_append] at hnodup
  exact hnodup.2.2 e.1 (List.mem_map_of_mem he) e.1 (by simp) rfl

/-- What stands in a directory has a name. -/
theorem WellFormed.parent (h : WellFormed tree) {entry : Entry}
    (hget : tree.get? (directory ++ [name]) = some entry) :
    Path.IsName name ∧ tree.get? directory = some .directory := by
  have hne : directory ++ [name] ≠ [] := by simp
  obtain ⟨directory', name', he, hname, hdirectory⟩ := h.entry _ (mem_of_get? hne hget)
  obtain ⟨rfl, he⟩ := List.append_inj' he rfl
  obtain rfl : name = name' := by simpa using he
  exact ⟨hname, hdirectory⟩

/-- What is above an entry is a directory. -/
theorem WellFormed.above (h : WellFormed tree) {names : List String} {entry : Entry}
    (hget : tree.get? (location ++ name :: names) = some entry) :
    Path.IsName name ∧ tree.get? location = some .directory := by
  induction names generalizing location name with
  | nil => exact h.parent hget
  | cons next names ih =>
    rw [List.append_cons] at hget
    exact h.parent (ih hget).2

/-- Names lead to the entry that stands there. -/
theorem WellFormed.follow_eq (h : WellFormed tree) {names : List String} {entry : Entry}
    (hget : tree.get? (location ++ names) = some entry) :
    tree.follow location names = .ok (location ++ names) := by
  induction names generalizing location with
  | nil => rw [follow, List.append_nil]
  | cons name names ih =>
    obtain ⟨hname, hdirectory⟩ := h.above hget
    rw [List.append_cons] at hget ⊢
    exact follow_cons_eq_ok.mpr ⟨hdirectory, _, next?_of_isName hname, ih hget⟩

/-- A file that is put in a directory, where no directory stands, leaves the tree well-formed. -/
theorem WellFormed.put (h : WellFormed tree) (hname : Path.IsName name)
    (hdirectory : tree.get? directory = some .directory)
    (hfree : tree.get? (directory ++ [name]) ≠ some .directory) (contents : List UInt8)
    (startable : Bool) :
    WellFormed (tree.put (directory ++ [name]) (.file contents startable)) := by
  have hne : directory ++ [name] ≠ [] := by simp
  have hsame := SameDirectories.put hne hfree contents startable
  constructor
  · rw [FileTree.put, List.map_cons, List.nodup_cons]
    constructor
    · simp
    · exact h.nodup.sublist (List.filter_sublist.map _)
  · intro e he
    rcases List.mem_cons.mp he with rfl | he
    · exact ⟨directory, name, rfl, hname, (hsame.directory_iff directory).mpr hdirectory⟩
    · obtain ⟨above, last, heq, hlast, habove⟩ := h.entry e (List.mem_filter.mp he).1
      exact ⟨above, last, heq, hlast, (hsame.directory_iff above).mpr habove⟩

/-! ## Joined paths -/

theorem WellFormed.isName_of_mem (h : WellFormed tree) {names : List String} {entry : Entry}
    (hget : tree.get? (location ++ names) = some entry) : ∀ name ∈ names, Path.IsName name := by
  induction names generalizing location with
  | nil => exact nofun
  | cons name names ih =>
    obtain ⟨hname, -⟩ := h.above hget
    rw [List.append_cons] at hget
    exact List.forall_mem_cons.mpr ⟨hname, ih hget⟩

/-- A slash at the end of a path leads nowhere. -/
theorem follow_base (h : tree.locate path = .ok location) :
    tree.follow (tree.start path) path.base = .ok location := by
  obtain ⟨htext, -, hfollow⟩ := locate_eq_ok.mp h
  rw [Path.base]
  split
  · next hslash =>
    rw [Path.endsInSlash_iff htext, List.getLast?_eq_some_iff] at hslash
    obtain ⟨segments, hsegments⟩ := hslash
    rw [hsegments] at hfollow
    obtain ⟨m, hm, hlast⟩ := follow_append_eq_ok.mp hfollow
    obtain rfl := eq_of_follow_idle (by decide) hlast
    rw [hsegments, List.dropLast_concat]
    exact hm
  · exact hfollow

/-- Joined paths name the entries below a directory, if they are short enough. -/
theorem WellFormed.names_joinAll (h : WellFormed tree) {root : Path} {names : List String}
    {entry : Entry} (hroot : tree.locate root = .ok location)
    (hget : tree.get? (location ++ names ++ [name]) = some entry)
    (hfits : (root.joinAll (names ++ [name])).fits = true) :
    Names tree (root.joinAll (names ++ [name])) (location ++ names) name := by
  obtain ⟨hname, hdirectory⟩ := h.parent hget
  have hnames := h.isName_of_mem hdirectory
  obtain ⟨hbase, habsolute, htext⟩ := Path.base_joinAll (locate_eq_ok.mp hroot).1 hnames
  obtain ⟨hsegments, habsolute'⟩ := Path.segments_join htext hname
  rw [Path.joinAll_concat] at hfits ⊢
  refine ⟨⟨hfits, ⟨root.base ++ names, hbase ▸ hsegments, ?_⟩, hdirectory⟩, hname⟩
  rw [start, habsolute', habsolute]
  exact follow_append_eq_ok.mpr ⟨location, follow_base hroot, h.follow_eq hdirectory⟩

/-- Where a joined path leads. -/
theorem WellFormed.find_joinAll (h : WellFormed tree) {root : Path} {names : List String}
    {entry : Entry} (hroot : tree.locate root = .ok location)
    (hget : tree.get? (location ++ names) = some entry) :
    tree.find (root.joinAll names) =
      if (root.joinAll names).fits then .ok (location ++ names, entry)
      else .error .nameTooLong := by
  split
  · next hfits =>
    rcases List.eq_nil_or_concat names with rfl | ⟨names, name, rfl⟩
    · rw [List.append_nil] at hget ⊢
      exact find_eq_ok.mpr ⟨hroot, hget⟩
    · rw [List.concat_eq_append, ← List.append_assoc] at hget
      rw [List.concat_eq_append] at hfits ⊢
      have hnames := h.names_joinAll hroot hget hfits
      rw [← List.append_assoc]
      exact find_eq_ok.mpr ⟨hnames.locate_eq, hget⟩
  · next hfits =>
    obtain ⟨-, -, htext⟩ :=
      Path.base_joinAll (locate_eq_ok.mp hroot).1 (h.isName_of_mem hget)
    have hlocate : tree.locate (root.joinAll names) = .error .nameTooLong := by
      rw [locate, followPath, if_neg htext, if_neg hfits]
    rw [find, hlocate]
    rfl

/-- The directory above a directory is one. -/
theorem WellFormed.get?_dropLast (h : WellFormed tree)
    (hdirectory : tree.get? directory = some .directory) :
    tree.get? directory.dropLast = some .directory := by
  rcases List.eq_nil_or_concat directory with rfl | ⟨above, name, rfl⟩
  · exact get?_nil tree
  · rw [List.concat_eq_append] at hdirectory ⊢
    rw [List.dropLast_concat]
    exact (h.parent hdirectory).2

/-- A path that leads to a file names it. -/
theorem WellFormed.names_of_find (h : WellFormed tree) {startable : Bool}
    (hfind : tree.find path = .ok (location, .file contents startable)) :
    ∃ directory name, location = directory ++ [name] ∧ Names tree path directory name := by
  obtain ⟨hlocate, hget⟩ := find_eq_ok.mp hfind
  obtain ⟨-, hfits, hfollow⟩ := locate_eq_ok.mp hlocate
  obtain ⟨segments, last, hsegments⟩ := path.exists_segments_concat
  rw [hsegments] at hfollow
  obtain ⟨directory, hsegs, hlast⟩ := follow_append_eq_ok.mp hfollow
  obtain ⟨hdirectory, l, hl, hend⟩ := follow_cons_eq_ok.mp hlast
  rw [follow] at hend
  obtain rfl := Except.ok.inj hend
  -- A last segment that is no name leads to a directory.
  rw [next?] at hl
  split at hl
  · obtain rfl := Option.some.inj hl
    rw [hget] at hdirectory
    cases hdirectory
  · next hidle =>
    split at hl
    · obtain rfl := Option.some.inj hl
      rw [h.get?_dropLast hdirectory] at hget
      cases hget
    · next hup =>
      split at hl
      · next hnamefits =>
        have hmem : last ∈ path.segments := by simp [hsegments]
        have hslash := Path.slash_not_mem_segments hmem
        have hname : Path.IsName last := ⟨by simpa using hidle, hup, hslash, hnamefits⟩
        exact ⟨directory, last, (Option.some.inj hl).symm,
          ⟨hfits, ⟨segments, hsegments, hsegs⟩, hdirectory⟩, hname⟩
      · cases hl

end JPlusPlus.FileTree
