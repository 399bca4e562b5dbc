import JPlusPlus.Proofs.File.Entry
import JPlusPlus.Proofs.File.Order

/-!
# What stands in a tree, in the order of a walk

All that stands at and below a location of a well-formed tree, each entry with the names that lead
to it from there, in the order in which a walk meets the entries (`FileTree.entriesFrom`). A walk
does not see the tree as a whole: it lists one directory after the other. So it is shown that what
stands at and below a directory is the directory and, in the order of the listing, what stands at
and below its entries (`FileTree.WellFormed.entriesAt_eq`). The listing may be that of a later tree,
in which more stands.

A walk names what it meets by joined paths, which can be too long to be followed: a file with such a
path is passed over, and a directory with such a path ends the walk.

## Main statements

* `FileTree.WellFormed.entriesAt_eq`: what stands below a directory, by the entries it lists.
* `FileTree.WellFormed.meets_iff`: the files that a walk meets before a directory ends it.
-/

namespace JPlusPlus.FileTree

variable {tree : FileTree} {root : Path} {location names : Location} {entry : Entry}

/-! ## Directories -/

theorem child?_eq_some {e : Location × Entry} {child : Child} :
    child? location e = some child ↔
      e.1 = location ++ [child.name] ∧ child.isDirectory = decide (e.2 = .directory) := by
  obtain ⟨l, entry⟩ := e
  rw [child?]
  constructor
  · intro h
    split at h
    · next name hbelow =>
      obtain ⟨_, hchild⟩ := Option.dite_none_right_eq_some.mp h
      obtain rfl := Option.some.inj hchild
      exact ⟨(List.append_eq_of_isPrefixOf?_eq_some hbelow).symm, rfl⟩
    · cases h
  · rintro ⟨rfl, hdirectory⟩
    have hbelow : location.isPrefixOf? (location ++ [child.name]) = some [child.name] :=
      List.isPrefixOf?_eq_some_iff_append_eq.mpr rfl
    simp only [hbelow]
    rw [dif_pos child.name_ne, ← hdirectory]

/-- A directory lists what stands in it. -/
theorem WellFormed.mem_children (h : WellFormed tree) {child : Child} :
    child ∈ tree.children location ↔ ∃ entry,
      tree.get? (location ++ [child.name]) = some entry ∧
        child.isDirectory = decide (entry = .directory) := by
  rw [children, List.mem_mergeSort, List.mem_filterMap]
  constructor
  · rintro ⟨⟨l, entry⟩, hmem, hchild⟩
    obtain ⟨rfl, hdirectory⟩ := child?_eq_some.mp hchild
    exact ⟨entry, h.get?_of_mem hmem, hdirectory⟩
  · rintro ⟨entry, hget, hdirectory⟩
    exact ⟨_, mem_of_get? (by simp) hget, child?_eq_some.mpr ⟨rfl, hdirectory⟩⟩

/-- A directory lists what stands in it in the order of the names. -/
theorem WellFormed.pairwise_children (h : WellFormed tree) (location : Location) :
    (tree.children location).Pairwise fun a b ↦ compareNames a.name b.name = .lt := by
  refine pairwise_mergeSort_of_nodup Child.name (List.pairwise_map.mpr ?_)
  refine List.Pairwise.filterMap _ ?_ (List.pairwise_map.mp h.nodup)
  intro e e' hne child hchild child' hchild' hname
  apply hne
  rw [(child?_eq_some.mp hchild).1, (child?_eq_some.mp hchild').1, hname]

theorem list_of_find (hfits : root.fits = true)
    (hfind : tree.find root = .ok (location, .directory)) :
    tree.list root = .ok ⟨tree.children location, hfits⟩ := by
  rw [list, dif_pos hfits, hfind]

theorem list_of_long (hlong : root.fits = false) : tree.list root = .error .nameTooLong :=
  dif_neg (Bool.not_eq_true _ ▸ hlong)

/-! ## All that stands in a tree -/

/-- All that stands in a tree, with the root. -/
def standing (tree : FileTree) : List (Location × Entry) := ([], .directory) :: tree.entries

theorem WellFormed.mem_standing (h : WellFormed tree) :
    (location, entry) ∈ tree.standing ↔ tree.get? location = some entry := by
  rw [standing, List.mem_cons]
  constructor
  · rintro (heq | hmem)
    · obtain ⟨rfl, rfl⟩ := Prod.mk.inj heq
      exact get?_nil tree
    · exact h.get?_of_mem hmem
  · intro hget
    by_cases hnil : location = []
    · subst hnil
      rw [get?_nil] at hget
      exact .inl (by rw [Option.some.inj hget])
    · exact .inr (mem_of_get? hnil hget)

theorem WellFormed.nodup_standing (h : WellFormed tree) :
    (tree.standing.map Prod.fst).Nodup := by
  rw [standing, List.map_cons, List.nodup_cons]
  refine ⟨fun hmem ↦ ?_, h.nodup⟩
  obtain ⟨e, he, hnil⟩ := List.mem_map.mp hmem
  exact h.ne_nil he hnil

/-- What stands at and below a location, with the names that lead there from it, in the order of a
walk. -/
def entriesFrom (tree : FileTree) (location : Location) : List (Location × Entry) :=
  (tree.standing.filterMap fun e ↦ (location.isPrefixOf? e.1).map (·, e.2)).mergeSort
    fun a b ↦ (compareLocations a.1 b.1).isLE

theorem WellFormed.mem_entriesFrom (h : WellFormed tree) :
    (names, entry) ∈ tree.entriesFrom location ↔ tree.get? (location ++ names) = some entry := by
  rw [entriesFrom, List.mem_mergeSort, List.mem_filterMap, ← h.mem_standing]
  constructor
  · rintro ⟨⟨l, entry'⟩, hmem, hnames⟩
    obtain ⟨names', hprefix', heq⟩ := Option.map_eq_some_iff.mp hnames
    obtain ⟨rfl, rfl⟩ := Prod.mk.inj heq
    rwa [List.append_eq_of_isPrefixOf?_eq_some hprefix']
  · intro hmem
    refine ⟨_, hmem, Option.map_eq_some_iff.mpr ⟨names, ?_, rfl⟩⟩
    exact List.isPrefixOf?_eq_some_iff_append_eq.mpr rfl

theorem WellFormed.pairwise_entriesFrom (h : WellFormed tree) (location : Location) :
    (tree.entriesFrom location).Pairwise fun a b ↦ Location.Precedes a.1 b.1 := by
  refine (pairwise_mergeSort_of_nodup Prod.fst (List.pairwise_map.mpr ?_)).imp
    compareLocations_eq_lt.mp
  refine List.Pairwise.filterMap _ ?_ (List.pairwise_map.mp h.nodup_standing)
  intro a b hne x hx y hy hxy
  obtain ⟨_, ha, rfl⟩ := Option.map_eq_some_iff.mp hx
  obtain ⟨_, hb, rfl⟩ := Option.map_eq_some_iff.mp hy
  obtain rfl := hxy
  apply hne
  rw [← List.append_eq_of_isPrefixOf?_eq_some ha, ← List.append_eq_of_isPrefixOf?_eq_some hb]

/-! ## One directory after the other -/

/-- What of `entriesFrom` stands at and below the place that names lead to. -/
def entriesAt (tree : FileTree) (location names : Location) : List (Location × Entry) :=
  (tree.entriesFrom location).filter fun e ↦ names.isPrefixOf e.1

theorem entriesAt_nil (tree : FileTree) (location : Location) :
    tree.entriesAt location [] = tree.entriesFrom location := by
  rw [entriesAt, List.filter_eq_self]
  exact fun _ _ ↦ rfl

theorem WellFormed.mem_entriesAt (h : WellFormed tree) {e : Location × Entry} :
    e ∈ tree.entriesAt location names ↔
      ∃ further, e.1 = names ++ further ∧ tree.get? (location ++ names ++ further) = some e.2 := by
  obtain ⟨names', entry⟩ := e
  rw [entriesAt, List.mem_filter, h.mem_entriesFrom, List.isPrefixOf_iff_prefix]
  constructor
  · rintro ⟨hget, further, rfl⟩
    exact ⟨further, rfl, List.append_assoc location names further ▸ hget⟩
  · rintro ⟨further, rfl, hget⟩
    exact ⟨List.append_assoc location names further ▸ hget, List.prefix_append names further⟩

theorem WellFormed.pairwise_entriesAt (h : WellFormed tree) (location names : Location) :
    (tree.entriesAt location names).Pairwise fun a b ↦ Location.Precedes a.1 b.1 :=
  (h.pairwise_entriesFrom location).filter _

theorem eq_of_pairwise_fst {as bs : List (Location × Entry)}
    (ha : as.Pairwise fun a b ↦ Location.Precedes a.1 b.1)
    (hb : bs.Pairwise fun a b ↦ Location.Precedes a.1 b.1) (h : ∀ e, e ∈ as ↔ e ∈ bs) : as = bs :=
  eq_of_pairwise_of_asymm (fun _ _ hab ↦ hab.asymm) ha hb h

/-- Where no directory stands, nothing stands below. -/
theorem WellFormed.entriesAt_of_ne (h : WellFormed tree)
    (hne : tree.get? (location ++ names) ≠ some .directory) :
    tree.entriesAt location names = ((tree.get? (location ++ names)).map (names, ·)).toList := by
  refine eq_of_pairwise_fst (h.pairwise_entriesAt location names) ?_ fun e ↦ ?_
  · cases tree.get? (location ++ names) <;> simp
  rw [h.mem_entriesAt, Option.mem_toList, Option.map_eq_some_iff]
  constructor
  · rintro ⟨further, he, hget⟩
    rcases further with _ | ⟨name, further⟩
    · rw [List.append_nil] at he hget
      exact ⟨e.2, hget, by rw [← he]⟩
    · exact absurd (h.above hget).2 hne
  · rintro ⟨entry, hget, rfl⟩
    exact ⟨[], (List.append_nil _).symm, by rw [List.append_nil, hget]⟩

/-- Something stands wherever something stands below. -/
theorem WellFormed.exists_above (h : WellFormed tree) {further : Location}
    (hget : tree.get? (location ++ further) = some entry) :
    ∃ entry', tree.get? location = some entry' := by
  rcases further with _ | ⟨name, further⟩
  · exact ⟨entry, List.append_nil location ▸ hget⟩
  · exact ⟨.directory, (h.above hget).2⟩

/-- What stands at and below a directory: the directory, and what stands at and below its entries in
their order. Names at which nothing stands do no harm. -/
theorem WellFormed.entriesAt_eq (h : WellFormed tree)
    (hget : tree.get? (location ++ names) = some .directory) {children : List Child}
    (hordered : children.Pairwise fun a b ↦ compareNames a.name b.name = .lt)
    (hall : ∀ name entry, tree.get? (location ++ names ++ [name]) = some entry →
      ∃ child ∈ children, child.name = name) :
    tree.entriesAt location names = (names, .directory) ::
      children.flatMap fun child ↦ tree.entriesAt location (names ++ [child.name]) := by
  refine eq_of_pairwise_fst (h.pairwise_entriesAt location names) ?_ fun e ↦ ?_
  · -- Below different entries, the names differ first where those of the entries do.
    rw [List.pairwise_cons, List.pairwise_flatMap]
    refine ⟨fun e he ↦ ?_, fun child _ ↦ h.pairwise_entriesAt _ _,
      hordered.imp fun hlt e he e' he' ↦ ?_⟩
    · obtain ⟨child, -, he⟩ := List.mem_flatMap.mp he
      obtain ⟨further, he, -⟩ := h.mem_entriesAt.mp he
      rw [he, List.append_assoc]
      exact Location.precedes_below names child.name further
    · obtain ⟨further, he, -⟩ := h.mem_entriesAt.mp he
      obtain ⟨further', he', -⟩ := h.mem_entriesAt.mp he'
      rw [he, he', List.append_assoc, List.append_assoc]
      exact Location.precedes_beside hlt names further further'
  rw [h.mem_entriesAt, List.mem_cons, List.mem_flatMap]
  constructor
  · rintro ⟨further, he, hentry⟩
    rcases further with _ | ⟨name, further⟩
    · rw [List.append_nil] at he hentry
      rw [hget] at hentry
      exact .inl (Prod.ext he (Option.some.inj hentry).symm)
    · rw [List.append_cons] at he hentry
      obtain ⟨entry, hname⟩ := h.exists_above hentry
      obtain ⟨child, hchild, rfl⟩ := hall name entry hname
      refine .inr ⟨child, hchild, h.mem_entriesAt.mpr ⟨further, he, ?_⟩⟩
      rw [← hentry, ← List.append_assoc location]
  · rintro (rfl | ⟨child, -, he⟩)
    · exact ⟨[], (List.append_nil _).symm, by rw [List.append_nil, hget]⟩
    · obtain ⟨further, he, hentry⟩ := h.mem_entriesAt.mp he
      refine ⟨child.name :: further, ?_, ?_⟩
      · rw [he, ← List.append_cons]
      · rw [← hentry, List.append_cons, ← List.append_assoc location]

/-! ## How far a walk comes -/

/-- Whether a walk goes on at an entry: at a directory, its path must lead there. -/
def goesOn (root : Path) (e : Location × Entry) : Bool :=
  match e.2 with
  | .directory => (root.joinAll e.1).fits
  | .file _ _ => true

/-- Whether a walk meets an entry as a file. -/
def isMet (root : Path) (e : Location × Entry) : Bool :=
  match e.2 with
  | .directory => false
  | .file _ _ => (root.joinAll e.1).fits

/-- Every directory at or below the root of a walk has a path that is short enough. -/
def AllFit (tree : FileTree) (root : Path) (location : Location) : Prop :=
  ∀ names, tree.get? (location ++ names) = some .directory → (root.joinAll names).fits = true

/-- A walk from a root meets what names lead to as a file. -/
structure Meets (tree : FileTree) (root : Path) (location names : Location) : Prop where
  /-- A file stands there. -/
  isFile : ∃ contents startable, tree.get? (location ++ names) = some (.file contents startable)
  /-- Its path is short enough. -/
  fits : (root.joinAll names).fits = true
  /-- It comes before every directory with a path that is too long. -/
  before : ∀ further, tree.get? (location ++ further) = some .directory →
    (root.joinAll further).fits = false → Location.Precedes names further

/-- In a list in order, what stands before the first element that fails a test. -/
theorem mem_takeWhile_of_pairwise {α : Type} {r : α → α → Prop} (hasymm : ∀ a b, r a b → ¬r b a)
    {p : α → Bool} {as : List α} (h : as.Pairwise r) {x : α} :
    x ∈ as.takeWhile p ↔ x ∈ as ∧ p x = true ∧ ∀ y ∈ as, p y = false → r x y := by
  induction as with
  | nil => simp
  | cons a as ih =>
    obtain ⟨ha, has⟩ := List.pairwise_cons.mp h
    rw [List.takeWhile_cons]
    split
    · next hpa =>
      rw [List.mem_cons, ih has]
      constructor
      · rintro (rfl | ⟨hx, hpx, hall⟩)
        · refine ⟨List.mem_cons_self, hpa, fun y hy hpy ↦ ?_⟩
          rcases List.mem_cons.mp hy with rfl | hy
          · exact absurd (hpa.symm.trans hpy) Bool.noConfusion
          · exact ha y hy
        · refine ⟨List.mem_cons_of_mem a hx, hpx, fun y hy hpy ↦ ?_⟩
          rcases List.mem_cons.mp hy with rfl | hy
          · exact absurd (hpa.symm.trans hpy) Bool.noConfusion
          · exact hall y hy hpy
      · rintro ⟨hx, hpx, hall⟩
        rcases List.mem_cons.mp hx with rfl | hx
        · exact .inl rfl
        · exact .inr ⟨hx, hpx, fun y hy ↦ hall y (List.mem_cons_of_mem a hy)⟩
    · next hpa =>
      refine iff_of_false List.not_mem_nil ?_
      rintro ⟨hx, hpx, hall⟩
      rcases List.mem_cons.mp hx with rfl | hx
      · exact hpa hpx
      · exact hasymm _ _ (ha x hx) (hall a List.mem_cons_self (Bool.not_eq_true _ ▸ hpa))

/-- The files that a walk meets before a directory ends it. -/
theorem WellFormed.meets_iff (h : WellFormed tree) :
    Meets tree root location names ↔ ∃ entry,
      (names, entry) ∈ (tree.entriesFrom location).takeWhile (goesOn root) ∧
        isMet root (names, entry) = true := by
  simp only [mem_takeWhile_of_pairwise (fun _ _ hab ↦ hab.asymm) (h.pairwise_entriesFrom location),
    h.mem_entriesFrom]
  constructor
  · rintro ⟨⟨contents, startable, hget⟩, hfits, hbefore⟩
    refine ⟨.file contents startable, ⟨hget, rfl, ?_⟩, hfits⟩
    rintro ⟨further, _ | _⟩ hdirectory hlong
    · exact hbefore further hdirectory hlong
    · cases hlong
  · rintro ⟨_ | ⟨contents, startable⟩, ⟨hget, -, hbefore⟩, hmet⟩
    · cases hmet
    · exact ⟨⟨contents, startable, hget⟩, hmet,
        fun further hdirectory ↦ hbefore (further, .directory) hdirectory⟩

/-- A walk comes to its end when no directory has a path that is too long. -/
theorem WellFormed.allFit_iff (h : WellFormed tree) :
    AllFit tree root location ↔ ∀ e ∈ tree.entriesFrom location, goesOn root e = true := by
  constructor
  · rintro hall ⟨names, _ | _⟩ he
    · exact hall names (h.mem_entriesFrom.mp he)
    · rfl
  · exact fun hall names hget ↦ hall _ (h.mem_entriesFrom.mpr hget)

end JPlusPlus.FileTree
