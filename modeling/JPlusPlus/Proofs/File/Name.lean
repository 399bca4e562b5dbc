import JPlusPlus.Proofs.File.Path

/-!
# Names, extensions and parents

What the functions on paths do to the last segment of a path that names an entry. Such a segment is
not empty and leads on, so nothing is dropped from the end of the path. A name with an extension is
a stem, a dot and the extension; replacing the extension keeps the stem, unless that would leave a
name that leads to the directory above.
-/

namespace JPlusPlus.Path

/-! ## Names -/

/-- A name that an entry of a directory can have. -/
structure IsName (name : String) : Prop where
  /-- It leads on. -/
  notIdle : isIdle name = false
  /-- It does not lead to the directory above. -/
  notUp : name ≠ ".."
  /-- It is a single segment. -/
  noSlash : '/' ∉ name.toList
  /-- It is short enough. -/
  fits : nameFits name = true

theorem IsName.ne_empty {name : String} (h : IsName name) : name ≠ "" := by
  rintro rfl
  have hidle := h.notIdle
  cases hidle

theorem IsSplit.concat {absolute : Bool} {segments : List String} {a b : String}
    (h : IsSplit absolute (segments ++ [a])) (hne : b ≠ "") (hslash : '/' ∉ b.toList) :
    IsSplit absolute (segments ++ [b]) := by
  refine ⟨by simp, ?_, ?_⟩
  · intro segment hsegment
    rcases List.mem_append.mp hsegment with hsegment | hsegment
    · exact h.noSlash segment (List.mem_append_left _ hsegment)
    · rwa [List.mem_singleton.mp hsegment]
  · intro hrel hhead
    cases segments with
    | nil => exact hne (Option.some.inj hhead)
    | cons first more => exact h.first hrel hhead

theorem IsSplit.of_append {absolute : Bool} {segments kept more : List String}
    (h : IsSplit absolute segments) (hsegments : segments = kept ++ more) (hne : kept ≠ []) :
    IsSplit absolute kept := by
  subst hsegments
  refine ⟨hne, fun segment hsegment ↦ h.noSlash segment (List.mem_append_left _ hsegment), ?_⟩
  intro hrel hhead
  obtain ⟨first, rest, rfl⟩ := List.exists_cons_of_ne_nil hne
  exact h.first hrel hhead

/-! ## Extensions -/

/-- A name with an extension is a stem, a dot and the extension. -/
theorem exists_stem {name extension : String} (h : extension? name = some extension) :
    ∃ stem, stem ≠ "" ∧ name = stem ++ "." ++ extension := by
  rw [extension?] at h
  split at h
  · cases h
  · cases h
  · cases h
  · next last before more hfirst hreverse =>
    obtain rfl := Option.some.inj h
    have hsplit : name.toList.splitOn '.' = (before :: more).reverse ++ [last] := by
      rw [← List.reverse_reverse (name.toList.splitOn '.'), hreverse, List.reverse_cons]
    have hjoin := intercalate_splitOn '.' name
    rw [hsplit, List.map_append, String.intercalate_append_of_ne_nil (by simp) (by simp)] at hjoin
    refine ⟨_, ?_, hjoin.symm⟩
    -- With a single part before the dot, that part is not empty; with more, there is a dot in it.
    cases more with
    | nil =>
      have hne : before ≠ [] := fun he ↦ hfirst he rfl
      simpa using hne
    | cons next more =>
      intro hempty
      rw [List.reverse_cons, List.map_append,
        String.intercalate_append_of_ne_nil (by simp) (by simp)] at hempty
      have hlength := congrArg String.length hempty
      simp only [String.length_append, String.length_singleton, String.length_empty] at hlength
      omega

theorem text_ne_empty {path : Path} {segments : List String} {segment : String}
    (h : path.segments = segments ++ [segment]) (hne : segment ≠ "") : path.text ≠ "" := by
  obtain ⟨text⟩ := path
  rintro rfl
  have hsegments : (⟨""⟩ : Path).segments = [""] := by decide
  have hlast := congrArg List.getLast? (hsegments.symm.trans h)
  rw [List.getLast?_concat] at hlast
  exact hne (Option.some.inj hlast).symm

theorem name_ofSegments_concat {absolute : Bool} {segments : List String} {segment : String}
    (h : IsSplit absolute (segments ++ [segment])) :
    (ofSegments absolute (segments ++ [segment])).name = segment := by
  rw [name, h.segments_eq, List.getLast?_concat]
  rfl

/-- The last segment gets another extension, unless it would lead to the directory above. -/
theorem replaceExtension_eq {path : Path} {segments : List String} {stem old : String}
    (hpath : path.segments = segments ++ [stem ++ old]) (hstem : stem ≠ "") (extension : String) :
    path.replaceExtension old extension =
      if stem = ".." then ofSegments path.isAbsolute (segments ++ [stem])
      else ofSegments path.isAbsolute (segments ++ [stem ++ extension]) := by
  have htext : path.text = (ofSegments path.isAbsolute (segments ++ [stem])).text ++ old := by
    rw [← text_ofSegments_append, ← hpath, ofSegments_segments]
  have hne : path.text ≠ "" := by
    refine text_ne_empty hpath fun he ↦ hstem ?_
    exact (String.append_eq_empty_iff.mp he).1
  have hsplit : IsSplit path.isAbsolute (segments ++ [stem]) := by
    have hold := isSplit_segments hne
    rw [hpath] at hold
    refine hold.concat hstem fun hslash ↦ ?_
    refine hold.noSlash (stem ++ old) (by simp) ?_
    rw [String.toList_append]
    exact List.mem_append_left _ hslash
  have htake : String.ofList (path.text.toList.take (path.text.length - old.length)) =
      (ofSegments path.isAbsolute (segments ++ [stem])).text := by
    rw [htext, String.toList_append, String.length_append, Nat.add_sub_cancel,
      ← String.length_toList, List.take_left, String.ofList_toList]
  rw [replaceExtension]
  simp only [htake]
  rw [name_ofSegments_concat hsplit]
  split
  · rfl
  · rw [← text_ofSegments_append]

/-! ## Parents -/

theorem dropIdle_concat {name : String} (h : isIdle name = false) (absolute : Bool)
    (segments : List String) : dropIdle absolute (segments ++ [name]) = segments ++ [name] := by
  induction segments generalizing absolute with
  | nil =>
    rw [List.nil_append, dropIdle, dropIdle, h]
    rfl
  | cons segment segments ih =>
    obtain ⟨first, more, hmore⟩ := List.exists_cons_of_ne_nil
      (List.append_ne_nil_of_right_ne_nil segments (List.cons_ne_nil name []))
    rw [List.cons_append, dropIdle, ih true, hmore]

/-- Only idle segments are removed. -/
theorem dropIdle_append (absolute : Bool) (segments : List String) :
    ∃ idles, segments = dropIdle absolute segments ++ idles ∧
      ∀ segment ∈ idles, isIdle segment = true := by
  fun_induction dropIdle absolute segments with
  | case1 => exact ⟨[], rfl, List.forall_mem_nil _⟩
  | case2 absolute segment more hnone hidle ih =>
    obtain ⟨idles, hmore, hidles⟩ := ih
    rw [hnone, List.nil_append] at hmore
    refine ⟨segment :: more, rfl, ?_⟩
    rw [Bool.and_eq_true] at hidle
    exact List.forall_mem_cons.mpr ⟨hidle.1, hmore ▸ hidles⟩
  | case3 absolute segment more hnone hkept ih =>
    obtain ⟨idles, hmore, hidles⟩ := ih
    rw [hnone, List.nil_append] at hmore
    exact ⟨more, rfl, hmore ▸ hidles⟩
  | case4 absolute segment more hsome ih =>
    obtain ⟨idles, hmore, hidles⟩ := ih
    refine ⟨idles, ?_, hidles⟩
    rw [List.cons_append, ← hmore]

theorem dropIdle_dropIdle (absolute : Bool) (segments : List String) :
    dropIdle absolute (dropIdle absolute segments) = dropIdle absolute segments := by
  fun_induction dropIdle absolute segments with
  | case1 => rfl
  | case2 absolute segment more hnone hidle ih => rfl
  | case3 absolute segment more hnone hkept ih =>
    rw [dropIdle, dropIdle, if_neg hkept]
  | case4 absolute segment more hsome ih =>
    rw [dropIdle, ih]
    split
    · next hnone => exact absurd hnone hsome
    · rfl

/-- The parent of a path that names an entry. -/
theorem parent?_eq {path : Path} {segments : List String} {name : String}
    (h : path.segments = segments ++ [name]) (hname : isIdle name = false) :
    path.parent? = some (ofSegments path.isAbsolute (dropIdle path.isAbsolute segments)) := by
  obtain ⟨first, more, hmore⟩ := List.exists_cons_of_ne_nil
    (List.append_ne_nil_of_right_ne_nil segments (List.cons_ne_nil name []))
  rw [parent?, h, dropIdle_concat hname, hmore]
  dsimp only
  rw [← hmore, List.dropLast_concat]

/-- A path is not longer than what is below it. -/
theorem utf8ByteSize_ofSegments_le (absolute : Bool) (segments more : List String) :
    (ofSegments absolute segments).text.utf8ByteSize ≤
      (ofSegments absolute (segments ++ more)).text.utf8ByteSize := by
  have hinner : ("/".intercalate segments).utf8ByteSize ≤
      ("/".intercalate (segments ++ more)).utf8ByteSize := by
    by_cases hmore : more = []
    · exact Nat.le_of_eq (by rw [hmore, List.append_nil])
    by_cases hsegments : segments = []
    · rw [hsegments, String.intercalate_nil, String.utf8ByteSize_empty]
      exact Nat.zero_le _
    · rw [String.intercalate_append_of_ne_nil hsegments hmore, String.utf8ByteSize_append,
        String.utf8ByteSize_append]
      omega
  simp only [ofSegments, String.utf8ByteSize_append]
  omega

/-- A path that differs in its last segment, by one that is not longer. -/
theorem segments_sibling {path : Path} {segments : List String} {a b : String}
    (hpath : path.segments = segments ++ [a]) (ha : a ≠ "") (hb : b ≠ "") (hslash : '/' ∉ b.toList)
    (hle : b.utf8ByteSize ≤ a.utf8ByteSize) (hfits : path.fits = true) :
    let sibling := ofSegments path.isAbsolute (segments ++ [b])
    sibling.segments = segments ++ [b] ∧ sibling.isAbsolute = path.isAbsolute ∧
      sibling.fits = true := by
  have hold := isSplit_segments (text_ne_empty hpath ha)
  rw [hpath] at hold
  have hsplit := hold.concat hb hslash
  refine ⟨hsplit.segments_eq, hsplit.isAbsolute, ?_⟩
  have hsize (last : String) : (ofSegments path.isAbsolute (segments ++ [last])).text.utf8ByteSize =
      (ofSegments path.isAbsolute (segments ++ [""])).text.utf8ByteSize + last.utf8ByteSize := by
    rw [← String.utf8ByteSize_append, ← text_ofSegments_append, String.empty_append]
  rw [← ofSegments_segments path, hpath] at hfits
  rw [fits, decide_eq_true_eq, hsize] at hfits ⊢
  omega

/-! ## Joined names -/

/-- The path of what names lead to from where a path leads. -/
def joinAll (root : Path) (names : List String) : Path := names.foldl join root

theorem joinAll_concat (root : Path) (names : List String) (name : String) :
    joinAll root (names ++ [name]) = (joinAll root names).join name := by
  rw [joinAll, joinAll, List.foldl_append]
  rfl

/-- The segments of a joined path. -/
theorem segments_join {path : Path} {name : String} (hpath : path.text ≠ "") (hname : IsName name) :
    (path.join name).segments = path.base ++ [name] ∧
      (path.join name).isAbsolute = path.isAbsolute := by
  have hsplit := isSplit_join hpath hname.ne_empty hname.noSlash
  rw [join_eq hpath]
  exact ⟨hsplit.segments_eq, hsplit.isAbsolute⟩

theorem base_join {name : String} {path : Path} (hpath : path.text ≠ "") (hname : IsName name) :
    (path.join name).base = path.base ++ [name] := by
  obtain ⟨hsegments, -⟩ := segments_join hpath hname
  have htext := text_ne_empty hsegments hname.ne_empty
  have hslash : (path.join name).endsInSlash = false := by
    rw [← Bool.not_eq_true, endsInSlash_iff htext, hsegments, List.getLast?_concat]
    exact fun he ↦ hname.ne_empty (Option.some.inj he)
  rw [base, hslash, if_neg Bool.false_ne_true, hsegments]

theorem base_joinAll {names : List String} {path : Path} (hpath : path.text ≠ "")
    (hnames : ∀ name ∈ names, IsName name) :
    (joinAll path names).base = path.base ++ names ∧
      (joinAll path names).isAbsolute = path.isAbsolute ∧ (joinAll path names).text ≠ "" := by
  induction names generalizing path with
  | nil => exact ⟨(List.append_nil _).symm, rfl, hpath⟩
  | cons name names ih =>
    obtain ⟨hname, hnames⟩ := List.forall_mem_cons.mp hnames
    obtain ⟨hsegments, habsolute⟩ := segments_join hpath hname
    have htext := text_ne_empty hsegments hname.ne_empty
    obtain ⟨hbase, habsolute', htext'⟩ := ih htext hnames
    rw [base_join hpath hname, ← List.append_cons] at hbase
    exact ⟨hbase, habsolute'.trans habsolute, htext'⟩

end JPlusPlus.Path
