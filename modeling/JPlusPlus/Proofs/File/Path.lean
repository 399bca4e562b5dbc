import JPlusPlus.File.Path

/-!
# The texts of paths

A path is determined by whether it starts at the root and by its segments, so what is said about
paths can be said about segments. Here is how the two views go together, and what joining a name,
replacing an extension and taking the parent do to the segments.

A relative path whose first segment is empty would be read as one from the root, and a segment with
a slash as two; `IsSplit` leaves these out.
-/

namespace JPlusPlus.Path

/-! ## Taking texts apart at slashes -/

theorem intercalate_splitOn (separator : Char) (text : String) :
    (String.singleton separator).intercalate
      ((text.toList.splitOn separator).map String.ofList) = text := by
  have hid : String.toList ∘ String.ofList = id := funext fun _ ↦ String.toList_ofList
  apply String.toList_inj.mp
  rw [String.toList_intercalate, List.map_map, hid, List.map_id, String.toList_singleton]
  exact List.intercalate_splitOn separator

theorem intercalate_split (text : String) : "/".intercalate (split text) = text :=
  intercalate_splitOn '/' text

theorem split_intercalate {segments : List String} (hne : segments ≠ [])
    (h : ∀ segment ∈ segments, '/' ∉ segment.toList) :
    split ("/".intercalate segments) = segments := by
  have hid : String.ofList ∘ String.toList = id := funext fun _ ↦ String.ofList_toList
  have hlists : ∀ cs ∈ segments.map String.toList, '/' ∉ cs := by
    intro cs hcs
    obtain ⟨segment, hmem, rfl⟩ := List.mem_map.mp hcs
    exact h segment hmem
  have hsplit := List.splitOn_intercalate '/' hlists (by simpa using hne)
  rw [split, String.toList_intercalate, show "/".toList = ['/'] from rfl, hsplit, List.map_map, hid,
    List.map_id]

theorem split_ne_nil (text : String) : split text ≠ [] := by
  simp [split]

theorem not_mem_splitOn (c : Char) (cs : List Char) : ∀ part ∈ cs.splitOn c, c ∉ part := by
  induction cs with
  | nil => simp
  | cons d cs ih =>
    intro part hpart
    rw [List.splitOn_cons_eq_if_modifyHead] at hpart
    split at hpart
    · rcases List.mem_cons.mp hpart with rfl | hpart
      · exact List.not_mem_nil
      · exact ih part hpart
    · next hd =>
      have hne : c ≠ d := fun he ↦ hd (beq_iff_eq.mpr he.symm)
      obtain ⟨first, more, hsplit⟩ := List.exists_cons_of_ne_nil (List.splitOn_ne_nil c cs)
      rw [hsplit] at hpart ih
      rcases List.mem_cons.mp hpart with rfl | hpart
      · simpa [hne] using ih first List.mem_cons_self
      · exact ih part (List.mem_cons_of_mem first hpart)

theorem slash_not_mem_split {text segment : String} (h : segment ∈ split text) :
    '/' ∉ segment.toList := by
  obtain ⟨part, hpart, rfl⟩ := List.mem_map.mp h
  rw [String.toList_ofList]
  exact not_mem_splitOn '/' _ part hpart

/-! ## Segments and texts -/

/-- The segments are those of a path that has a text. -/
structure IsSplit (absolute : Bool) (segments : List String) : Prop where
  /-- There is a segment. -/
  ne_nil : segments ≠ []
  /-- What stands between slashes has none. -/
  noSlash : ∀ segment ∈ segments, '/' ∉ segment.toList
  /-- Only a path from the root starts with a slash. -/
  first : absolute = false → segments.head? ≠ some ""

theorem ofSegments_segments (path : Path) : ofSegments path.isAbsolute path.segments = path := by
  obtain ⟨text⟩ := path
  rw [ofSegments, segments]
  split
  · next h =>
    -- The slash that the path starts with is left out of the segments and put back.
    obtain ⟨rest, hrest⟩ : ∃ rest, text.toList = '/' :: rest := by
      rw [isAbsolute, decide_eq_true_eq, List.head?_eq_some_iff] at h
      exact h
    have htext : text = "/" ++ String.ofList rest := by
      apply String.toList_inj.mp
      simp [hrest]
    rw [intercalate_split, hrest, List.tail_cons, ← htext]
  · rw [intercalate_split, String.empty_append]

theorem segments_ne_nil (path : Path) : path.segments ≠ [] := by
  rw [segments]
  split <;> exact split_ne_nil _

theorem slash_not_mem_segments {path : Path} {segment : String} (h : segment ∈ path.segments) :
    '/' ∉ segment.toList := by
  rw [segments] at h
  split at h <;> exact slash_not_mem_split h

theorem isAbsolute_ofSegments {absolute : Bool} {segments : List String}
    (h : absolute = false → segments.head? ≠ some "")
    (hslash : ∀ segment ∈ segments, '/' ∉ segment.toList) :
    (ofSegments absolute segments).isAbsolute = absolute := by
  cases absolute with
  | true =>
    rw [isAbsolute, ofSegments, if_pos rfl, String.toList_append]
    rfl
  | false =>
    rw [isAbsolute, ofSegments, if_neg Bool.false_ne_true, String.empty_append,
      decide_eq_false_iff_not]
    intro hhead
    cases segments with
    | nil => simp at hhead
    | cons segment more =>
      -- The first character is that of the first segment, which is not empty and has no slash.
      have hne : segment.toList ≠ [] := by
        intro he
        exact h rfl (by rw [String.toList_eq_nil_iff.mp he]; rfl)
      obtain ⟨c, cs, hcs⟩ := List.exists_cons_of_ne_nil hne
      have hfirst : ("/".intercalate (segment :: more)).toList.head? = some c := by
        cases more with
        | nil => rw [String.intercalate_singleton, hcs, List.head?_cons]
        | cons next more =>
          rw [String.intercalate_cons_cons, String.toList_append, String.toList_append, hcs]
          rfl
      rw [hfirst] at hhead
      obtain rfl : c = '/' := Option.some.inj hhead
      exact hslash segment List.mem_cons_self (by rw [hcs]; exact List.mem_cons_self)

theorem IsSplit.isAbsolute {absolute : Bool} {segments : List String}
    (h : IsSplit absolute segments) : (ofSegments absolute segments).isAbsolute = absolute :=
  isAbsolute_ofSegments h.first h.noSlash

/-- The segments that a text is made of are the segments of the text. -/
theorem IsSplit.segments_eq {absolute : Bool} {segments : List String}
    (h : IsSplit absolute segments) : (ofSegments absolute segments).segments = segments := by
  rw [Path.segments, h.isAbsolute]
  cases absolute with
  | true =>
    have htail : (ofSegments true segments).text.toList.tail =
        ("/".intercalate segments).toList := by
      rw [ofSegments, if_pos rfl, String.toList_append]
      rfl
    rw [if_pos rfl, htail, String.ofList_toList, split_intercalate h.ne_nil h.noSlash]
  | false =>
    rw [if_neg Bool.false_ne_true, ofSegments, if_neg Bool.false_ne_true, String.empty_append,
      split_intercalate h.ne_nil h.noSlash]

theorem isSplit_segments {path : Path} (h : path.text ≠ "") :
    IsSplit path.isAbsolute path.segments where
  ne_nil := path.segments_ne_nil
  noSlash _ := slash_not_mem_segments
  first hrel hhead := by
    have htext := congrArg Path.text (ofSegments_segments path)
    obtain ⟨more, hmore⟩ := List.head?_eq_some_iff.mp hhead
    rw [hmore, hrel, ofSegments, if_neg Bool.false_ne_true, String.empty_append] at htext
    cases more with
    | nil => exact h (by rw [← htext, String.intercalate_singleton])
    | cons next more =>
      rw [String.intercalate_cons_cons, String.empty_append] at htext
      simp [isAbsolute, ← htext] at hrel

/-! ## The last segment -/

theorem text_ofSegments_concat {segments : List String} (hne : segments ≠ []) (absolute : Bool)
    (segment : String) :
    (ofSegments absolute (segments ++ [segment])).text =
      (ofSegments absolute segments).text ++ "/" ++ segment := by
  simp only [ofSegments]
  rw [String.intercalate_append_of_ne_nil hne (List.cons_ne_nil _ _), String.intercalate_singleton]
  simp only [String.append_assoc]

/-- What is added to the last segment is added to the text. -/
theorem text_ofSegments_append (absolute : Bool) (segments : List String) (a b : String) :
    (ofSegments absolute (segments ++ [a ++ b])).text =
      (ofSegments absolute (segments ++ [a])).text ++ b := by
  cases segments with
  | nil =>
    simp only [ofSegments, List.nil_append, String.intercalate_singleton, String.append_assoc]
  | cons first more =>
    rw [text_ofSegments_concat (List.cons_ne_nil _ _),
      text_ofSegments_concat (List.cons_ne_nil _ _)]
    simp only [String.append_assoc]

theorem exists_segments_concat (path : Path) :
    ∃ segments segment, path.segments = segments ++ [segment] :=
  ⟨_, _, (List.dropLast_concat_getLast path.segments_ne_nil).symm⟩

/-- The text of a path ends in a slash when the last segment is empty. -/
theorem endsInSlash_iff {path : Path} (h : path.text ≠ "") :
    path.endsInSlash = true ↔ path.segments.getLast? = some "" := by
  obtain ⟨segments, segment, hsegments⟩ := path.exists_segments_concat
  have htext : (ofSegments path.isAbsolute (segments ++ [segment])).text = path.text := by
    rw [← hsegments, ofSegments_segments]
  rw [endsInSlash, decide_eq_true_eq, hsegments, List.getLast?_concat, Option.some.injEq]
  by_cases hempty : segment = ""
  · subst hempty
    refine iff_of_true ?_ rfl
    rw [← htext]
    cases segments with
    | nil =>
      -- The only segment is empty, so the text is the slash that a path from the root starts with.
      rw [ofSegments, List.nil_append, String.intercalate_singleton, String.append_empty] at htext ⊢
      split at htext
      · next hroot => rw [if_pos hroot]; rfl
      · exact absurd htext.symm h
    | cons first more =>
      rw [text_ofSegments_concat (List.cons_ne_nil _ _), String.append_empty, String.toList_append]
      exact List.getLast?_concat
  · refine iff_of_false ?_ hempty
    have hne : segment.toList ≠ [] := fun he ↦ hempty (String.toList_eq_nil_iff.mp he)
    have hlast : path.text.toList.getLast? = segment.toList.getLast? := by
      have hsplit := text_ofSegments_append path.isAbsolute segments "" segment
      rw [String.empty_append, htext] at hsplit
      rw [hsplit, String.toList_append, List.getLast?_append, List.getLast?_eq_some_getLast hne]
      rfl
    rw [hlast]
    intro hslash
    have hmem : segment ∈ path.segments := by simp [hsegments]
    exact slash_not_mem_segments hmem (List.mem_of_getLast? hslash)

theorem dropSlashes_eq_self {segments : List String} (h : segments.getLast? ≠ some "") :
    dropSlashes segments = segments := by
  induction segments with
  | nil => rfl
  | cons segment more ih =>
    cases more with
    | nil =>
      have hne : segment ≠ "" := fun he ↦ h (by rw [he]; rfl)
      rw [dropSlashes, dropSlashes]
      exact if_neg hne
    | cons next more =>
      rw [List.getLast?_cons_cons] at h
      rw [dropSlashes, ih h]

/-! ## Joining a name -/

/-- The segments of a path without the empty one that a slash at its end leaves. -/
def base (path : Path) : List String :=
  if path.endsInSlash then path.segments.dropLast else path.segments

theorem join_eq {path : Path} (h : path.text ≠ "") (name : String) :
    path.join name = ofSegments path.isAbsolute (path.base ++ [name]) := by
  obtain ⟨segments, segment, hsegments⟩ := path.exists_segments_concat
  have htext : (ofSegments path.isAbsolute (segments ++ [segment])).text = path.text := by
    rw [← hsegments, ofSegments_segments]
  rw [join, base]
  split
  · next hslash =>
    rw [endsInSlash_iff h, hsegments, List.getLast?_concat] at hslash
    obtain rfl : segment = "" := Option.some.inj hslash
    have hname := text_ofSegments_append path.isAbsolute segments "" name
    rw [String.empty_append, htext] at hname
    rw [hsegments, List.dropLast_concat]
    exact congrArg Path.mk hname.symm
  · have hname := text_ofSegments_concat path.segments_ne_nil path.isAbsolute name
    rw [ofSegments_segments] at hname
    exact congrArg Path.mk hname.symm

theorem isSplit_join {path : Path} (h : path.text ≠ "") {name : String} (hname : name ≠ "")
    (hslash : '/' ∉ name.toList) : IsSplit path.isAbsolute (path.base ++ [name]) := by
  have hpath := isSplit_segments h
  have hstart : path.base <+: path.segments := by
    rw [base]
    split
    · exact List.dropLast_prefix _
    · exact List.prefix_refl _
  refine ⟨by simp, ?_, ?_⟩
  · intro segment hsegment
    rcases List.mem_append.mp hsegment with hsegment | hsegment
    · exact hpath.noSlash segment (hstart.subset hsegment)
    · rwa [List.mem_singleton.mp hsegment]
  · intro hrel hhead
    cases hbase : path.base with
    | nil => exact hname (by simpa [hbase] using hhead)
    | cons first more =>
      obtain ⟨rest, hrest⟩ := hstart
      refine hpath.first hrel ?_
      rw [← hrest, hbase]
      simpa [hbase] using hhead

end JPlusPlus.Path
