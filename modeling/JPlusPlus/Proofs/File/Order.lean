import JPlusPlus.File.Tree
import JPlusPlus.Proofs.Token.Units
import Mathlib.Data.List.Lex
import Mathlib.Order.Compare

/-!
# The order of a walk

A walk is depth first: what is below an entry comes right after it, and the entries of a directory
come in the byte order of their names. Read off the names that lead to them, that is the
lexicographic order of lists of names, with names compared by their bytes (`Location.Precedes`). It
is not the order of the paths as texts, because a slash is not less than every other byte.

Names are compared by their characters in `FileTree.compareNames`. UTF-8 keeps the order: of two
different characters the greater one has the greater byte where their bytes first differ.

## Main statements

* `Utf8.lex_bytes_iff`: texts are in the same order by their bytes and by their characters.
* `FileTree.compareLocations_eq_lt`: locations are compared by `Location.Precedes`.
-/

namespace JPlusPlus

/-! ## Lexicographic comparison -/

theorem compareLex_eq_lt_iff {α : Type} {cmp : α → α → Ordering} [Std.LawfulEqCmp cmp]
    {as bs : List α} :
    List.compareLex cmp as bs = .lt ↔ List.Lex (fun a b ↦ cmp a b = .lt) as bs := by
  induction as generalizing bs with
  | nil =>
    rcases bs with _ | ⟨b, bs⟩
    · exact iff_of_false nofun nofun
    · exact iff_of_true rfl .nil
  | cons a as ih =>
    rcases bs with _ | ⟨b, bs⟩
    · exact iff_of_false nofun nofun
    · rw [List.compareLex_cons_cons, Ordering.then_eq_lt, ih, Std.LawfulEqCmp.compare_eq_iff_eq]
      constructor
      · rintro (hlt | ⟨rfl, hlex⟩)
        · exact .rel hlt
        · exact .cons hlex
      · intro hlex
        cases hlex with
        | rel hlt => exact .inl hlt
        | cons hlex => exact .inr ⟨rfl, hlex⟩

/-! ## Lists in strict order -/

/-- Sorting by keys that are all different puts them in strict order. -/
theorem pairwise_mergeSort_of_nodup {α β : Type} {cmp : β → β → Ordering} [Std.TransCmp cmp]
    [Std.LawfulEqCmp cmp] (key : α → β) {as : List α} (h : (as.map key).Nodup) :
    (as.mergeSort fun a b ↦ (cmp (key a) (key b)).isLE).Pairwise fun a b ↦
      cmp (key a) (key b) = .lt := by
  have hsorted : (as.mergeSort fun a b ↦ (cmp (key a) (key b)).isLE).Pairwise fun a b ↦
      (cmp (key a) (key b)).isLE = true := by
    apply List.pairwise_mergeSort
    · intro a b c hab hbc
      exact Std.TransCmp.isLE_trans hab hbc
    · intro a b
      have hswap : cmp (key b) (key a) = (cmp (key a) (key b)).swap := Std.OrientedCmp.eq_swap
      rw [hswap]
      cases cmp (key a) (key b) <;> rfl
  have hdistinct : (as.mergeSort fun a b ↦ (cmp (key a) (key b)).isLE).Pairwise fun a b ↦
      key a ≠ key b :=
    ((List.mergeSort_perm as _).pairwise_iff fun hab ↦ hab.symm).mpr (List.pairwise_map.mp h)
  refine (hsorted.and hdistinct).imp fun ⟨hle, hne⟩ ↦ ?_
  rcases Ordering.isLE_iff_eq_lt_or_eq_eq.mp hle with hlt | heq
  · exact hlt
  · exact absurd (Std.LawfulEqCmp.eq_of_compare heq) hne

/-- A list in strict order is determined by what is in it. -/
theorem eq_of_pairwise_of_asymm {α : Type} {r : α → α → Prop} (hasymm : ∀ a b, r a b → ¬r b a)
    {as bs : List α} (ha : as.Pairwise r) (hb : bs.Pairwise r) (h : ∀ a, a ∈ as ↔ a ∈ bs) :
    as = bs := by
  have hne {a b : α} (hab : r a b) : a ≠ b := by
    rintro rfl
    exact hasymm a a hab hab
  have hperm : as.Perm bs := (List.perm_ext_iff_of_nodup (ha.imp hne) (hb.imp hne)).mpr h
  exact hperm.eq_of_pairwise (fun a b _ _ hab hba ↦ absurd hba (hasymm a b hab)) ha hb

/-! ## Bytes and characters -/

namespace Utf8

/-- Bytes are compared by the first that differ. -/
theorem lex_ofNat_cons {a b : Nat} {as bs : List UInt8} (hle : a ≤ b) (hb : b < 256)
    (h : a = b → List.Lex (· < ·) as bs) :
    List.Lex (· < ·) (UInt8.ofNat a :: as) (UInt8.ofNat b :: bs) := by
  rcases Nat.lt_or_eq_of_le hle with hlt | rfl
  · exact .rel ((UInt8.ofNat_lt_iff_lt (Nat.lt_trans hlt hb) hb).mpr hlt)
  · exact .cons (h rfl)

theorem toNat_lt (c : Char) : c.toNat < 0x110000 := by
  have hvalid : c.val.toNat.isValidChar := c.valid
  rw [Nat.isValidChar] at hvalid
  show c.val.toNat < _
  omega

/-- A greater character has greater bytes. -/
theorem lex_utf8EncodeChar {c d : Char} (h : c.toNat < d.toNat) (as bs : List UInt8) :
    List.Lex (· < ·) (String.utf8EncodeChar c ++ as) (String.utf8EncodeChar d ++ bs) := by
  have hc : c.val.toNat < d.val.toNat := h
  have hd : d.val.toNat < 0x110000 := toNat_lt d
  -- The first byte tells how many there are; after it, the bytes are digits to the base 64.
  rw [String.utf8EncodeChar, String.utf8EncodeChar]
  repeat' split
  all_goals try omega
  · exact lex_ofNat_cons (by omega) (by omega) (by omega)
  · exact lex_ofNat_cons (by omega) (by omega) (by omega)
  · exact lex_ofNat_cons (by omega) (by omega) (by omega)
  · exact lex_ofNat_cons (by omega) (by omega) (by omega)
  · refine lex_ofNat_cons (by omega) (by omega) fun _ ↦ ?_
    exact lex_ofNat_cons (by omega) (by omega) (by omega)
  · exact lex_ofNat_cons (by omega) (by omega) (by omega)
  · exact lex_ofNat_cons (by omega) (by omega) (by omega)
  · refine lex_ofNat_cons (by omega) (by omega) fun _ ↦ ?_
    refine lex_ofNat_cons (by omega) (by omega) fun _ ↦ ?_
    exact lex_ofNat_cons (by omega) (by omega) (by omega)
  · exact lex_ofNat_cons (by omega) (by omega) (by omega)
  · refine lex_ofNat_cons (by omega) (by omega) fun _ ↦ ?_
    refine lex_ofNat_cons (by omega) (by omega) fun _ ↦ ?_
    refine lex_ofNat_cons (by omega) (by omega) fun _ ↦ ?_
    exact lex_ofNat_cons (by omega) (by omega) (by omega)

/-- Texts that are in order by their characters are so by their bytes. -/
theorem lex_encode {cs ds : List Char} (h : List.Lex (fun c d ↦ c.toNat < d.toNat) cs ds) :
    List.Lex (· < ·) (encode cs) (encode ds) := by
  induction h with
  | @nil d ds =>
    obtain ⟨b, bs, hb⟩ := List.exists_cons_of_ne_nil (@String.utf8EncodeChar_ne_nil d)
    rw [encode_nil, encode_cons, hb]
    exact .nil
  | rel h => exact lex_utf8EncodeChar h _ _
  | cons _ ih => exact List.Lex.append_left _ ih _

/-- Texts are in the same order by their bytes and by their characters. -/
theorem lex_bytes_iff {a b : String} :
    List.Lex (· < ·) (bytes a) (bytes b) ↔
      List.Lex (fun c d ↦ c.toNat < d.toNat) a.toList b.toList := by
  rw [bytes_eq_encode, bytes_eq_encode]
  refine ⟨fun h ↦ ?_, lex_encode⟩
  -- The order by characters is total, and what it says about the other cases would not go with `h`.
  refine Classical.byContradiction fun hnot ↦ ?_
  by_cases hback : List.Lex (fun c d ↦ c.toNat < d.toNat) b.toList a.toList
  · exact List.lex_asymm (fun hlt ↦ UInt8.lt_asymm hlt) h (lex_encode hback)
  · have heq : a.toList = b.toList :=
      List.lex_trichotomous (fun c d hcd hdc ↦ Char.toNat_inj.mp (by omega)) hback hnot
    rw [heq] at h
    exact List.lex_irrefl UInt8.lt_irrefl _ h

end Utf8

/-! ## Locations -/

/-- One entry comes before another in a walk: they are told apart by the first name that differs, in
byte order, and an entry comes before what is below it. -/
def Location.Precedes (a b : Location) : Prop :=
  List.Lex (fun x y ↦ List.Lex (· < ·) (Utf8.bytes x) (Utf8.bytes y)) a b

namespace FileTree

/-- The order of locations: by their names from the left. -/
def compareLocations (a b : Location) : Ordering := List.compareLex compareNames a b

/-- The order of characters by their numbers. -/
def compareChars (c d : Char) : Ordering := compareOfLessAndEq c.toNat d.toNat

instance : Std.TransCmp compareChars := inferInstanceAs (Std.TransCmp (compareOn Char.toNat))

instance : Std.LawfulEqCmp compareChars where
  compare_self := Std.ReflCmp.compare_self
  eq_of_compare h := Char.toNat_inj.mp (Std.LawfulEqOrd.eq_of_compare h)

theorem compareNames_eq (a b : String) :
    compareNames a b = List.compareLex compareChars a.toList b.toList := rfl

instance : Std.TransCmp compareNames where
  eq_swap {a b} := by
    rw [compareNames_eq, compareNames_eq]
    exact Std.OrientedCmp.eq_swap
  isLE_trans {a b c} := by
    rw [compareNames_eq, compareNames_eq, compareNames_eq]
    exact Std.TransCmp.isLE_trans

instance : Std.LawfulEqCmp compareNames where
  compare_self {a} := by
    rw [compareNames_eq]
    exact Std.ReflCmp.compare_self
  eq_of_compare {a b} h := by
    rw [compareNames_eq] at h
    exact String.toList_inj.mp (Std.LawfulEqCmp.eq_of_compare h)

instance : Std.TransCmp compareLocations :=
  inferInstanceAs (Std.TransCmp (List.compareLex compareNames))

instance : Std.LawfulEqCmp compareLocations :=
  inferInstanceAs (Std.LawfulEqCmp (List.compareLex compareNames))

theorem compareNames_eq_lt {a b : String} :
    compareNames a b = .lt ↔ List.Lex (· < ·) (Utf8.bytes a) (Utf8.bytes b) := by
  have hchars (c d : Char) : compareChars c d = .lt ↔ c.toNat < d.toNat := compareOfLessAndEq_eq_lt
  rw [compareNames_eq, compareLex_eq_lt_iff, Utf8.lex_bytes_iff]
  simp only [hchars]

/-- The comparison of locations is the order of a walk. -/
theorem compareLocations_eq_lt {a b : Location} :
    compareLocations a b = .lt ↔ Location.Precedes a b := by
  rw [compareLocations, compareLex_eq_lt_iff, Location.Precedes]
  simp only [compareNames_eq_lt]

end FileTree

namespace Location

open FileTree (compareLocations compareLocations_eq_lt compareNames compareNames_eq_lt)

theorem not_precedes_self (a : Location) : ¬Precedes a a := by
  have hself : compareLocations a a = .eq := Std.ReflCmp.compare_self
  rw [← compareLocations_eq_lt, hself]
  exact nofun

theorem Precedes.trans {a b c : Location} (h : Precedes a b) (h' : Precedes b c) :
    Precedes a c := by
  rw [← compareLocations_eq_lt] at *
  exact Std.TransCmp.lt_trans h h'

theorem Precedes.asymm {a b : Location} (h : Precedes a b) : ¬Precedes b a :=
  fun h' ↦ not_precedes_self a (h.trans h')

/-- What is below a location comes after it. -/
theorem precedes_below (location : Location) (name : String) (further : Location) :
    Precedes location (location ++ name :: further) := by
  have hnil : Precedes [] (name :: further) := .nil
  have hlex := List.Lex.append_left _ hnil location
  rwa [List.append_nil] at hlex

/-- What is at and below an entry comes before what is at and below a later one. -/
theorem precedes_beside {a b : String} (h : compareNames a b = .lt)
    (location further further' : Location) :
    Precedes (location ++ a :: further) (location ++ b :: further') := by
  have hfirst : Precedes (a :: further) (b :: further') := .rel (compareNames_eq_lt.mp h)
  exact List.Lex.append_left _ hfirst location

/-- A list in the order of a walk is determined by what is in it. -/
theorem eq_of_pairwise_precedes {as bs : List Location} (ha : as.Pairwise Precedes)
    (hb : bs.Pairwise Precedes) (h : ∀ l, l ∈ as ↔ l ∈ bs) : as = bs :=
  eq_of_pairwise_of_asymm (fun _ _ hab ↦ hab.asymm) ha hb h

end Location

end JPlusPlus
