/-!
# Types and symbol tables

J++ has two types, and a symbol table gives each declared variable one of them. A table is kept as
the list of its entries, the newest first; two tables are the same when they give every name the
same type, whatever the order of their entries.
-/

namespace JPlusPlus

/-- The types of J++. -/
inductive Ty where
  /-- Numbers. -/
  | number
  /-- Strings. -/
  | string
  deriving DecidableEq, Repr

namespace Ty

/-- The name of a type in messages. -/
def name : Ty → String
  | number => "number"
  | string => "string"

/-- The name of a type in listings. -/
def label : Ty → String
  | number => "Number"
  | string => "String"

/-- Whether a type is that of numbers. -/
def isNumber : Ty → Bool
  | number => true
  | string => false

/-- Whether a type is that of strings. -/
def isString : Ty → Bool
  | number => false
  | string => true

/-- The type of a given name. -/
def ofName? (name : String) : Option Ty := [number, string].find? fun ty ↦ ty.name = name

end Ty

/-- The types of the declared variables. -/
structure SymbolTable where
  /-- The entries, the newest first; only the first entry of a name counts. -/
  entries : List (String × Ty)
  deriving Repr

namespace SymbolTable

/-- The table without variables. -/
def empty : SymbolTable := ⟨[]⟩

/-- The table that gives `name` the type `ty`, whatever it had before. -/
def insert (table : SymbolTable) (name : String) (ty : Ty) : SymbolTable :=
  ⟨(name, ty) :: table.entries⟩

/-- The type of a variable. -/
def lookup (table : SymbolTable) (name : String) : Option Ty := table.entries.lookup name

/-- Whether a variable is declared. -/
def contains (table : SymbolTable) (name : String) : Bool := (table.lookup name).isSome

/-- Whether no variable is declared. -/
def isEmpty (table : SymbolTable) : Bool := table.entries.isEmpty

/-- The declared variables. -/
def names (table : SymbolTable) : List String := table.entries.map Prod.fst

/-- Whether two tables give every name the same type. -/
def same (a b : SymbolTable) : Bool :=
  (a.names ++ b.names).all fun name ↦ a.lookup name = b.lookup name

/-! ## Look-up -/

@[simp]
theorem lookup_empty (name : String) : empty.lookup name = none := rfl

theorem lookup_insert (table : SymbolTable) (name x : String) (ty : Ty) :
    (table.insert name ty).lookup x = if x = name then some ty else table.lookup x := by
  by_cases h : x = name
  · simp [insert, lookup, h]
  · have other : (x == name) = false := beq_eq_false_iff_ne.2 h
    simp [insert, lookup, List.lookup_cons, h, other]

theorem lookup_eq_none_of_not_mem {table : SymbolTable} {name : String} (h : name ∉ table.names) :
    table.lookup name = none := by
  rw [lookup, List.lookup_eq_none_iff]
  intro entry member
  simp only [bne_iff_ne, ne_eq]
  rintro rfl
  exact h (List.mem_map_of_mem member)

/-- Two tables are the same when no look-up tells them apart. -/
theorem same_iff (a b : SymbolTable) : a.same b = true ↔ ∀ name, a.lookup name = b.lookup name := by
  constructor
  · intro h name
    by_cases member : name ∈ a.names ++ b.names
    · simpa using List.all_eq_true.1 h name member
    · rw [List.mem_append, not_or] at member
      rw [lookup_eq_none_of_not_mem member.1, lookup_eq_none_of_not_mem member.2]
  · intro h
    simp [same, h]

end SymbolTable

end JPlusPlus
