import JPlusPlus.Proofs.Typing.Declared

/-!
# What a check records

A check that goes through leaves the table it started from with one more entry for each declaration
outside of counting loops, and with no others. The entry has the type that the first value has where
the declaration stands, under the table with which the check comes to it; so declarations are listed
here together with that table.

No name is recorded twice, and none that was in the table: the check refuses such a declaration. A
table only grows on the way, so it is enough to compare each declaration with what was recorded
before it.

## Main statements

* `Records.trans`: what two checks record, one after the other.
* `Stmt.records_checkAll`: a check that goes through records the declarations of its statements.
-/

namespace JPlusPlus

/-! ## Declarations and the tables they are checked with -/

/-- A declaration, and the table with which the check comes to it. -/
structure Declaration where
  /-- The table. -/
  table : SymbolTable
  /-- The variable. -/
  name : String
  /-- Its first value, if it is given one. -/
  value : Option Expr

/-- The declaration gives its variable the type. -/
def Declaration.Gives (d : Declaration) (ty : Ty) : Prop := FirstType d.table ty d.value

mutual

/-- The declarations of a statement that hold on after it, where the check comes to the statement
with the given table. The body of a counting loop keeps its own. -/
def Stmt.declarations (table : SymbolTable) : Stmt → List Declaration
  | .declare name value => [⟨table, name, value⟩]
  | .branch _ body orElse =>
    Stmt.declarationsAll table body ++
      orElse.declarations (Checker.leaves (Stmt.checkAll body) table)
  | .whileLoop _ body => Stmt.declarationsAll table body
  | .assign _ _ | .print _ | .forLoop _ _ _ _ | .break | .continue => []

/-- The declarations of statements that hold on after them. -/
def Stmt.declarationsAll (table : SymbolTable) : List Stmt → List Declaration
  | [] => []
  | stmt :: more =>
    stmt.declarations table ++ Stmt.declarationsAll (Checker.leaves stmt.check table) more

/-- The declarations of the branches of a conditional that hold on after it. -/
def ElseChain.declarations (table : SymbolTable) : ElseChain → List Declaration
  | .nothing => []
  | .otherwise body => Stmt.declarationsAll table body
  | .elseIf _ body orElse =>
    Stmt.declarationsAll table body ++
      orElse.declarations (Checker.leaves (Stmt.checkAll body) table)

end

mutual

/-- The declarations of a statement are those of the variables that it declares. -/
theorem Stmt.map_name_declarations (table : SymbolTable) : ∀ s : Stmt,
    (s.declarations table).map Declaration.name = s.declared
  | .declare x value => by simp only [Stmt.declarations, Stmt.declared, List.map]
  | .branch c body orElse => by
    simp only [Stmt.declarations, Stmt.declared, List.map_append,
      Stmt.map_name_declarationsAll _ body, ElseChain.map_name_declarations _ orElse]
  | .whileLoop c body => by
    simp only [Stmt.declarations, Stmt.declared, Stmt.map_name_declarationsAll _ body]
  | .assign _ _ | .print _ | .forLoop _ _ _ _ | .break | .continue => by
    simp only [Stmt.declarations, Stmt.declared, List.map_nil]

theorem Stmt.map_name_declarationsAll (table : SymbolTable) : ∀ body : List Stmt,
    (Stmt.declarationsAll table body).map Declaration.name = Stmt.declaredAll body
  | [] => by simp only [Stmt.declarationsAll, Stmt.declaredAll, List.map_nil]
  | s :: more => by
    simp only [Stmt.declarationsAll, Stmt.declaredAll, List.map_append,
      Stmt.map_name_declarations _ s, Stmt.map_name_declarationsAll _ more]

theorem ElseChain.map_name_declarations (table : SymbolTable) : ∀ chain : ElseChain,
    (chain.declarations table).map Declaration.name = chain.declared
  | .nothing => by simp only [ElseChain.declarations, ElseChain.declared, List.map_nil]
  | .otherwise body => by
    simp only [ElseChain.declarations, ElseChain.declared, Stmt.map_name_declarationsAll _ body]
  | .elseIf c body orElse => by
    simp only [ElseChain.declarations, ElseChain.declared, List.map_append,
      Stmt.map_name_declarationsAll _ body, ElseChain.map_name_declarations _ orElse]

end

/-! ## Tables with the entries of declarations -/

/-- The second table has the entries of the first one and those of the declarations, which are of
names that differ from each other and from those of the first table. -/
structure Records (table table' : SymbolTable) (ds : List Declaration) : Prop where
  /-- No name is declared twice. -/
  nodup : (ds.map Declaration.name).Nodup
  /-- No name was declared before. -/
  fresh : ∀ d ∈ ds, table.lookup d.name = none
  /-- The entries that were there before stay. -/
  keeps : table ≤ table'
  /-- Each declaration gives its variable a type, which is the one that is recorded. -/
  typed : ∀ d ∈ ds, ∃ ty, d.Gives ty ∧ table'.lookup d.name = some ty
  /-- There are no other entries. -/
  adds : ∀ {x ty}, table'.lookup x = some ty → table.lookup x = some ty ∨ ∃ d ∈ ds, d.name = x

variable {table table₁ table₂ table₃ table' : SymbolTable} {ds es : List Declaration}

theorem Records.refl (table : SymbolTable) : Records table table [] where
  nodup := List.nodup_nil
  fresh := nofun
  keeps := table.le_refl
  typed := nofun
  adds := .inl

theorem Records.lookup_eq_none (h : Records table₁ table₂ ds) {x : String}
    (hx : table₂.lookup x = none) : table₁.lookup x = none := by
  cases hlookup : table₁.lookup x with
  | none => rfl
  | some ty => exact absurd ((h.keeps hlookup).symm.trans hx) nofun

/-- What two checks record, one after the other. -/
theorem Records.trans (h : Records table₁ table₂ ds) (h' : Records table₂ table₃ es) :
    Records table₁ table₃ (ds ++ es) where
  nodup := by
    rw [List.map_append, List.nodup_append]
    refine ⟨h.nodup, h'.nodup, ?_⟩
    -- A name of the first declarations is in the table that the second ones are checked with.
    intro x hx y hy hxy
    obtain ⟨d, hd, rfl⟩ := List.mem_map.mp hx
    obtain ⟨e, he, rfl⟩ := List.mem_map.mp hy
    obtain ⟨ty, -, hty⟩ := h.typed d hd
    have hnone := h'.fresh e he
    rw [← hxy, hty] at hnone
    exact nomatch hnone
  fresh := by
    intro d hd
    rcases List.mem_append.mp hd with hd | hd
    · exact h.fresh d hd
    · exact h.lookup_eq_none (h'.fresh d hd)
  keeps := SymbolTable.le_trans h.keeps h'.keeps
  typed := by
    intro d hd
    rcases List.mem_append.mp hd with hd | hd
    · obtain ⟨ty, hgives, hty⟩ := h.typed d hd
      exact ⟨ty, hgives, h'.keeps hty⟩
    · exact h'.typed d hd
  adds := by
    intro x ty hx
    rcases h'.adds hx with hx | ⟨d, hd, hname⟩
    · rcases h.adds hx with hx | ⟨d, hd, hname⟩
      · exact .inl hx
      · exact .inr ⟨d, List.mem_append_left es hd, hname⟩
    · exact .inr ⟨d, List.mem_append_right ds hd, hname⟩

/-- A declaration that is accepted records itself. -/
theorem Records.insert {d : Declaration} {ty : Ty} (hty : d.Gives ty)
    (hfresh : d.table.contains d.name = false) :
    Records d.table (d.table.insert d.name ty) [d] where
  nodup := List.nodup_cons.mpr ⟨List.not_mem_nil, List.nodup_nil⟩
  fresh := by
    intro e he
    rw [List.mem_singleton.mp he]
    simpa [SymbolTable.contains] using hfresh
  keeps := (Extends.insert hfresh ty).keeps
  typed := by
    intro e he
    rw [List.mem_singleton.mp he]
    exact ⟨ty, hty, by rw [SymbolTable.lookup_insert, if_pos rfl]⟩
  adds := by
    intro x ty' hx
    rcases (Extends.insert hfresh ty).adds hx with hx | hx
    · exact .inl hx
    · exact .inr ⟨d, List.mem_singleton_self d, (List.mem_singleton.mp hx).symm⟩

theorem Records.contains_iff (h : Records table table' ds) (x : String) :
    table'.contains x = true ↔ table.contains x = true ∨ x ∈ ds.map Declaration.name := by
  rw [SymbolTable.contains, SymbolTable.contains, Option.isSome_iff_exists,
    Option.isSome_iff_exists]
  constructor
  · rintro ⟨ty, hx⟩
    rcases h.adds hx with hx | ⟨d, hd, hname⟩
    · exact .inl ⟨ty, hx⟩
    · exact .inr (List.mem_map.mpr ⟨d, hd, hname⟩)
  · rintro (⟨ty, hx⟩ | hx)
    · exact ⟨ty, h.keeps hx⟩
    · obtain ⟨d, hd, rfl⟩ := List.mem_map.mp hx
      obtain ⟨ty, -, hty⟩ := h.typed d hd
      exact ⟨ty, hty⟩

/-! ## Statements -/

mutual

/-- A statement that is accepted records its declarations. -/
theorem Stmt.records_check : ∀ (s : Stmt) {table table' : SymbolTable},
    s.check table = .ok () table' → Records table table' (s.declarations table)
  | .declare x value, table, table', h => by
    rw [Stmt.check] at h
    obtain ⟨ty, hty, hfresh, rfl⟩ := Checker.declare_eq_ok.mp h
    rw [Stmt.declarations]
    exact .insert (d := ⟨table, x, value⟩) hty hfresh
  | .assign x e, table, table', h => by
    rw [Stmt.check] at h
    obtain ⟨-, rfl⟩ := Checker.assign_eq_ok.mp h
    rw [Stmt.declarations]
    exact .refl table'
  | .print e, table, table', h => by
    obtain ⟨-, rfl⟩ := Stmt.check_print_eq_ok.mp h
    rw [Stmt.declarations]
    exact .refl table'
  | .branch c body orElse, table, table', h => by
    obtain ⟨-, table₁, hbody, horElse⟩ := Stmt.check_branch_eq_ok.mp h
    rw [Stmt.declarations, Checker.leaves_of_ok hbody]
    exact (Stmt.records_checkAll body hbody).trans (ElseChain.records_check orElse horElse)
  | .whileLoop c body, table, table', h => by
    obtain ⟨-, hbody⟩ := Stmt.check_whileLoop_eq_ok.mp h
    rw [Stmt.declarations]
    exact Stmt.records_checkAll body hbody
  | .forLoop x start stop body, table, table', h => by
    obtain ⟨-, rfl⟩ := Stmt.check_forLoop_eq_ok.mp h
    rw [Stmt.declarations]
    exact .refl table'
  | .break, table, table', h | .continue, table, table', h => by
    rw [Stmt.check] at h
    cases h
    rw [Stmt.declarations]
    exact .refl table

theorem Stmt.records_checkAll : ∀ (body : List Stmt) {table table' : SymbolTable},
    Stmt.checkAll body table = .ok () table' →
      Records table table' (Stmt.declarationsAll table body)
  | [], table, table', h => by
    rw [Stmt.checkAll] at h
    cases h
    rw [Stmt.declarationsAll]
    exact .refl table
  | s :: more, table, table', h => by
    rw [Stmt.checkAll, Checker.seq_eq_ok] at h
    obtain ⟨table₁, hs, hmore⟩ := h
    rw [Stmt.declarationsAll, Checker.leaves_of_ok hs]
    exact (Stmt.records_check s hs).trans (Stmt.records_checkAll more hmore)

theorem ElseChain.records_check : ∀ (chain : ElseChain) {table table' : SymbolTable},
    chain.check table = .ok () table' → Records table table' (chain.declarations table)
  | .nothing, table, table', h => by
    rw [ElseChain.check] at h
    cases h
    rw [ElseChain.declarations]
    exact .refl table
  | .otherwise body, table, table', h => by
    rw [ElseChain.check] at h
    rw [ElseChain.declarations]
    exact Stmt.records_checkAll body h
  | .elseIf c body orElse, table, table', h => by
    obtain ⟨-, table₁, hbody, horElse⟩ := ElseChain.check_elseIf_eq_ok.mp h
    rw [ElseChain.declarations, Checker.leaves_of_ok hbody]
    exact (Stmt.records_checkAll body hbody).trans (ElseChain.records_check orElse horElse)

end

/-- A counting loop leaves the table as it was, whatever its check comes to. -/
theorem Stmt.leaves_check_forLoop (x : String) (start stop : Expr) (body : List Stmt)
    (table : SymbolTable) :
    Checker.leaves (Stmt.forLoop x start stop body).check table = table := by
  rw [Stmt.check, Checker.leaves_isolated]

/-- **What a check leaves in the table.** Whether it goes through or not, every entry that was there
stays, and a new one is of a name that is declared outside of counting loops. When it goes through,
the new names are exactly those, they differ from each other and from the old ones, and each has the
type of its first value under the table with which the check comes to the declaration, or is a
number if it has none. A counting loop never changes the table. -/
theorem Stmt.leaves_checkAll (body : List Stmt) (table : SymbolTable) :
    Extends table (Checker.leaves (Stmt.checkAll body) table) (Stmt.declaredAll body) ∧
      (∀ table', Stmt.checkAll body table = .ok () table' →
        (Stmt.declaredAll body).Nodup ∧
        (∀ x ∈ Stmt.declaredAll body, table.contains x = false) ∧
        (∀ x, table'.contains x = true ↔ table.contains x = true ∨ x ∈ Stmt.declaredAll body) ∧
        (Stmt.declarationsAll table body).map Declaration.name = Stmt.declaredAll body ∧
        ∀ d ∈ Stmt.declarationsAll table body, ∃ ty, d.Gives ty ∧
          table'.lookup d.name = some ty) ∧
      ∀ counter start stop inner,
        Checker.leaves (Stmt.forLoop counter start stop inner).check table = table := by
  refine ⟨Stmt.grows_checkAll body table, ?_, fun counter start stop inner ↦
    Stmt.leaves_check_forLoop counter start stop inner table⟩
  intro table' h
  have hrecords := Stmt.records_checkAll body h
  have hnames := Stmt.map_name_declarationsAll table body
  rw [← hnames]
  refine ⟨hrecords.nodup, ?_, hrecords.contains_iff, rfl, hrecords.typed⟩
  intro x hx
  obtain ⟨d, hd, rfl⟩ := List.mem_map.mp hx
  rw [SymbolTable.contains, hrecords.fresh d hd, Option.isSome_none]

/-- A string `i` that a loop hides, a variable that is declared in one branch and used in another,
and one that stays in the loop. -/
theorem Stmt.leaves_checkAll_hidden :
    let table := SymbolTable.empty.insert "i" .string
    let body : List Stmt := [
      .declare "a" (some (.concat (.ident "i") (.string "x"))),
      .branch ⟨.ident "a", .eq, .ident "i"⟩ [.declare "b" none]
        (.otherwise [.declare "c" (some (.ident "b"))]),
      .forLoop "i" (.number "0") (.ident "b") [.declare "d" (some (.ident "i"))]]
    ∃ table', Stmt.checkAll body table = .ok () table' ∧
      (∀ x, table'.contains x = true ↔ table.contains x = true ∨ x ∈ ["a", "b", "c"]) ∧
      ∀ d ∈ Stmt.declarationsAll table body, ∃ ty, d.Gives ty ∧
        table'.lookup d.name = some ty := by
  intro table body
  have hcheck : Stmt.checkAll body table =
      .ok () (((table.insert "a" .string).insert "b" .number).insert "c" .number) := rfl
  obtain ⟨-, hok, -⟩ := Stmt.leaves_checkAll body table
  obtain ⟨-, -, hnames, -, htypes⟩ := hok _ hcheck
  exact ⟨_, hcheck, hnames, htypes⟩

end JPlusPlus
