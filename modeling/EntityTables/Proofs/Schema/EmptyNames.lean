import EntityTables.Proofs.Schema.ColumnNames
import EntityTables.Proofs.Text.SnakeCase
import EntityTables.Proofs.Unit.Names

/-!
# Empty names

An empty name in a marker counts as none, and the name is made from an identifier then. Nothing is
left of an identifier without a letter, so a declaration or property that is called by underscores
alone gets an empty name. References are safe from that, since the name of the key follows theirs.

A catalog or schema counts as it is given, even if it is empty: the first place that gives one
decides, be it the marker of the table, that of the unit or the options.
-/

namespace EntityTables.Text

open EntityTables.Syntax
open EntityTables.Call (isRaw withoutRaw)

/-! ### Identifiers without a letter -/

section Blank

variable {c : Char} {name : String}

/-- The only separator in identifiers is the underscore. -/
theorem isSeparator_iff_of_isIdentContinue (hpart : isIdentContinue c = true) :
    isSeparator c = true ↔ c = '_' := by
  cases hwide : isWide c with
  | true =>
      have hspace : isSpace c = false := by
        rw [Bool.eq_false_iff]
        intro hspace
        rw [isSpace, if_pos hwide] at hspace
        rw [isIdentContinue, if_pos hwide,
          CodeRanges.not_contains_of_disjoint disjoint_whiteSpace hspace] at hpart
        cases hpart
      have hhyphen : c ≠ '-' := by
        rintro rfl
        cases hwide
      simp [isSeparator, hspace, hhyphen]
  | false =>
      exact forall_narrow
        (P := fun c => isIdentContinue c = true → (isSeparator c = true ↔ c = '_'))
        (by decide +kernel) hwide hpart

theorem isBlank_iff_of_isWord (hword : isWord name = true) :
    IsBlank name ↔ ∀ c ∈ name.toList, c = '_' := by
  by_cases hraw : isRaw name = true
  · -- the mark of a raw name begins with a letter
    have hmark : 'r' ∈ name.toList := by
      obtain ⟨rest, hrest⟩ := List.isPrefixOf_iff_prefix.mp hraw
      rw [← hrest]
      exact List.mem_cons_self
    constructor
    · intro hblank
      cases hblank 'r' hmark
    · intro hall
      cases hall 'r' hmark
  · rw [isWord, withoutRaw, if_neg hraw, isIdentifier] at hword
    have hparts := List.all_eq_true.mp (all_of_isIdentifierChars hword)
    exact forall₂_congr fun c hc => isSeparator_iff_of_isIdentContinue (hparts c hc)

end Blank

end EntityTables.Text

namespace EntityTables.Schema

open EntityTables.Naming
open EntityTables.Naming.Registry (lowerSnakeSelector upperSnakeSelector)
open EntityTables.Text (IsBlank lowerSnake_eq_empty_iff upperSnake_eq_empty_iff)

/-! ### The strategies of a resolver -/

section Create

variable {unit : SourceUnit} {options : Options} {registry : Registry} {resolver : Resolver}

/-- What a resolver is created from. -/
theorem config_of_create (hok : Resolver.create unit options registry = .ok resolver) :
    resolver.unit = unit ∧
      resolver.config = Config.merge options (unit.config.map (·.marker)) ∧
      ∃ handle, registry.database resolver.config.databaseNaming = .ok handle ∧
        resolver.database = handle.strategy := by
  simp only [Resolver.create, bind_eq_ok_iff, mapError_eq_ok_iff] at hok
  obtain ⟨handle, hhandle, _, -, hpure⟩ := hok
  cases hpure
  exact ⟨rfl, rfl, handle, hhandle, rfl⟩

/-- A strategy that is built in leaves nothing of the names without a letter, and of no others. -/
theorem exists_converting_of_database {selector : String} {handle : Handle DatabaseNaming}
    (hbuiltIn : selector ∈ [lowerSnakeSelector, upperSnakeSelector])
    (hok : registry.database selector = .ok handle) :
    ∃ convert, handle.strategy = .converting convert ∧
      ∀ name, convert name = "" ↔ IsBlank name := by
  rcases List.mem_cons.mp hbuiltIn with rfl | hupper
  · cases hok
    exact ⟨Text.lowerSnake, rfl, fun _ => lowerSnake_eq_empty_iff⟩
  · rw [List.mem_singleton.mp hupper] at hok
    cases hok
    exact ⟨Text.upperSnake, rfl, fun _ => upperSnake_eq_empty_iff⟩

end Create

/-! ### Names that are made from identifiers -/

/-- A name is left empty: none is given, and there is no letter in the identifier that it is made
from. -/
def LeavesEmpty (given : Option String) (identifier : String) : Prop :=
  given? given = none ∧ IsBlank identifier

instance (given : Option String) (identifier : String) : Decidable (LeavesEmpty given identifier) :=
  inferInstanceAs (Decidable (_ ∧ _))

section Names

variable {resolver : Resolver} {convert : String → String} {owner : Declaration}
  {property : Property} {column : Column} {table : Table} {key : Key}

theorem getD_given?_eq_empty_iff {given : Option String} {name : String} :
    (given? given).getD name = "" ↔ given? given = none ∧ name = "" := by
  cases hgiven : given? given with
  | none => simp
  | some text =>
      have hne : text ≠ "" := by simpa using (Option.filter_eq_some_iff.mp hgiven).2
      simp [hne]

/-- The name of a column is empty only if its property is no reference. -/
theorem name_eq_empty_iff_of_builds (hdatabase : resolver.database = .converting convert)
    (hconvert : ∀ name, convert name = "" ↔ IsBlank name)
    (hbuilds : Builds resolver owner property column) :
    column.name = "" ↔
      property.references = none ∧ LeavesEmpty (property.column.bind (·.name)) property.name := by
  have hside := NameSide.database_madeBy hdatabase
  cases hreferences : property.references with
  | none =>
      obtain ⟨kind, hplain⟩ := hbuilds.plain hreferences
      obtain ⟨sqlType, -, rfl⟩ := plainColumn_eq_ok_iff.mp hplain
      simp only [hdatabase, DatabaseNaming.converting, getD_given?_eq_empty_iff, hconvert,
        LeavesEmpty, true_and]
  | some marker =>
      have hreference : property.references.isSome := by rw [hreferences]; rfl
      obtain ⟨target, reference, keyColumn, -, -, -, hcolumn, -, -, hkeys⟩ :=
        hbuilds.reference hreference
      have hname : column.name = _ := NameSide.of_reference hside hreference hcolumn hkeys
      rw [hname, NameSide.database, getD_given?_eq_empty_iff]
      simp

/-- The parts that the qualified name of a table joins. -/
def nameParts (table : Table) : List String :=
  table.catalog.toList ++ table.schema.toList ++ [table.name]

theorem qualifiedName_eq (table : Table) :
    table.qualifiedName = ".".intercalate (nameParts table) := rfl

theorem empty_mem_nameParts_iff : "" ∈ nameParts table ↔
    table.name = "" ∨ table.catalog = some "" ∨ table.schema = some "" := by
  simp only [nameParts, List.mem_append, Option.mem_toList, List.mem_singleton]
  rw [or_comm, @eq_comm _ "" table.name]

/-! ### Where catalogs and schemas come from -/

variable {unit : SourceUnit} {options : Options} {marker : Marker.Table} {kind : EntityKind}
  {columns : List Column}

/-- The places that may give the catalog of a table, in the order in which they count. -/
def catalogPlaces (unit : SourceUnit) (options : Options) (owner : Declaration) :
    List (Option String) :=
  [owner.table.bind (·.catalog), unit.config.bind (·.marker.defaultCatalog), options.defaultCatalog]

/-- The places that may give the schema of a table, in the order in which they count. -/
def schemaPlaces (unit : SourceUnit) (options : Options) (owner : Declaration) :
    List (Option String) :=
  [owner.table.bind (·.schema), unit.config.bind (·.marker.defaultSchema), options.defaultSchema]

/-- The first text that some places give, even if it is empty. -/
def firstGiven (places : List (Option String)) : Option String := places.findSome? id

theorem firstGiven_three (first second third : Option String) :
    firstGiven [first, second, third] = first.or (second.or third) := by
  cases first <;> cases second <;> cases third <;> rfl

theorem catalog_tableOf (hmarker : owner.table = some marker)
    (hconfig : resolver.config = Config.merge options (unit.config.map (·.marker))) :
    (tableOf resolver owner marker kind columns).catalog =
      firstGiven (catalogPlaces unit options owner) := by
  rw [catalogPlaces, firstGiven_three, tableOf, hconfig, hmarker, Config.merge]
  cases unit.config <;> rfl

theorem schema_tableOf (hmarker : owner.table = some marker)
    (hconfig : resolver.config = Config.merge options (unit.config.map (·.marker))) :
    (tableOf resolver owner marker kind columns).schema =
      firstGiven (schemaPlaces unit options owner) := by
  rw [schemaPlaces, firstGiven_three, tableOf, hconfig, hmarker, Config.merge]
  cases unit.config <;> rfl

theorem name_tableOf_eq_empty_iff (hmarker : owner.table = some marker)
    (hdatabase : resolver.database = .converting convert)
    (hconvert : ∀ name, convert name = "" ↔ IsBlank name) :
    (tableOf resolver owner marker kind columns).name = "" ↔
      LeavesEmpty (owner.table.bind (·.name)) owner.name := by
  rw [tableOf, hdatabase, getD_given?_eq_empty_iff, DatabaseNaming.converting, hconvert, hmarker]
  rfl

end Names

/-- **Empty names.** In the tables of a unit, resolved with a strategy that is built in, a name is
empty exactly if nothing names the declaration or property but an identifier without a letter; a
reference has no empty name. The qualified name of a table has an empty part exactly if the name of
the table is empty, or the first place that gives a catalog or schema gives an empty one. -/
theorem emptyNames_iff {unit : SourceUnit} {options : Options} {registry : Registry}
    {resolver : Resolver} {tables : List Table}
    (hcreate : Resolver.create unit options registry = .ok resolver)
    (hbuiltIn : resolver.config.databaseNaming ∈ [lowerSnakeSelector, upperSnakeSelector])
    (hok : ((resolveAll resolver).run .empty).1 = .ok tables) : ∀ table ∈ tables,
    ∃ owner ∈ unit.tables, owner.key = table.key ∧
      (table.name = "" ↔ LeavesEmpty (owner.table.bind (·.name)) owner.name) ∧
      List.Forall₂ (fun property column => column.Of property ∧
          (column.name = "" ↔ property.references = none ∧
            LeavesEmpty (property.column.bind (·.name)) property.name))
        (orderedProperties unit owner) table.columns ∧
      ("" ∈ nameParts table ↔ LeavesEmpty (owner.table.bind (·.name)) owner.name ∨
        firstGiven (catalogPlaces unit options owner) = some "" ∨
        firstGiven (schemaPlaces unit options owner) = some "") := by
  intro table htable
  obtain ⟨rfl, hconfig, handle, hhandle, hstrategy⟩ := config_of_create hcreate
  obtain ⟨convert, hconverting, hconvert⟩ := exists_converting_of_database hbuiltIn hhandle
  have hdatabase := hstrategy.trans hconverting
  rw [resolveAll_empty] at hok
  obtain ⟨declaration, -, hrebuild⟩ := exists_of_mem_mapM_ok hok htable
  obtain ⟨-, owner, hdeclared, hbuild⟩ := rebuild_eq_ok_iff.mp hrebuild
  obtain ⟨marker, kind, columns, hmarker, -, -, rfl⟩ := (buildTable_eq_ok_iff _).mp hbuild
  have howner : owner ∈ resolver.unit.tables := List.mem_filter.mpr
    ⟨List.mem_of_find?_eq_some hdeclared, by rw [Declaration.isTable, hmarker]; rfl⟩
  have hname := @name_tableOf_eq_empty_iff _ _ _ _ kind columns hmarker hdatabase hconvert
  refine ⟨owner, howner, rfl, hname, (builds_of_rebuild hdeclared hrebuild).imp fun _ _ hbuilds =>
    ⟨hbuilds.of, name_eq_empty_iff_of_builds hdatabase hconvert hbuilds⟩, ?_⟩
  rw [empty_mem_nameParts_iff, hname, catalog_tableOf hmarker hconfig,
    schema_tableOf hmarker hconfig]

/-- In a unit that is made of texts, an identifier without a letter is one of underscores. -/
theorem isBlank_name_iff_of_addTexts {unit : SourceUnit} {texts : List (String × String)}
    (hunit : SourceUnit.empty.addTexts texts = .ok unit) {owner : Declaration}
    (howner : owner ∈ unit.tables) : IsBlank owner.name ↔ ∀ c ∈ owner.name.toList, c = '_' :=
  Text.isBlank_iff_of_isWord
    (SourceUnit.isWord_name_of_addTexts hunit (List.mem_of_mem_filter howner))

section Instance

theorem emptyNames_iff_department :
    let unit := departmentUnit [keyProperty "id"]
    ∃ resolver tables, Resolver.create unit .none .empty = .ok resolver ∧
      ((resolveAll resolver).run .empty).1 = .ok tables ∧ tables.map (·.name) =
        ["department", "employee"] ∧ ∀ table ∈ tables, table.name ≠ "" ∧ "" ∉ nameParts table := by
  intro unit
  let resolver := snakeResolver unit
  have hresolved : ((resolveAll resolver).run .empty).1.toOption.map
      (fun tables => tables.map (·.name)) = some ["department", "employee"] := by
    rw [resolveAll_empty]
    decide +kernel
  have hletters : ∀ owner ∈ unit.tables, ¬LeavesEmpty (owner.table.bind (·.name)) owner.name ∧
      firstGiven (catalogPlaces unit .none owner) = none ∧
      firstGiven (schemaPlaces unit .none owner) = none := by decide +kernel
  have hcreate : Resolver.create unit .none .empty = .ok resolver := rfl
  obtain ⟨tables, hok, hnames⟩ := exists_ok_of_toOption hresolved
  refine ⟨resolver, tables, hcreate, hok, hnames, fun table htable => ?_⟩
  obtain ⟨owner, howner, -, hname, -, hparts⟩ :=
    emptyNames_iff hcreate List.mem_cons_self hok table htable
  obtain ⟨hfilled, hcatalog, hschema⟩ := hletters owner howner
  rw [Ne, hname, hparts, hcatalog, hschema]
  exact ⟨hfilled, by simpa using hfilled⟩

/-- A struct and its key are called by underscores, and its marker gives an empty catalog. -/
def underscoreText : String :=
  "#[table(catalog = \"\")] pub struct __ { #[primary_key] __: i32 }"

/-- The tables of a unit that is resolved without options. -/
def tablesOfText (text : String) : Except Error (List Table) := do
  let unit ← SourceUnit.empty.addTexts [("crate", text)]
  let resolver ← Resolver.create unit .none .empty
  ((resolveAll resolver).run .empty).1

/-- The table has an empty name, and so has its column. -/
theorem tablesOfText_underscore : ∃ table, tablesOfText underscoreText = .ok [table] ∧
    table.name = "" ∧ table.columns.map (·.name) = [""] ∧ nameParts table = ["", ""] ∧
    table.qualifiedName = "." := by
  have hresolved : (tablesOfText underscoreText).toOption.map (fun tables =>
      tables.map fun table => (table.name, table.columns.map (·.name), nameParts table)) =
        some [("", [""], ["", ""])] := by
    decide +kernel
  obtain ⟨tables, hok, hnames⟩ := exists_ok_of_toOption hresolved
  obtain ⟨table, rfl, htable⟩ := List.map_eq_singleton_iff.mp hnames
  simp only [Prod.mk.injEq] at htable
  obtain ⟨hname, hcolumns, hparts⟩ := htable
  refine ⟨table, hok, hname, hcolumns, hparts, ?_⟩
  rw [qualifiedName_eq, hparts]
  rfl

end Instance

end EntityTables.Schema
