import EntityTables.Proofs.Steps
import EntityTables.Schema.Resolve
import Mathlib.Logic.Relation
import Mathlib.Data.List.Nodup

/-!
# The reference graph

Tables refer to each other through their reference properties. The graph is what the declarations
say, before anything is resolved; building a table asks for the tables that it leads to and for no
others.
-/

namespace EntityTables.Schema

open EntityTables.Syntax

/-- The declaration that the path inside the type of a property means. -/
def lookupTarget? (unit : SourceUnit) (owner : Declaration) (property : Property) :
    Option Declaration :=
  match referencedPath? property.type with
  | none => none
  | some path =>
    match unit.lookup path owner.key.module with
    | .found target => some target
    | _ => none

/-- One of the given properties of a declaration is a reference to another. -/
def RefersThrough (unit : SourceUnit) (properties : Declaration → List Property)
    (source target : Key) : Prop :=
  ∃ owner, unit.get? source = some owner ∧
    ∃ property ∈ properties owner, property.references.isSome ∧
      ∃ declaration, lookupTarget? unit owner property = some declaration ∧
        declaration.key = target

/-- An eligible property of a declaration is a reference to another. -/
def RefersTo (unit : SourceUnit) : Key → Key → Prop := RefersThrough unit eligibleProperties

/-- A column of a table is a reference to another. -/
def ColumnRefersTo (unit : SourceUnit) : Key → Key → Prop :=
  RefersThrough unit (orderedProperties unit)

theorem lookupTarget?_of_referenceTarget {unit : SourceUnit} {owner target : Declaration}
    {property : Property} (htarget : referenceTarget unit owner property = .ok target) :
    lookupTarget? unit owner property = some target := by
  unfold referenceTarget at htarget
  unfold lookupTarget?
  cases hpath : referencedPath? property.type with
  | none => simp [hpath] at htarget
  | some path =>
      simp only [hpath] at htarget ⊢
      cases hfound : unit.lookup path owner.key.module with
      | missing => simp [hfound] at htarget
      | ambiguous candidates => simp [hfound] at htarget
      | found declaration =>
          simp only [hfound] at htarget ⊢
          cases hcheck : checkTarget ⟨owner.key.text, property.name⟩ declaration with
          | error error => simp [hcheck, Except.map] at htarget
          | ok checked =>
              simp only [hcheck, Except.map, Except.ok.injEq] at htarget
              rw [htarget]

/-- A resolver that takes all names as they are. -/
def literalResolver (unit : SourceUnit) : Resolver where
  unit := unit
  config := .standard
  database := ⟨fun name => name, fun _ property => property, fun _ property _ => property⟩
  coding := ⟨fun name => name, fun name => name, fun _ property => property,
    fun _ property _ => property⟩

/-! ### Which properties become columns -/

/-- No two eligible properties of a declaration have the same name. -/
def DistinctNames (unit : SourceUnit) : Prop :=
  ∀ owner ∈ unit.declarations, ((eligibleProperties owner).map (·.name)).Nodup

theorem mem_eligibleProperties_of_mem_ordered {unit : SourceUnit} {owner : Declaration}
    {property : Property} (hmem : property ∈ orderedProperties unit owner) :
    property ∈ eligibleProperties owner := by
  unfold orderedProperties at hmem
  cases hparameters : unit.constructorParameters? owner with
  | none => simpa [hparameters] using hmem
  | some parameters =>
      simp only [hparameters, inParameterOrder, List.mem_append, List.mem_filterMap,
        List.mem_filter] at hmem
      rcases hmem with ⟨name, -, hfound⟩ | ⟨hmem, -⟩
      · exact List.mem_of_find?_eq_some hfound
      · exact hmem

/-- Of several properties with one name a constructor keeps the first; none is lost otherwise. -/
theorem mem_orderedProperties_of_mem_eligible {unit : SourceUnit} {owner : Declaration}
    {property : Property} (hnames : ((eligibleProperties owner).map (·.name)).Nodup)
    (hmem : property ∈ eligibleProperties owner) : property ∈ orderedProperties unit owner := by
  unfold orderedProperties
  cases hparameters : unit.constructorParameters? owner with
  | none => exact hmem
  | some parameters =>
      simp only [inParameterOrder, List.mem_append, List.mem_filterMap, List.mem_filter]
      by_cases hlisted : parameters.contains property.name
      · refine Or.inl ⟨property.name, by simpa using hlisted, ?_⟩
        obtain ⟨found, hfound⟩ : ∃ found,
            (eligibleProperties owner).find? (·.name == property.name) = some found := by
          rw [← Option.isSome_iff_exists, List.find?_isSome]
          exact ⟨property, hmem, by simp⟩
        have hsame : found.name = property.name := by simpa using List.find?_some hfound
        rw [hfound, List.inj_on_of_nodup_map hnames (List.mem_of_find?_eq_some hfound) hmem hsame]
      · exact Or.inr ⟨hmem, by simpa using hlisted⟩

theorem ColumnRefersTo.refersTo {unit : SourceUnit} {source target : Key}
    (hrefers : ColumnRefersTo unit source target) : RefersTo unit source target := by
  obtain ⟨owner, howner, property, hmem, hreference⟩ := hrefers
  exact ⟨owner, howner, property, mem_eligibleProperties_of_mem_ordered hmem, hreference⟩

theorem RefersTo.columnRefersTo {unit : SourceUnit} {source target : Key}
    (hnames : DistinctNames unit) (hrefers : RefersTo unit source target) :
    ColumnRefersTo unit source target := by
  obtain ⟨owner, howner, property, hmem, hreference⟩ := hrefers
  have howned := hnames owner (List.mem_of_find?_eq_some howner)
  exact ⟨owner, howner, property, mem_orderedProperties_of_mem_eligible howned hmem, hreference⟩

/-! ### What building a table asks for -/

section Build

variable {resolver : Resolver} {owner : Declaration} {kind : EntityKind} {property : Property}
  {first second : Key → Except Error Table}

theorem columnOf_eq_plainColumn (hplain : property.references.isSome = false)
    (resolve : Key → Except Error Table) :
    columnOf resolver resolve owner kind property = plainColumn resolver owner kind property := by
  simp [columnOf, hplain, ofExcept_eq_self]

/-- The SQL type of a plain column: the one that its marker names, or the one of its type. -/
def plainSqlType (unit : SourceUnit) (owner : Declaration) (property : Property) :
    Except Error SqlTypeRef :=
  match property.column.bind (·.sqlType) with
  | some path => explicitSqlType unit owner path property.type.stripOption.1
  | none => inferSqlType unit owner property property.type.stripOption.1

/-- A plain column refers to nothing and takes only its SQL type from other declarations. -/
theorem plainColumn_eq_ok_iff {column : Column} :
    plainColumn resolver owner kind property = .ok column ↔
      ∃ sqlType, plainSqlType resolver.unit owner property = .ok sqlType ∧ column = {
        property := property.name
        propertyType := property.type
        name := (given? (property.column.bind (·.name))).getD
          (resolver.database.columnName owner.name property.name)
        propertyName := (given? (property.column.bind (·.propertyName))).getD
          (resolver.coding.columnName owner.name property.name)
        primaryKey := property.primaryKey
        sqlType
        mutable := kind == .struct || property.mutable
        nullable := property.type.stripOption.2
        reference := none } := by
  unfold plainColumn plainSqlType
  dsimp only
  cases property.column.bind (·.sqlType)
  all_goals
    rw [bind_eq_ok_iff]
    refine exists_congr fun sqlType => and_congr_right fun _ => ?_
    exact ⟨fun h => (Except.ok.inj h).symm, fun h => h ▸ rfl⟩

/-- The column of a reference, step by step. -/
theorem columnOf_eq_referenceColumn (hreference : property.references.isSome)
    (resolve : Key → Except Error Table) :
    columnOf resolver resolve owner kind property = (do
      checkMarkers owner property
      let target ← referenceTarget resolver.unit owner property
      let table ← resolve target.key
      referenceColumn resolver owner property table) := by
  simp [columnOf, hreference, ofExcept_eq_self]

theorem columnOf_ok_mono {column : Column}
    (hok : columnOf resolver first owner kind property = .ok column)
    (hmono : property.references.isSome → ∀ target,
      lookupTarget? resolver.unit owner property = some target →
        ∀ table, first target.key = .ok table → second target.key = .ok table) :
    columnOf resolver second owner kind property = .ok column := by
  by_cases hreference : property.references.isSome
  · rw [columnOf_eq_referenceColumn hreference] at hok ⊢
    simp only [bind_eq_ok_iff] at hok ⊢
    obtain ⟨checked, hcheck, target, htarget, table, htable, hcolumn⟩ := hok
    have hlookup := lookupTarget?_of_referenceTarget htarget
    exact ⟨checked, hcheck, target, htarget, table, hmono hreference target hlookup table htable,
      hcolumn⟩
  · rw [columnOf_eq_plainColumn (by simpa using hreference)] at hok ⊢
    exact hok

theorem exists_target_of_columnOf_ok {column : Column} {target : Declaration}
    (hok : columnOf resolver first owner kind property = .ok column)
    (hreference : property.references.isSome)
    (htarget : lookupTarget? resolver.unit owner property = some target) :
    ∃ table, first target.key = .ok table := by
  rw [columnOf_eq_referenceColumn hreference] at hok
  simp only [bind_eq_ok_iff] at hok
  obtain ⟨-, -, found, hfound, table, htable, -⟩ := hok
  have hsame := lookupTarget?_of_referenceTarget hfound
  rw [htarget, Option.some.injEq] at hsame
  exact ⟨table, hsame ▸ htable⟩

theorem buildTable_eq_error {resolve : Key → Except Error Table} (hmarker : owner.table = none) :
    buildTable resolver resolve owner =
      .error (.unsupportedKind owner.key.text owner.kind .table) := by
  simp only [buildTable, hmarker]
  rfl

/-- The table of a declaration, step by step. -/
theorem buildTable_eq_tableOf {marker : Marker.Table} (hmarker : owner.table = some marker)
    (resolve : Key → Except Error Table) :
    buildTable resolver resolve owner = (do
      let kind ← entityKind owner
      let columns ← (orderedProperties resolver.unit owner).mapM
        (columnOf resolver resolve owner kind)
      return tableOf resolver owner marker kind columns) := by
  simp only [buildTable, hmarker, ofExcept_eq_self]

theorem buildTable_eq_ok_iff {table : Table} (resolve : Key → Except Error Table) :
    buildTable resolver resolve owner = .ok table ↔
      ∃ marker kind columns, owner.table = some marker ∧ entityKind owner = .ok kind ∧
        (orderedProperties resolver.unit owner).mapM (columnOf resolver resolve owner kind) =
          .ok columns ∧
        tableOf resolver owner marker kind columns = table := by
  cases hmarker : owner.table with
  | none => simp [buildTable_eq_error hmarker]
  | some marker =>
      simp only [buildTable_eq_tableOf hmarker, bind_eq_ok_iff, Option.some.injEq, pure,
        Except.pure, Except.ok.injEq]
      constructor
      · rintro ⟨kind, hkind, columns, hcolumns, htable⟩
        exact ⟨marker, kind, columns, rfl, hkind, hcolumns, htable⟩
      · rintro ⟨_, kind, columns, rfl, hkind, hcolumns, htable⟩
        exact ⟨kind, hkind, columns, hcolumns, htable⟩

/-- A table stays what it is if its targets do. -/
theorem buildTable_ok_mono {key : Key} {table : Table}
    (howner : resolver.unit.get? key = some owner)
    (hok : buildTable resolver first owner = .ok table)
    (hmono : ∀ target, ColumnRefersTo resolver.unit key target →
      ∀ table, first target = .ok table → second target = .ok table) :
    buildTable resolver second owner = .ok table := by
  rw [buildTable_eq_ok_iff] at hok ⊢
  obtain ⟨marker, kind, columns, hmarker, hkind, hcolumns, htable⟩ := hok
  refine ⟨marker, kind, columns, hmarker, hkind, ?_, htable⟩
  refine mapM_ok_mono hcolumns fun property hmem column hcolumn => ?_
  refine columnOf_ok_mono hcolumn fun hreference target htarget => ?_
  exact hmono target.key ⟨owner, howner, property, hmem, hreference, target, htarget, rfl⟩

theorem exists_target_of_buildTable_ok {key target : Key} {table : Table}
    (howner : resolver.unit.get? key = some owner)
    (hok : buildTable resolver first owner = .ok table)
    (hrefers : ColumnRefersTo resolver.unit key target) : ∃ table, first target = .ok table := by
  obtain ⟨source, hsource, property, hmem, hreference, declaration, hdeclaration, rfl⟩ := hrefers
  rw [howner, Option.some.injEq] at hsource
  subst hsource
  obtain ⟨marker, kind, columns, -, -, hcolumns, -⟩ := (buildTable_eq_ok_iff first).mp hok
  obtain ⟨column, hcolumn⟩ := exists_of_mapM_ok hcolumns hmem
  exact exists_target_of_columnOf_ok hcolumn hreference hdeclaration

end Build

end EntityTables.Schema
