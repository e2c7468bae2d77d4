import EntityTables.Proofs.Schema.Closure
import EntityTables.Proofs.Schema.History
import Mathlib.Data.List.Perm.Basic

/-!
# The columns of a table

A table has one column for each eligible property of its declaration. A constructor decides which of
them come first: the list of its parameters and that of the properties are merged by name, and
neither parameters that are no eligible properties nor properties that are no parameters take a
column away or add one.
-/

namespace EntityTables

/-- A property is eligible if it is backed and neither its own marker nor that of the table leaves
it out. -/
structure Property.Eligible (declaration : Declaration) (property : Property) : Prop where
  backed : property.backed = true
  marked : ∀ marker, property.column = some marker → marker.ignore = false
  listed : ∀ marker, declaration.table = some marker →
    property.name ∉ marker.ignoreProperties

end EntityTables

namespace EntityTables.Schema

/-- A column is that of a property. -/
structure Column.Of (property : Property) (column : Column) : Prop where
  name : column.property = property.name
  type : column.propertyType = property.type
  primaryKey : column.primaryKey = property.primaryKey
  reference : column.isReference = property.references.isSome

/-! ### Eligible properties -/

theorem eligible_iff {declaration : Declaration} {property : Property} :
    property.Eligible declaration ↔ (property.backed && !property.isIgnored &&
      !((declaration.table.map (·.ignoreProperties)).getD []).contains property.name) = true := by
  have hmarked : property.isIgnored = false ↔
      ∀ marker, property.column = some marker → marker.ignore = false := by
    rw [Property.isIgnored]
    cases property.column <;> simp
  have hlisted : ((declaration.table.map (·.ignoreProperties)).getD []).contains property.name =
      false ↔ ∀ marker, declaration.table = some marker →
        property.name ∉ marker.ignoreProperties := by
    cases declaration.table <;> simp
  rw [Bool.and_eq_true, Bool.and_eq_true, Bool.not_eq_true', Bool.not_eq_true', hmarked, hlisted]
  exact ⟨fun ⟨hbacked, hown, htable⟩ => ⟨⟨hbacked, hown⟩, htable⟩,
    fun ⟨⟨hbacked, hown⟩, htable⟩ => ⟨hbacked, hown, htable⟩⟩

instance (declaration : Declaration) : DecidablePred (Property.Eligible declaration) :=
  fun _ => decidable_of_iff _ eligible_iff.symm

theorem eligibleProperties_eq (declaration : Declaration) : eligibleProperties declaration =
    declaration.properties.filter (Property.Eligible declaration) :=
  List.filter_congr fun _ _ => Bool.eq_iff_iff.mpr (eligible_iff.symm.trans decide_eq_true_iff.symm)

/-! ### The order of a constructor -/

section Ordered

variable {parameters : List String} {properties : List Property}

/-- The properties that parameters name, in the order of the parameters. -/
def namedProperties (parameters : List String) (properties : List Property) : List Property :=
  parameters.filterMap fun name => properties.find? (·.name == name)

/-- The properties that no parameter names. -/
def unnamedProperties (parameters : List String) (properties : List Property) : List Property :=
  properties.filter fun property => !parameters.contains property.name

theorem names_namedProperties : (namedProperties parameters properties).map (·.name) =
    parameters.filter (· ∈ properties.map (·.name)) := by
  induction parameters with
  | nil => rfl
  | cons name rest ih =>
      rw [namedProperties, List.filterMap_cons]
      cases hfound : properties.find? (·.name == name) with
      | none =>
          have hnone : name ∉ properties.map (·.name) := by
            simpa [List.find?_eq_none] using hfound
          rw [List.filter_cons_of_neg (by simpa using hnone)]
          exact ih
      | some property =>
          obtain rfl : property.name = name := by simpa using List.find?_some hfound
          have hmem : property.name ∈ properties.map (·.name) :=
            List.mem_map_of_mem (List.mem_of_find?_eq_some hfound)
          rw [List.filter_cons_of_pos (by simpa using hmem)]
          exact congrArg (property.name :: ·) ih

theorem mem_namedProperties {property : Property}
    (hmem : property ∈ namedProperties parameters properties) :
    property ∈ properties ∧ property.name ∈ parameters := by
  obtain ⟨name, hname, hfound⟩ := List.mem_filterMap.mp hmem
  obtain rfl : property.name = name := by simpa using List.find?_some hfound
  exact ⟨List.mem_of_find?_eq_some hfound, hname⟩

/-- A merge by name keeps all properties, and each of them once. -/
theorem inParameterOrder_perm (hnames : (properties.map (·.name)).Nodup)
    (hparameters : parameters.Nodup) :
    (inParameterOrder parameters properties).Perm properties := by
  have hnamed : (namedProperties parameters properties).Nodup := by
    refine List.Nodup.of_map (·.name) ?_
    rw [names_namedProperties]
    exact hparameters.filter _
  have hproperties : properties.Nodup := List.Nodup.of_map (·.name) hnames
  have hnodup : (inParameterOrder parameters properties).Nodup := by
    refine hnamed.append (hproperties.filter _) fun property hfirst hsecond => ?_
    have hlisted := (mem_namedProperties hfirst).2
    simpa [hlisted] using (List.mem_filter.mp hsecond).2
  refine (List.perm_ext_iff_of_nodup hnodup hproperties).mpr fun property => ?_
  rw [inParameterOrder, List.mem_append]
  constructor
  · rintro (hnamed | hunnamed)
    · exact (mem_namedProperties hnamed).1
    · exact (List.mem_filter.mp hunnamed).1
  · intro hmem
    by_cases hlisted : property.name ∈ parameters
    · left
      have hname : property.name ∈ (namedProperties parameters properties).map (·.name) := by
        rw [names_namedProperties]
        simpa [hlisted] using ⟨property, hmem, rfl⟩
      obtain ⟨found, hfound, hsame⟩ := List.mem_map.mp hname
      rwa [← List.inj_on_of_nodup_map hnames (mem_namedProperties hfound).1 hmem hsame]
    · right
      simpa [hmem] using hlisted

/-- Without a constructor, the order is that of a constructor without parameters. -/
theorem orderedProperties_eq (unit : SourceUnit) (declaration : Declaration) :
    orderedProperties unit declaration =
      inParameterOrder ((unit.constructorParameters? declaration).getD [])
        (eligibleProperties declaration) := by
  rw [orderedProperties]
  cases unit.constructorParameters? declaration with
  | some parameters => rfl
  | none => simp [inParameterOrder]

theorem orderedProperties_perm {unit : SourceUnit} {declaration : Declaration}
    (hnames : (declaration.properties.map (·.name)).Nodup)
    (hparameters : ∀ parameters, unit.constructorParameters? declaration = some parameters →
      parameters.Nodup) :
    (orderedProperties unit declaration).Perm (eligibleProperties declaration) := by
  rw [orderedProperties_eq]
  refine inParameterOrder_perm (hnames.sublist (List.filter_sublist.map _)) ?_
  cases hfound : unit.constructorParameters? declaration with
  | some parameters => exact hparameters parameters hfound
  | none => exact List.nodup_nil

end Ordered

/-! ### Columns of properties -/

section Columns

variable {resolver : Resolver} {declaration : Declaration} {kind : EntityKind}
  {property : Property} {column : Column} {table : Table} {key : Key}

theorem of_columnOf {resolve : Key → Except Error Table}
    (hok : columnOf resolver resolve declaration kind property = .ok column) :
    column.Of property := by
  by_cases hreference : property.references.isSome
  · rw [columnOf_eq_referenceColumn hreference] at hok
    simp only [bind_eq_ok_iff] at hok
    obtain ⟨-, -, target, -, found, -, hcolumn⟩ := hok
    obtain ⟨position, -, hcolumn⟩ := bind_eq_ok_iff.mp hcolumn
    cases hcolumn
    exact ⟨rfl, rfl, rfl, hreference.symm⟩
  · rw [columnOf_eq_plainColumn (by simpa using hreference), plainColumn_eq_ok_iff] at hok
    obtain ⟨sqlType, -, rfl⟩ := hok
    exact ⟨rfl, rfl, rfl, (Bool.not_eq_true _ ▸ hreference).symm⟩

/-- A rebuilt table builds the columns of its properties with tables that are rebuilt. -/
theorem exists_mapM_of_rebuild (hdeclared : resolver.unit.get? key = some declaration)
    (hok : rebuild resolver [] key = .ok table) :
    ∃ (kind : EntityKind) (resolve : Key → Except Error Table),
      (orderedProperties resolver.unit declaration).mapM
          (columnOf resolver resolve declaration kind) = .ok table.columns ∧
        ∀ key table, resolve key = .ok table → rebuild resolver [] key = .ok table := by
  obtain ⟨-, found, hfound, hbuild⟩ := rebuild_eq_ok_iff.mp hok
  obtain ⟨marker, kind, columns, -, -, hcolumns, rfl⟩ := (buildTable_eq_ok_iff _).mp hbuild
  rw [hdeclared, Option.some.injEq] at hfound
  subst hfound
  exact ⟨kind, _, hcolumns, fun key table htable =>
    rebuild_ok_of_avoids htable fun _ _ => List.not_mem_nil⟩

theorem columns_of_rebuild (hdeclared : resolver.unit.get? key = some declaration)
    (hok : rebuild resolver [] key = .ok table) :
    List.Forall₂ Column.Of (orderedProperties resolver.unit declaration) table.columns := by
  obtain ⟨kind, resolve, hcolumns, -⟩ := exists_mapM_of_rebuild hdeclared hok
  exact (mapM_eq_ok_iff.mp hcolumns).imp fun _ _ hcolumn => of_columnOf hcolumn

/-- What a resolver answers is what it rebuilds. -/
theorem rebuild_of_mem_serve {requests : List Request} {tables : List Table}
    (hanswer : .ok tables ∈ (serve resolver requests .empty).1) (htable : table ∈ tables) :
    rebuild resolver [] table.key = .ok table := by
  rw [(serve_of_sound requests rfl (Session.sound_empty resolver)).1] at hanswer
  obtain ⟨request, -, hfresh⟩ := List.mem_map.mp hanswer
  rw [freshAnswer_eq_rebuilt] at hfresh
  cases request with
  | table key =>
      obtain ⟨found, hrebuild, hfound⟩ := bind_eq_ok_iff.mp hfresh
      cases hfound
      rw [List.mem_singleton] at htable
      rw [htable, key_of_rebuild hrebuild, hrebuild]
  | all =>
      obtain ⟨source, -, hrebuild⟩ := exists_of_mem_mapM_ok hfresh htable
      rw [key_of_rebuild hrebuild, hrebuild]

/-- **The columns of a table.** A table that is resolved, whatever was resolved before, has a column
for each eligible property and no others. The properties that parameters of a constructor name come
first, in the order of these parameters, and all others follow in the order of the declaration. -/
theorem columns_of_serve {requests : List Request} {tables : List Table}
    (hdeclared : resolver.unit.get? declaration.key = some declaration)
    (hnames : (declaration.properties.map (·.name)).Nodup)
    (hparameters : ∀ parameters,
      resolver.unit.constructorParameters? declaration = some parameters → parameters.Nodup)
    (hanswer : .ok tables ∈ (serve resolver requests .empty).1) (htable : table ∈ tables)
    (hkey : table.key = declaration.key) :
    let parameters := (resolver.unit.constructorParameters? declaration).getD []
    let eligible := declaration.properties.filter (Property.Eligible declaration)
    ∃ first others : List Property,
      List.Forall₂ Column.Of (first ++ others) table.columns ∧
        (first ++ others).Perm eligible ∧
        first.map (·.name) = parameters.filter (· ∈ eligible.map (·.name)) ∧
        others = eligible.filter (·.name ∉ parameters) := by
  intro parameters eligible
  have hrebuild := rebuild_of_mem_serve hanswer htable
  rw [hkey] at hrebuild
  have hcolumns := columns_of_rebuild hdeclared hrebuild
  have hperm := orderedProperties_perm hnames hparameters
  rw [orderedProperties_eq, eligibleProperties_eq] at hcolumns hperm
  refine ⟨namedProperties parameters eligible, unnamedProperties parameters eligible, hcolumns,
    hperm, names_namedProperties, ?_⟩
  exact List.filter_congr fun property _ => by simp

end Columns

section Instance

def plainProperty (name : String) : Property :=
  ⟨name, Syntax.namedType "i32", none, false, none, false, true⟩

/-- One property is not backed, one has a marker that leaves it out, and the table leaves out a
third. -/
def employeeTable : Declaration where
  key := .within "crate" "Employee"
  name := "Employee"
  table := some ⟨none, none, none, none, none, none, ["boss"]⟩
  shape := .interface true [keyProperty "id", plainProperty "name",
    { plainProperty "unit" with backed := false },
    { plainProperty "note" with column := some ⟨none, none, none, true⟩ }, plainProperty "boss",
    plainProperty "salary", plainProperty "job"]

/-- The constructor has parameters that are no columns, and not all columns. -/
def employeeUnit : SourceUnit where
  declarations := [employeeTable]
  constructors := [⟨"crate", Syntax.pathOf [Syntax.segmentOf "Employee"],
    ["job", "note", "unit", "age", "name"]⟩]
  sqlTypeImpls := []
  config := none

theorem columns_of_serve_employee :
    let resolver := literalResolver employeeUnit
    ∃ table, (serve resolver [.table employeeTable.key] .empty).1 = [.ok [table]] ∧
      table.columns.map (·.property) = ["job", "name", "id", "salary"] ∧
      ∃ first others : List Property,
        List.Forall₂ Column.Of (first ++ others) table.columns ∧
          first.map (·.name) = ["job", "name"] ∧ others.map (·.name) = ["id", "salary"] := by
  intro resolver
  have hresolved : ((rebuild resolver [] employeeTable.key).toOption.map
      fun table => table.columns.map (·.property)) = some ["job", "name", "id", "salary"] := by
    decide +kernel
  obtain ⟨table, hrebuild, hproperties⟩ := exists_ok_of_toOption hresolved
  have hserve : (serve resolver [.table employeeTable.key] .empty).1 = [.ok [table]] := by
    rw [(serve_of_sound _ rfl (Session.sound_empty resolver)).1, List.map_singleton,
      freshAnswer_eq_rebuilt, Request.rebuilt, hrebuild]
    rfl
  have hconstructor : resolver.unit.constructorParameters? employeeTable =
      some ["job", "note", "unit", "age", "name"] := by decide +kernel
  have hdeclared : resolver.unit.get? employeeTable.key = some employeeTable := rfl
  have hnames : (employeeTable.properties.map (·.name)).Nodup := by decide
  have hparameters : ∀ parameters,
      resolver.unit.constructorParameters? employeeTable = some parameters → parameters.Nodup := by
    intro parameters hparameters
    obtain rfl := Option.some.inj (hconstructor.symm.trans hparameters)
    decide
  obtain ⟨first, others, hcolumns, -, hfirst, hothers⟩ :=
    columns_of_serve hdeclared hnames hparameters (hserve ▸ List.mem_singleton_self _)
      (List.mem_singleton_self table) (key_of_rebuild hrebuild)
  rw [hconstructor] at hfirst hothers
  refine ⟨table, hserve, hproperties, first, others, hcolumns, ?_, ?_⟩
  · rw [hfirst]
    decide
  · rw [hothers]
    decide

end Instance

end EntityTables.Schema
