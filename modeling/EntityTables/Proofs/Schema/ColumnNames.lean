import EntityTables.Proofs.Schema.Columns

/-!
# Names of columns

A column has one name in the database and one as an accessor, and both are made in the same way: the
marker gives the name, or the name of the property is converted, and the name of a reference is
continued by that of the key column it leads to. Nothing compares the names of different columns, so
two columns of a table share a name if their properties lead to one. Whether they do can often be
told from the beginnings of the names, without a look at other tables.
-/

namespace EntityTables.Schema

open EntityTables.Naming

/-- One of the two names of a column: what its marker gives, how the name of a property is
converted, and where the column has it. -/
structure NameSide where
  given : Property → Option String
  convert : String → String
  of : Column → String

namespace NameSide

/-- The name in the database, if names are converted in one way. -/
def database (convert : String → String) : NameSide where
  given property :=
    given? (if property.references.isSome then property.references.bind (·.name)
      else property.column.bind (·.name))
  convert := convert
  of := (·.name)

def accessor : NameSide where
  given property :=
    given? (if property.references.isSome then property.references.bind (·.propertyName)
      else property.column.bind (·.propertyName))
  convert := Text.accessorCase
  of := (·.propertyName)

/-- The names of properties, as the declarations of a unit tell them. -/
inductive Names (side : NameSide) (unit : SourceUnit) : Declaration → Property → String → Prop
  | given {owner : Declaration} {property : Property} {name : String}
      (hgiven : side.given property = some name) : Names side unit owner property name
  | plain {owner : Declaration} {property : Property} (hopen : side.given property = none)
      (hplain : property.references = none) :
      Names side unit owner property (side.convert property.name)
  | reference {owner target : Declaration} {property key : Property} {name : String}
      (hopen : side.given property = none) (hreference : property.references.isSome)
      (htarget : lookupTarget? unit owner property = some target)
      (hkey : key ∈ orderedProperties unit target) (hprimary : key.primaryKey = true)
      (hname : Names side unit target key name) :
      Names side unit owner property (side.convert property.name ++ "_" ++ name)

/-- A resolver makes the names on a side. -/
structure MadeBy (side : NameSide) (resolver : Resolver) : Prop where
  plain {owner : Declaration} {kind : EntityKind} {property : Property} {column : Column}
    (hplain : property.references = none)
    (hok : plainColumn resolver owner kind property = .ok column) :
    side.of column = (side.given property).getD (side.convert property.name)
  reference {owner : Declaration} {property : Property} {table : Table} {column : Column}
    (hreference : property.references.isSome)
    (hok : referenceColumn resolver owner property table = .ok column) :
    side.of column = (side.given property).getD
      (withKey (side.convert property.name) (table.primaryKeys.head?.map side.of))

theorem database_madeBy {resolver : Resolver} {convert : String → String}
    (hdatabase : resolver.database = .converting convert) :
    (database convert).MadeBy resolver where
  plain hplain hok := by
    obtain ⟨sqlType, -, rfl⟩ := plainColumn_eq_ok_iff.mp hok
    simp [database, hplain, hdatabase, DatabaseNaming.converting]
  reference hreference hok := by
    obtain ⟨position, -, hcolumn⟩ := bind_eq_ok_iff.mp hok
    cases hcolumn
    simp [database, hreference, hdatabase, DatabaseNaming.converting]

theorem accessor_madeBy {resolver : Resolver} (hcoding : resolver.coding = .plural) :
    accessor.MadeBy resolver where
  plain hplain hok := by
    obtain ⟨sqlType, -, rfl⟩ := plainColumn_eq_ok_iff.mp hok
    simp [accessor, hplain, hcoding, CodingNaming.plural]
  reference hreference hok := by
    obtain ⟨position, -, hcolumn⟩ := bind_eq_ok_iff.mp hok
    cases hcolumn
    simp [accessor, hreference, hcoding, CodingNaming.plural]

end NameSide

/-! ### How a column is built -/

section Builds

variable {resolver : Resolver} {owner : Declaration} {property : Property} {column : Column}
  {table : Table} {key : Key}

/-- A column is built for a property, with tables that are rebuilt. -/
def Builds (resolver : Resolver) (owner : Declaration) (property : Property) (column : Column) :
    Prop :=
  ∃ (kind : EntityKind) (resolve : Key → Except Error Table),
    columnOf resolver resolve owner kind property = .ok column ∧
      ∀ key table, resolve key = .ok table → rebuild resolver [] key = .ok table

theorem Builds.of (hbuilds : Builds resolver owner property column) : column.Of property := by
  obtain ⟨kind, resolve, hcolumn, -⟩ := hbuilds
  exact of_columnOf hcolumn

theorem Builds.plain (hbuilds : Builds resolver owner property column)
    (hplain : property.references = none) :
    ∃ kind, plainColumn resolver owner kind property = .ok column := by
  obtain ⟨kind, resolve, hcolumn, -⟩ := hbuilds
  rw [columnOf_eq_plainColumn (by rw [hplain]; rfl)] at hcolumn
  exact ⟨kind, hcolumn⟩

/-- The column of a reference leads to the only key column of the table of its target. -/
theorem Builds.reference (hbuilds : Builds resolver owner property column)
    (hreference : property.references.isSome) :
    ∃ target reference keyColumn, lookupTarget? resolver.unit owner property = some target ∧
      resolver.unit.get? target.key = some target ∧
      rebuild resolver [] target.key = .ok reference.table ∧
      referenceColumn resolver owner property reference.table = .ok column ∧
      column.reference = some reference ∧ reference.keyColumn? = some keyColumn ∧
      reference.table.primaryKeys = [keyColumn] := by
  obtain ⟨kind, resolve, hcolumn, hrebuilt⟩ := hbuilds
  rw [columnOf_eq_referenceColumn hreference] at hcolumn
  simp only [bind_eq_ok_iff] at hcolumn
  obtain ⟨-, -, target, htarget, found, hfound, hcolumn⟩ := hcolumn
  obtain ⟨position, hposition, hbuilt⟩ := bind_eq_ok_iff.mp hcolumn
  obtain ⟨keyColumn, hkeyColumn, hkeys, -⟩ := keyPosition_eq_ok hposition
  have hget := (declared_of_referenceTarget htarget).1
  refine ⟨target, ⟨found, position⟩, keyColumn, lookupTarget?_of_referenceTarget htarget, hget,
    hrebuilt _ _ hfound, hcolumn, ?_, hkeyColumn, hkeys⟩
  cases hbuilt
  rfl

theorem builds_of_rebuild (hdeclared : resolver.unit.get? key = some owner)
    (hok : rebuild resolver [] key = .ok table) :
    List.Forall₂ (Builds resolver owner) (orderedProperties resolver.unit owner) table.columns := by
  obtain ⟨kind, resolve, hcolumns, hrebuilt⟩ := exists_mapM_of_rebuild hdeclared hok
  exact (mapM_eq_ok_iff.mp hcolumns).imp fun _ _ hcolumn => ⟨kind, resolve, hcolumn, hrebuilt⟩

theorem exists_property_of_column (hdeclared : resolver.unit.get? key = some owner)
    (hok : rebuild resolver [] key = .ok table) (hmem : column ∈ table.columns) :
    ∃ property ∈ orderedProperties resolver.unit owner,
      Builds resolver owner property column := by
  obtain ⟨kind, resolve, hcolumns, hrebuilt⟩ := exists_mapM_of_rebuild hdeclared hok
  obtain ⟨property, hproperty, hcolumn⟩ := exists_of_mem_mapM_ok hcolumns hmem
  exact ⟨property, hproperty, kind, resolve, hcolumn, hrebuilt⟩

theorem exists_column_of_property (hdeclared : resolver.unit.get? key = some owner)
    (hok : rebuild resolver [] key = .ok table)
    (hmem : property ∈ orderedProperties resolver.unit owner) :
    ∃ column ∈ table.columns, Builds resolver owner property column := by
  obtain ⟨kind, resolve, hcolumns, hrebuilt⟩ := exists_mapM_of_rebuild hdeclared hok
  obtain ⟨column, hcolumn, hbuilt⟩ := exists_mem_of_mapM_ok hcolumns hmem
  exact ⟨column, hcolumn, kind, resolve, hbuilt, hrebuilt⟩

end Builds

/-! ### The names of a table -/

namespace NameSide

variable {side : NameSide} {resolver : Resolver} {owner : Declaration} {property : Property}

theorem of_reference (hside : side.MadeBy resolver) {column keyColumn : Column} {table : Table}
    (hreference : property.references.isSome)
    (hok : referenceColumn resolver owner property table = .ok column)
    (hkeys : table.primaryKeys = [keyColumn]) :
    side.of column = (side.given property).getD
      (side.convert property.name ++ "_" ++ side.of keyColumn) := by
  rw [hside.reference hreference hok, hkeys]
  rfl

/-- A name that a marker gives is that of the column. -/
theorem of_given {column : Column} {name : String} (hside : side.MadeBy resolver)
    (hbuilds : Builds resolver owner property column) (hgiven : side.given property = some name) :
    side.of column = name := by
  cases hreferences : property.references with
  | none =>
      obtain ⟨kind, hplain⟩ := hbuilds.plain hreferences
      rw [hside.plain hreferences hplain, hgiven]
      rfl
  | some marker =>
      have hreference : property.references.isSome := by rw [hreferences]; rfl
      obtain ⟨_, _, _, -, -, -, hcolumn, -⟩ := hbuilds.reference hreference
      rw [hside.reference hreference hcolumn, hgiven]
      rfl

/-- A column has a name of its property. -/
theorem names_of_builds (hside : side.MadeBy resolver) {owner : Declaration} {property : Property}
    {column : Column} (hbuilds : Builds resolver owner property column) :
    side.Names resolver.unit owner property (side.of column) := by
  cases hgiven : side.given property with
  | some name =>
      rw [of_given hside hbuilds hgiven]
      exact .given hgiven
  | none =>
      cases hreferences : property.references with
      | none =>
          obtain ⟨kind, hplain⟩ := hbuilds.plain hreferences
          rw [hside.plain hreferences hplain, hgiven]
          exact .plain hgiven hreferences
      | some marker =>
          have hreference : property.references.isSome := by rw [hreferences]; rfl
          obtain ⟨target, reference, keyColumn, htarget, hdeclared, hrebuilt, hcolumn, hsome,
            hkeyColumn, hkeys⟩ := hbuilds.reference hreference
          have hkey : keyColumn ∈ reference.table.primaryKeys := by
            rw [hkeys]
            exact List.mem_singleton_self _
          obtain ⟨hmem, hprimary⟩ := List.mem_filter.mp hkey
          obtain ⟨key, hkeyMem, hkeyBuilds⟩ := exists_property_of_column hdeclared hrebuilt hmem
          have hkeyPrimary := hkeyBuilds.of.primaryKey.symm.trans hprimary
          rw [of_reference hside hreference hcolumn hkeys, hgiven]
          -- the key column is part of this one, so following the keys comes to an end
          exact .reference hgiven hreference htarget hkeyMem hkeyPrimary
            (names_of_builds hside hkeyBuilds)
termination_by sizeOf column
decreasing_by
  exact Nat.lt_trans (sizeOf_keyColumn_lt hkeyColumn) (Column.sizeOf_reference_lt hsome)

/-- The column of a property has all names of the property, so there is one only. -/
theorem Names.eq_of_builds {name : String} (hside : side.MadeBy resolver)
    (hnames : side.Names resolver.unit owner property name) {column : Column}
    (hbuilds : Builds resolver owner property column) : side.of column = name := by
  induction hnames generalizing column with
  | given hgiven => exact of_given hside hbuilds hgiven
  | plain hopen hplain =>
      obtain ⟨kind, hcolumn⟩ := hbuilds.plain hplain
      rw [hside.plain hplain hcolumn, hopen]
      rfl
  | reference hopen hreference htarget hkey hprimary _ ih =>
      obtain ⟨found, reference, keyColumn, hfound, hdeclared, hrebuilt, hcolumn, -, -, hkeys⟩ :=
        hbuilds.reference hreference
      obtain rfl := Option.some.inj (htarget.symm.trans hfound)
      obtain ⟨other, hmem, hother⟩ := exists_column_of_property hdeclared hrebuilt hkey
      have honly : other ∈ reference.table.primaryKeys :=
        List.mem_filter.mpr ⟨hmem, hother.of.primaryKey.trans hprimary⟩
      -- whichever property of the target is its key, there is only one column for it
      rw [hkeys, List.mem_singleton] at honly
      rw [of_reference hside hreference hcolumn hkeys, hopen, ← honly, ih hother]
      rfl

theorem names_iff_of_builds (hside : side.MadeBy resolver) {column : Column}
    (hbuilds : Builds resolver owner property column) (name : String) :
    side.Names resolver.unit owner property name ↔ side.of column = name := by
  constructor
  · intro hnames
    exact hnames.eq_of_builds hside hbuilds
  · rintro rfl
    exact names_of_builds hside hbuilds

/-! ### Which columns share a name -/

/-- Two properties of a declaration have a name in common. -/
def Clash (side : NameSide) (unit : SourceUnit) (owner : Declaration)
    (property other : Property) : Prop :=
  ∃ name, side.Names unit owner property name ∧ side.Names unit owner other name

theorem clash_iff_of_builds (hside : side.MadeBy resolver) {other : Property}
    {column otherColumn : Column} (hbuilds : Builds resolver owner property column)
    (hother : Builds resolver owner other otherColumn) :
    side.Clash resolver.unit owner property other ↔ side.of column = side.of otherColumn := by
  simp only [Clash, names_iff_of_builds hside hbuilds, names_iff_of_builds hside hother]
  exact ⟨fun ⟨name, hname, hotherName⟩ => hname.trans hotherName.symm,
    fun hsame => ⟨_, hsame, rfl⟩⟩

theorem pairwise_iff_of_forall₂ {α β : Type} {R : α → β → Prop} {S : α → α → Prop}
    {T : β → β → Prop} {as : List α} {bs : List β} (hall : List.Forall₂ R as bs)
    (hiff : ∀ a b a' b', R a b → R a' b' → (S a a' ↔ T b b')) : as.Pairwise S ↔ bs.Pairwise T := by
  obtain ⟨hlength, hget⟩ := List.forall₂_iff_get.mp hall
  rw [List.pairwise_iff_getElem, List.pairwise_iff_getElem]
  constructor
  · intro h i j hi hj hlt
    exact (hiff _ _ _ _ (hget i (hlength ▸ hi) hi) (hget j (hlength ▸ hj) hj)).mp (h i j _ _ hlt)
  · intro h i j hi hj hlt
    exact (hiff _ _ _ _ (hget i hi (hlength ▸ hi)) (hget j hj (hlength ▸ hj))).mpr (h i j _ _ hlt)

/-- The names of a table differ if no two of its properties have a name in common. -/
theorem nodup_iff_of_rebuild (hside : side.MadeBy resolver) {key : Key} {table : Table}
    (hdeclared : resolver.unit.get? key = some owner) (hok : rebuild resolver [] key = .ok table) :
    (table.columns.map side.of).Nodup ↔ (orderedProperties resolver.unit owner).Pairwise
      fun property other => ¬side.Clash resolver.unit owner property other := by
  rw [List.Nodup, List.pairwise_map]
  exact (pairwise_iff_of_forall₂ (builds_of_rebuild hdeclared hok)
    fun _ _ _ _ hbuilds hother => not_congr (clash_iff_of_builds hside hbuilds hother)).symm

/-! ### How names begin -/

/-- The name of a property depends on the key of another table. -/
def Open (side : NameSide) (property : Property) : Prop :=
  side.given property = none ∧ property.references.isSome

/-- What the declaration of a property tells of its name: the whole name, or its beginning. -/
def start (side : NameSide) (property : Property) : String :=
  match side.given property with
  | some name => name
  | none =>
    if property.references.isSome then side.convert property.name ++ "_"
    else side.convert property.name

/-- Two properties that have no name in common, whatever the keys of other tables are called. -/
structure Apart (side : NameSide) (property other : Property) : Prop where
  ne : side.start property ≠ side.start other
  first : side.Open property → ¬(side.start property).toList <+: (side.start other).toList
  second : side.Open other → ¬(side.start other).toList <+: (side.start property).toList

instance (side : NameSide) : DecidablePred side.Open :=
  fun _ => inferInstanceAs (Decidable (_ ∧ _))

instance (side : NameSide) (property other : Property) : Decidable (side.Apart property other) :=
  decidable_of_iff (side.start property ≠ side.start other ∧
      (side.Open property → ¬(side.start property).toList <+: (side.start other).toList) ∧
      (side.Open other → ¬(side.start other).toList <+: (side.start property).toList))
    ⟨fun ⟨hne, hfirst, hsecond⟩ => ⟨hne, hfirst, hsecond⟩,
      fun ⟨hne, hfirst, hsecond⟩ => ⟨hne, hfirst, hsecond⟩⟩

theorem Names.start {unit : SourceUnit} {name : String}
    (hnames : side.Names unit owner property name) :
    (side.start property).toList <+: name.toList ∧
      (¬side.Open property → side.start property = name) := by
  unfold NameSide.start
  cases hnames with
  | given hgiven =>
      rw [hgiven]
      exact ⟨List.prefix_rfl, fun _ => rfl⟩
  | plain hopen hplain =>
      rw [hopen, hplain]
      exact ⟨List.prefix_rfl, fun _ => rfl⟩
  | reference hopen hreference _ _ _ _ =>
      rw [hopen]
      dsimp only
      rw [if_pos hreference]
      exact ⟨by simp [String.toList_append], fun hclosed => (hclosed ⟨hopen, hreference⟩).elim⟩

theorem Apart.not_clash {unit : SourceUnit} {other : Property} (hapart : side.Apart property other) :
    ¬side.Clash unit owner property other := by
  rintro ⟨name, hname, hother⟩
  obtain ⟨hfirst, hfirstWhole⟩ := hname.start
  obtain ⟨hsecond, hsecondWhole⟩ := hother.start
  by_cases hopen : side.Open property
  · by_cases hotherOpen : side.Open other
    · -- of two beginnings of one name, one begins the other
      rcases List.prefix_or_prefix_of_prefix hfirst hsecond with h | h
      · exact hapart.first hopen h
      · exact hapart.second hotherOpen h
    · rw [← hsecondWhole hotherOpen] at hfirst
      exact hapart.first hopen hfirst
  · rw [← hfirstWhole hopen] at hsecond
    by_cases hotherOpen : side.Open other
    · exact hapart.second hotherOpen hsecond
    · exact hapart.ne ((hfirstWhole hopen).trans (hsecondWhole hotherOpen).symm)

end NameSide

/-- A rebuilt table is that of a declaration that is marked as a table. -/
theorem exists_owner_of_rebuild {resolver : Resolver} {key : Key} {table : Table}
    (hok : rebuild resolver [] key = .ok table) :
    ∃ owner ∈ resolver.unit.tables, owner.key = key ∧ resolver.unit.get? key = some owner := by
  obtain ⟨-, owner, hfound, hbuild⟩ := rebuild_eq_ok_iff.mp hok
  obtain ⟨marker, _, _, hmarker, -⟩ := (buildTable_eq_ok_iff _).mp hbuild
  refine ⟨owner, List.mem_filter.mpr ⟨List.mem_of_find?_eq_some hfound, ?_⟩,
    SourceUnit.key_of_get? hfound, hfound⟩
  rw [Declaration.isTable, hmarker]
  rfl

/-- **Names of columns.** In each of all tables of a unit, a column has on either side the one name
that the rules give its property: that of its marker, or its own, converted and continued by the name
of a key if it is a reference. The names on a side differ exactly if no two properties of the columns
have a name in common. What the declaration itself tells of the names is enough for that if all these
starts differ and that of a reference begins no other. -/
theorem columnNames_nodup_iff {resolver : Resolver} {convert : String → String}
    {tables : List Table} {table : Table} (hdatabase : resolver.database = .converting convert)
    (hcoding : resolver.coding = .plural)
    (hok : ((resolveAll resolver).run .empty).1 = .ok tables) (htable : table ∈ tables) :
    ∃ owner ∈ resolver.unit.tables, owner.key = table.key ∧
      ∀ side ∈ [NameSide.database convert, NameSide.accessor],
        let properties := orderedProperties resolver.unit owner
        List.Forall₂ (fun property column => column.Of property ∧
            ∀ name, side.Names resolver.unit owner property name ↔ side.of column = name)
          properties table.columns ∧
        ((table.columns.map side.of).Nodup ↔ properties.Pairwise
          fun property other => ¬side.Clash resolver.unit owner property other) ∧
        (properties.Pairwise side.Apart → (table.columns.map side.of).Nodup) := by
  rw [resolveAll_empty] at hok
  obtain ⟨declaration, -, hrebuild⟩ := exists_of_mem_mapM_ok hok htable
  obtain ⟨owner, howner, hkey, hdeclared⟩ := exists_owner_of_rebuild hrebuild
  refine ⟨owner, howner, hkey.trans (key_of_rebuild hrebuild).symm, fun side hmem => ?_⟩
  have hside : side.MadeBy resolver := by
    rcases List.mem_cons.mp hmem with rfl | hmem
    · exact NameSide.database_madeBy hdatabase
    · rw [List.mem_singleton.mp hmem]
      exact NameSide.accessor_madeBy hcoding
  have hnodup := NameSide.nodup_iff_of_rebuild hside hdeclared hrebuild
  refine ⟨(builds_of_rebuild hdeclared hrebuild).imp fun _ _ hbuilds =>
    ⟨hbuilds.of, NameSide.names_iff_of_builds hside hbuilds⟩, hnodup, fun hapart => ?_⟩
  exact hnodup.mpr (hapart.imp fun hapart => hapart.not_clash)

section Instance

/-- A resolver with the strategies that are built in. -/
def snakeResolver (unit : SourceUnit) : Resolver := ⟨unit, .standard, .lowerSnake, .plural⟩

/-- Departments, and employees that refer to them and have the given properties. -/
def departmentUnit (properties : List Property) : SourceUnit where
  declarations := [visitorTable "Department" [keyProperty "id"],
    visitorTable "Employee" (linkProperty "department" "Department" false :: properties)]
  constructors := []
  sqlTypeImpls := []
  config := none

theorem columnNames_nodup_iff_department :
    let resolver := snakeResolver (departmentUnit [keyProperty "id", plainProperty "firstName"])
    ∃ tables, ((resolveAll resolver).run .empty).1 = .ok tables ∧
      tables.map (fun table => table.columns.map (·.name)) =
        [["id"], ["department_id", "id", "first_name"]] ∧
      ∀ table ∈ tables, ∀ side ∈ [NameSide.database Text.lowerSnake, NameSide.accessor],
        (table.columns.map side.of).Nodup := by
  intro resolver
  have hresolved : (((resolveAll resolver).run .empty).1.toOption.map fun tables =>
      tables.map fun table => table.columns.map (·.name)) =
        some [["id"], ["department_id", "id", "first_name"]] := by
    rw [resolveAll_empty]
    decide +kernel
  have hapart : ∀ owner ∈ resolver.unit.tables,
      ∀ side ∈ [NameSide.database Text.lowerSnake, NameSide.accessor],
        (orderedProperties resolver.unit owner).Pairwise side.Apart := by decide +kernel
  obtain ⟨tables, hok, hnames⟩ := exists_ok_of_toOption hresolved
  refine ⟨tables, hok, hnames, fun table htable side hside => ?_⟩
  obtain ⟨owner, howner, -, hcolumns⟩ := columnNames_nodup_iff rfl rfl hok htable
  exact (hcolumns side hside).2.2 (hapart owner howner side hside)

/-- A reference and a plain property with different names lead to columns of one name. -/
theorem columnNames_department_twice :
    let resolver := snakeResolver (departmentUnit [keyProperty "id", plainProperty "department_id"])
    (∀ owner ∈ resolver.unit.declarations, (owner.properties.map (·.name)).Nodup) ∧
      ∃ tables, ((resolveAll resolver).run .empty).1 = .ok tables ∧ ∃ table ∈ tables,
        ¬(table.columns.map (·.name)).Nodup ∧ ¬(table.columns.map (·.propertyName)).Nodup := by
  intro resolver
  have hresolved : (((resolveAll resolver).run .empty).1.toOption.map fun tables =>
      decide (∃ table ∈ tables, ¬(table.columns.map (·.name)).Nodup ∧
        ¬(table.columns.map (·.propertyName)).Nodup)) = some true := by
    rw [resolveAll_empty]
    decide +kernel
  obtain ⟨tables, hok, htwice⟩ := exists_ok_of_toOption hresolved
  exact ⟨by decide, tables, hok, of_decide_eq_true htwice⟩

end Instance

end EntityTables.Schema
