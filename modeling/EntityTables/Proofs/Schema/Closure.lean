import EntityTables.Proofs.Schema.Session

/-!
# Resolved schemas

Where all tables of a unit are resolved, their columns refer to nothing outside of them: the table
behind a reference, at whatever depth, is the one that the schema itself has under its key. It is an
interface with one key column, the reference has its position, and following the keys ends in a
column without reference, from which all columns on the way have their SQL type.
-/

namespace EntityTables.Schema

open SourceUnit (key_of_get?)

variable {resolver : Resolver} {stack : List Declaration} {key : Key} {owner : Declaration}
  {property : Property} {table : Table} {column : Column} {reference : Reference}

/-! ### The key of a referenced table -/

/-- The position of the key column is that of the only column in the primary key. -/
theorem keyPosition_eq_ok {at_ : PropertyRef} {position : Nat}
    (hposition : keyPosition at_ table = .ok position) :
    ∃ keyColumn, table.columns[position]? = some keyColumn ∧ table.primaryKeys = [keyColumn] ∧
      ∀ index other, table.columns[index]? = some other →
        (other.primaryKey = true ↔ index = position) := by
  unfold keyPosition at hposition
  split at hposition
  · next only honly =>
      cases hposition
      obtain ⟨⟨keyColumn, index⟩, hkeys, rfl⟩ := List.map_eq_singleton_iff.mp honly
      have hmem : ∀ other index', (other, index') ∈
          table.columns.zipIdx.filter (·.1.primaryKey) ↔
            other = keyColumn ∧ index' = index := by
        intro other index'
        rw [hkeys, List.mem_singleton, Prod.mk.injEq]
      have hkeyColumn := (hmem keyColumn index).mpr ⟨rfl, rfl⟩
      refine ⟨keyColumn, ?_, ?_, fun index' other hother => ⟨fun hkey => ?_, ?_⟩⟩
      · exact List.mk_mem_zipIdx_iff_getElem?.mp (List.mem_filter.mp hkeyColumn).1
      · calc
          table.primaryKeys = (table.columns.zipIdx.map (·.1)).filter (·.primaryKey) := by
            rw [List.zipIdx_map_fst, TableOf.primaryKeys]
          _ = (table.columns.zipIdx.filter (·.1.primaryKey)).map (·.1) := List.filter_map
          _ = [keyColumn] := by rw [hkeys, List.map_singleton]
      · have hlisted : (other, index') ∈ table.columns.zipIdx.filter (·.1.primaryKey) :=
          List.mem_filter.mpr ⟨List.mk_mem_zipIdx_iff_getElem?.mpr hother, hkey⟩
        exact ((hmem other index').mp hlisted).2
      · rintro rfl
        have hsame := List.mk_mem_zipIdx_iff_getElem?.mp (List.mem_filter.mp hkeyColumn).1
        rw [hother, Option.some.injEq] at hsame
        exact hsame ▸ (List.mem_filter.mp hkeyColumn).2
  · cases hposition
  · cases hposition

theorem shape_of_checkTarget {at_ : PropertyRef} {target : Declaration}
    (hcheck : checkTarget at_ target = .ok ()) :
    target.isTable ∧ ∃ extends_ properties, target.shape = .interface extends_ properties := by
  unfold checkTarget at hcheck
  split at hcheck
  · split at hcheck <;> cases hcheck
  · split at hcheck <;> cases hcheck
  · next extends_ properties hshape =>
      split at hcheck
      · next htable => exact ⟨htable, extends_, properties, hshape⟩
      · cases hcheck

/-- The target of a reference is an interface of the unit that is marked as a table. -/
theorem declared_of_referenceTarget {unit : SourceUnit} {target : Declaration}
    (htarget : referenceTarget unit owner property = .ok target) :
    unit.get? target.key = some target ∧ target.isTable ∧
      ∃ extends_ properties, target.shape = .interface extends_ properties := by
  unfold referenceTarget at htarget
  split at htarget
  · cases htarget
  · split at htarget
    · next found hfound =>
        cases hcheck : checkTarget ⟨owner.key.text, property.name⟩ found with
        | error error => simp [hcheck, Except.map] at htarget
        | ok checked =>
            simp only [hcheck, Except.map, Except.ok.injEq] at htarget
            subst htarget
            exact ⟨SourceUnit.get?_of_lookup hfound, shape_of_checkTarget hcheck⟩
    · cases htarget
    · cases htarget

/-! ### The columns of a rebuilt table -/

theorem key_of_rebuild (hok : rebuild resolver stack key = .ok table) : table.key = key := by
  obtain ⟨-, declaration, hfound, hbuild⟩ := rebuild_eq_ok_iff.mp hok
  obtain ⟨_, _, _, -, -, -, rfl⟩ := (buildTable_eq_ok_iff _).mp hbuild
  exact key_of_get? hfound

theorem kind_of_rebuild {declaration : Declaration} {extends_ : Bool} {properties : List Property}
    (hfound : resolver.unit.get? key = some declaration)
    (hshape : declaration.shape = .interface extends_ properties)
    (hok : rebuild resolver stack key = .ok table) : table.kind = .interface := by
  obtain ⟨-, other, hother, hbuild⟩ := rebuild_eq_ok_iff.mp hok
  obtain ⟨_, kind, _, -, hkind, -, rfl⟩ := (buildTable_eq_ok_iff _).mp hbuild
  rw [hfound, Option.some.injEq] at hother
  subst hother
  unfold entityKind at hkind
  rw [hshape] at hkind
  cases extends_ with
  | true => exact (Except.ok.inj hkind).symm
  | false => cases hkind

/-- What resolution knows of a column that refers to a table. -/
theorem exists_target_of_reference {kind : EntityKind} {resolve : Key → Except Error Table}
    (hok : columnOf resolver resolve owner kind property = .ok column)
    (hreference : column.reference = some reference) :
    ∃ target, referenceTarget resolver.unit owner property = .ok target ∧
      resolve target.key = .ok reference.table ∧
      keyPosition ⟨owner.key.text, property.name⟩ reference.table = .ok reference.primaryKey ∧
      column.sqlType = (reference.keyColumn?.map (·.bound.sqlType)).getD default := by
  by_cases hmarked : property.references.isSome
  · rw [columnOf_eq_referenceColumn hmarked] at hok
    simp only [bind_eq_ok_iff] at hok
    obtain ⟨-, -, target, htarget, found, hfound, hcolumn⟩ := hok
    unfold referenceColumn at hcolumn
    obtain ⟨position, hposition, hcolumn⟩ := bind_eq_ok_iff.mp hcolumn
    cases hcolumn
    cases hreference
    exact ⟨target, htarget, hfound, hposition, rfl⟩
  · rw [columnOf_eq_plainColumn (by simpa using hmarked), plainColumn_eq_ok_iff] at hok
    obtain ⟨sqlType, -, rfl⟩ := hok
    cases hreference

/-- The table behind a column, as a reference of a rebuilt table to it has it. -/
structure RefersWell (resolver : Resolver) (column : Column) (reference : Reference) : Prop where
  rebuilt : rebuild resolver [] reference.table.key = .ok reference.table
  declared : ∃ target ∈ resolver.unit.tables, target.key = reference.table.key
  interface : reference.table.kind = .interface
  only : ∃ keyColumn, reference.keyColumn? = some keyColumn ∧
    reference.table.primaryKeys = [keyColumn] ∧ column.sqlType = keyColumn.bound.sqlType
  position : ∀ index other, reference.table.columns[index]? = some other →
    (other.primaryKey = true ↔ index = reference.primaryKey)

theorem refersWell_of_rebuild (hok : rebuild resolver [] key = .ok table)
    (hmem : column ∈ table.columns) (hreference : column.reference = some reference) :
    RefersWell resolver column reference := by
  obtain ⟨-, owner, hfound, hbuild⟩ := rebuild_eq_ok_iff.mp hok
  obtain ⟨marker, kind, columns, -, -, hcolumns, rfl⟩ := (buildTable_eq_ok_iff _).mp hbuild
  obtain ⟨property, -, hcolumn⟩ := exists_of_mem_mapM_ok hcolumns hmem
  obtain ⟨target, htarget, hresolved, hposition, hsqlType⟩ :=
    exists_target_of_reference hcolumn hreference
  obtain ⟨hget, htable, extends_, properties, hshape⟩ := declared_of_referenceTarget htarget
  obtain ⟨keyColumn, hkeyColumn, hkeys, honly⟩ := keyPosition_eq_ok hposition
  have hkey := key_of_rebuild hresolved
  refine ⟨?_, ⟨target, ?_, hkey.symm⟩, kind_of_rebuild hget hshape hresolved,
    ⟨keyColumn, hkeyColumn, hkeys, ?_⟩, honly⟩
  · rw [hkey]
    exact rebuild_ok_of_avoids hresolved fun _ _ => List.not_mem_nil
  · exact List.mem_filter.mpr ⟨List.mem_of_find?_eq_some hget, htable⟩
  · rw [hsqlType, ReferenceTo.keyColumn?, hkeyColumn]
    rfl

/-! ### Following references -/

/-- A column stands in a table, or in one that columns of the table lead to. -/
inductive Occurs (column : Column) : Table → Prop
  | here {table : Table} (hmem : column ∈ table.columns) : Occurs column table
  | behind {table : Table} {other : Column} {reference : Reference} (hmem : other ∈ table.columns)
      (hreference : other.reference = some reference) (hoccurs : Occurs column reference.table) :
      Occurs column table

theorem Occurs.exists_rebuilt (hoccurs : Occurs column table)
    (hok : rebuild resolver [] table.key = .ok table) :
    ∃ owner, rebuild resolver [] owner.key = .ok owner ∧ column ∈ owner.columns := by
  induction hoccurs with
  | here hmem => exact ⟨_, hok, hmem⟩
  | behind hmem hreference _ ih => exact ih (refersWell_of_rebuild hok hmem hreference).rebuilt

theorem bound_of_plain (hplain : column.reference = none) : column.bound = column := by
  rw [Column.bound]
  split
  · rfl
  · next hreference => cases hplain.symm.trans hreference

theorem bound_of_keyColumn {keyColumn : Column} (hreference : column.reference = some reference)
    (hkeyColumn : reference.keyColumn? = some keyColumn) : column.bound = keyColumn.bound := by
  rw [Column.bound]
  split
  · next hplain => cases hplain.symm.trans hreference
  · next other hother =>
      rw [hreference, Option.some.injEq] at hother
      subst hother
      split
      · next hnone => cases hnone.symm.trans hkeyColumn
      · next found hfound => rw [Option.some.inj (hfound.symm.trans hkeyColumn)]

/-- Following the keys from a column ends in a column without reference, whose SQL type it has. -/
theorem bound_of_rebuild (hok : rebuild resolver [] key = .ok table)
    (hmem : column ∈ table.columns) :
    column.bound.reference = none ∧ column.sqlType = column.bound.sqlType := by
  induction column using Column.bound.induct generalizing key table with
  | case1 column hnone =>
      rw [bound_of_plain hnone]
      exact ⟨hnone, rfl⟩
  | case2 column reference hreference hnone =>
      obtain ⟨keyColumn, hkeyColumn, -⟩ := (refersWell_of_rebuild hok hmem hreference).only
      cases hnone.symm.trans hkeyColumn
  | case3 column reference hreference keyColumn hkeyColumn ih =>
      have hrefers := refersWell_of_rebuild hok hmem hreference
      obtain ⟨found, hfound, -, hsqlType⟩ := hrefers.only
      rw [hkeyColumn, Option.some.injEq] at hfound
      rw [bound_of_keyColumn hreference hkeyColumn, hsqlType, ← hfound]
      exact ⟨(ih hrefers.rebuilt (List.mem_of_getElem? hkeyColumn)).1, rfl⟩

/-! ### All tables of a unit -/

section Tables

variable {tables : List Table}

theorem keys_of_mapM_rebuild {declarations : List Declaration}
    (hok : (declarations.mapM fun declaration => rebuild resolver [] declaration.key) =
      .ok tables) : tables.map (·.key) = declarations.map (·.key) := by
  rw [mapM_eq_ok_iff] at hok
  induction hok with
  | nil => rfl
  | cons htable _ ih => rw [List.map_cons, List.map_cons, key_of_rebuild htable, ih]

/-- Every table with the key of a rebuilt one is that one. -/
theorem eq_of_mapM_rebuild {declarations : List Declaration}
    (hok : (declarations.mapM fun declaration => rebuild resolver [] declaration.key) =
      .ok tables) {other : Table} (hother : other ∈ tables)
    (hrebuild : rebuild resolver [] other.key = .ok table) : other = table := by
  obtain ⟨declaration, -, hdeclaration⟩ := exists_of_mem_mapM_ok hok hother
  rw [key_of_rebuild hdeclaration, hdeclaration, Except.ok.injEq] at hrebuild
  exact hrebuild

theorem find?_of_mapM_rebuild
    (hok : (resolver.unit.tables.mapM fun declaration => rebuild resolver [] declaration.key) =
      .ok tables) (hrefers : RefersWell resolver column reference) :
    tables.find? (·.key = reference.table.key) = some reference.table := by
  obtain ⟨target, hmem, hkey⟩ := hrefers.declared
  obtain ⟨entry, hentry, hrebuild⟩ := exists_mem_of_mapM_ok hok hmem
  rw [hkey, hrefers.rebuilt, Except.ok.injEq] at hrebuild
  cases hfound : tables.find? (·.key = reference.table.key) with
  | none =>
      have hnone := List.find?_eq_none.mp hfound entry hentry
      simp [hrebuild] at hnone
  | some found =>
      have hfoundKey : found.key = reference.table.key := by simpa using List.find?_some hfound
      have hrebuilt := hrefers.rebuilt
      rw [← hfoundKey] at hrebuilt
      rw [eq_of_mapM_rebuild hok (List.mem_of_find?_eq_some hfound) hrebuilt]

/-- A reference stays inside of a schema and has the position of the only key column of its target,
and its column is bound to the column at the end of the chain of keys. -/
structure WellBound (tables : List Table) (column : Column) (reference : Reference) : Prop where
  entry : tables.find? (·.key = reference.table.key) = some reference.table
  sole : ∀ other ∈ tables, other.key = reference.table.key → other = reference.table
  interface : reference.table.kind = .interface
  keyColumn : ∃ keyColumn, reference.keyColumn? = some keyColumn ∧
    reference.table.primaryKeys = [keyColumn]
  position : ∀ index other, reference.table.columns[index]? = some other →
    (other.primaryKey = true ↔ index = reference.primaryKey)
  plain : column.bound.reference = none
  sqlType : column.sqlType = column.bound.sqlType

/-- **Resolved schemas are closed.** All tables of a unit are one for each declaration that is marked
as a table, in the order of the unit, and every reference in them, at whatever depth, is well
bound. -/
theorem resolveAll_closed (hok : ((resolveAll resolver).run .empty).1 = .ok tables) :
    tables.map (·.key) = resolver.unit.tables.map (·.key) ∧
      ∀ table ∈ tables, ∀ column, Occurs column table → ∀ reference,
        column.reference = some reference → WellBound tables column reference := by
  rw [resolveAll_empty] at hok
  refine ⟨keys_of_mapM_rebuild hok, fun table htable column hoccurs reference hreference => ?_⟩
  have hrebuilt : rebuild resolver [] table.key = .ok table := by
    obtain ⟨declaration, -, hdeclaration⟩ := exists_of_mem_mapM_ok hok htable
    rw [key_of_rebuild hdeclaration, hdeclaration]
  obtain ⟨owner, howner, hmem⟩ := hoccurs.exists_rebuilt hrebuilt
  have hrefers := refersWell_of_rebuild howner hmem hreference
  obtain ⟨keyColumn, hkeyColumn, hkeys, -⟩ := hrefers.only
  obtain ⟨hplain, hsqlType⟩ := bound_of_rebuild howner hmem
  refine ⟨find?_of_mapM_rebuild hok hrefers, fun other hother hkey => ?_, hrefers.interface,
    ⟨keyColumn, hkeyColumn, hkeys⟩, hrefers.position, hplain, hsqlType⟩
  exact eq_of_mapM_rebuild hok hother (hkey ▸ hrefers.rebuilt)

end Tables

section Instance

def visitorTable (name : String) (properties : List Property) : Declaration where
  key := .within "crate" name
  name := name
  table := some ⟨none, none, none, none, none, none, []⟩
  shape := .interface true properties

def keyProperty (name : String) : Property :=
  ⟨name, Syntax.namedType "i32", none, true, none, false, true⟩

def linkProperty (name target : String) (primaryKey : Bool) : Property :=
  ⟨name, Syntax.namedType target, none, primaryKey, some ⟨none, none⟩, false, true⟩

/-- Visits have a badge, and the key of a badge is the person who holds it. -/
def visitorUnit : SourceUnit where
  declarations := [visitorTable "Visit" [keyProperty "id", linkProperty "badge" "Badge" false],
    visitorTable "Badge" [linkProperty "holder" "Person" true],
    visitorTable "Person" [keyProperty "id"]]
  constructors := []
  sqlTypeImpls := []
  config := none

/-- Whether some column refers to a table whose key is a reference again. -/
def hasChain (tables : List Table) : Bool :=
  tables.any fun table => table.columns.any fun column =>
    (column.reference.bind (·.keyColumn?)).any (·.isReference)

theorem resolveAll_closed_visitors :
    ∃ tables, ((resolveAll (literalResolver visitorUnit)).run .empty).1 = .ok tables ∧
      hasChain tables ∧ tables.map (·.key) = visitorUnit.tables.map (·.key) ∧
      ∀ table ∈ tables, ∀ column, Occurs column table → ∀ reference,
        column.reference = some reference → WellBound tables column reference := by
  have hresolved : (((resolveAll (literalResolver visitorUnit)).run .empty).1.toOption.any
      hasChain) = true := by
    rw [resolveAll_empty]
    decide +kernel
  obtain ⟨tables, htables, hchain⟩ := (Option.any_eq_true _ _).mp hresolved
  have hok : ((resolveAll (literalResolver visitorUnit)).run .empty).1 = .ok tables := by
    cases hresult : ((resolveAll (literalResolver visitorUnit)).run .empty).1 with
    | error error => simp [hresult, Except.toOption] at htables
    | ok found =>
        rw [hresult] at htables
        exact congrArg Except.ok (Option.some.inj htables)
  exact ⟨tables, hok, hchain, resolveAll_closed hok⟩

end Instance

end EntityTables.Schema
