import EntityTables.Proofs.Schema.Checking
import EntityTables.Proofs.Schema.Columns
import EntityTables.Proofs.Schema.ExplicitTypes
import EntityTables.Proofs.Syntax.BorrowedTypes
import EntityTables.Proofs.Unit.Named

/-!
# What the sources give for generated code

Names, types and paths of a unit go into the code that is generated for its tables. They can be read
there if the types are read back and the keys of declarations are paths. What is read of a column is
then read of every column that a reference leads to.
-/

namespace EntityTables

open EntityTables.Syntax EntityTables.Text

/-- A type that is read back as it is written, other than a `dyn*`, which is kept as it was given. -/
structure ReadsBack (type : Node) : Prop where
  reads : ReadsType type
  plain : type.is .verbatim = false

/-- A text that is read as a path in an expression: a relative one starts with no `try`. -/
def IsExprPathText (text : String) : Prop :=
  ∃ first names, IsPathName first ∧ (∀ name ∈ names, IsPathName name) ∧
    (text = joinNames (first :: names) ∧ first ≠ "try" ∨ text = "::" ++ joinNames (first :: names))

/-- A unit whose tables can be written into generated code: the types of its properties and those in
its SQL types are read back, the keys of its tables and of its unit structs are paths, and no field
of its structs is named by an underscore. -/
structure SourceUnit.Legible (unit : SourceUnit) : Prop where
  properties : ∀ owner ∈ unit.tables, ∀ property ∈ owner.properties,
    ReadsBack property.type ∧ ReadsBack property.type.stripOption.1
  sqlTypes : ∀ impl ∈ unit.sqlTypeImpls, ∀ type, impl.valueType = some type → ReadsBack type
  modules : ∀ owner ∈ unit.tables, IsPathText owner.key.module
  unitStructs : ∀ declaration ∈ unit.declarations, declaration.kind = .unitStruct →
    IsExprPathText declaration.key.text
  fields : ∀ owner ∈ unit.tables, ∀ isUnit properties, owner.shape = .struct isUnit properties →
    ∀ property ∈ properties, isName property.name = true

/-- A unit in whose interfaces every type of a value can stand behind a `&`. -/
def SourceUnit.BorrowsWell (unit : SourceUnit) : Prop :=
  ∀ owner ∈ unit.tables, Schema.entityKind owner = .ok .interface →
    ∀ property ∈ Schema.orderedProperties unit owner, property.references = none →
      joinsBounds property.type = false

namespace Schema

/-- An SQL type whose path and type of values are read back. -/
structure SqlTypeRef.Legible (sqlType : SqlTypeRef) : Prop where
  path : ReadsPath true sqlType.path
  valueType : ReadsType sqlType.valueType

section SqlTypes

variable {unit : SourceUnit} {owner declaration : Declaration} {property : Property}
  {path valueType : Node} {sqlType : SqlTypeRef}

theorem isSegmentWord_of_isPathName {name : String} (hname : IsPathName name) :
    isSegmentWord name = true := by
  rw [isSegmentWord, Bool.or_eq_true, List.contains_iff_mem]
  exact hname.word

theorem isPathWord_of_ne_try {name : String} (hname : IsPathName name) (hne : name ≠ "try") :
    isPathWord name = true := by
  rcases hname.word with hname | hname
  · exact isPathWord_of_isName hname
  · simp only [List.mem_cons, List.not_mem_nil, or_false] at hname
    rcases hname with rfl | rfl | rfl | rfl | rfl
    · decide
    · decide
    · decide
    · exact absurd rfl hne
    · decide

theorem readsPath_of_isExprPathText {text : String} (htext : IsExprPathText text)
    (hpath : parsePath? text = some path) : ReadsPath true path := by
  obtain ⟨first, names, hfirst, hnames, htext⟩ := htext
  have hwords : ∀ name ∈ names, isSegmentWord name = true := fun name hmem =>
    isSegmentWord_of_isPathName (hnames name hmem)
  rcases htext with ⟨rfl, hne⟩ | rfl
  · obtain rfl := Option.some.inj (hpath.symm.trans (parsePath?_joinNames hfirst hnames))
    exact readsPath_names (isPathWord_of_ne_try hfirst hne) hwords
  · obtain rfl := Option.some.inj (hpath.symm.trans (parsePath?_leading hfirst hnames))
    exact readsPath_rootPath (List.forall_mem_cons.mpr ⟨isSegmentWord_of_isPathName hfirst, hwords⟩)

theorem readsPath_builtInPath {name : String} (hname : name ∈ builtInNames) :
    ReadsPath true (builtInPath name) := by
  have hwords : ∀ name ∈ builtInNames, isSegmentWord name = true := by decide
  refine @readsPath_rootPath _ "tablegen" ["types", name] ?_
  simp only [List.forall_mem_cons, List.not_mem_nil, false_imp_iff, implies_true, and_true]
  exact ⟨by decide, by decide, hwords name hname⟩

theorem readsType_bytesType : ReadsType bytesType := by
  refine readsType_pathType (@readsPath_pathOf _ _ _ "Vec" (by decide)
    (.punct "<" :: ((namedType "u8").lexed ++ [.punct ">"])) (by simp [Kind.isOpen]) rfl rfl ?_)
  intro own hown
  obtain rfl := List.mem_singleton.mp hown
  exact readsSegment_arguments (by decide) (readsType_namedType (by decide))

theorem readsType_builtIn {known : BuiltInType} (hknown : known ∈ builtInTypes) :
    ReadsType known.valueType := by
  have hnames : ∀ known ∈ builtInTypes, known.valueName = "Vec<u8>" ∨ isName known.valueName := by
    decide
  rw [BuiltInType.valueType]
  split
  · exact readsType_bytesType
  · next hother =>
      rcases hnames known hknown with hbytes | hname
      · exact absurd (beq_iff_eq.mpr hbytes) hother
      · exact readsType_namedType hname

theorem legible_of_inferSqlType (hvalue : ReadsType valueType)
    (hok : inferSqlType unit owner property valueType = .ok sqlType) : sqlType.Legible := by
  unfold inferSqlType at hok
  split at hok
  · next found hfound =>
      cases hok
      rcases Option.or_eq_some_iff.mp hfound with hbuiltIn | ⟨-, henum⟩
      · obtain ⟨name, -, hname⟩ := Option.bind_eq_some_iff.mp hbuiltIn
        obtain ⟨known, hknown, rfl⟩ := Option.map_eq_some_iff.mp hname
        refine ⟨readsPath_builtInPath (List.mem_cons_of_mem _ (List.mem_map_of_mem ?_)), hvalue⟩
        exact List.mem_of_find?_eq_some hknown
      · obtain ⟨path, -, henum⟩ := Option.bind_eq_some_iff.mp henum
        split at henum
        · split at henum
          · cases henum
            exact ⟨readsPath_builtInPath List.mem_cons_self, hvalue⟩
          · cases henum
        · cases henum
  · cases hok

theorem legible_of_builtInSqlType (hvalue : ReadsType valueType)
    (hok : builtInSqlType path valueType = .ok sqlType) : sqlType.Legible := by
  unfold builtInSqlType at hok
  split at hok
  · cases hok
  · next name hname =>
      split at hok
      · cases hok
      split at hok
      · next henum =>
          cases hok
          obtain rfl := beq_iff_eq.mp henum
          exact ⟨readsPath_builtInPath List.mem_cons_self, hvalue⟩
      split at hok
      · next known hknown =>
          cases hok
          have hmem := List.mem_of_find?_eq_some hknown
          have hname : known.typeName = name := by simpa using List.find?_some hknown
          refine ⟨readsPath_builtInPath (List.mem_cons_of_mem _ ?_), readsType_builtIn hmem⟩
          exact hname ▸ List.mem_map_of_mem hmem
      · cases hok

theorem legible_of_declaredSqlType (hunit : unit.Legible) (hmem : declaration ∈ unit.declarations)
    (hvalue : ReadsType valueType)
    (hok : declaredSqlType unit declaration valueType = .ok sqlType) : sqlType.Legible := by
  unfold declaredSqlType at hok
  split at hok
  · next hkind =>
      split at hok
      · cases hok
      · cases hok
      · next impl path himpl hpath =>
          cases hok
          refine ⟨readsPath_of_isExprPathText (hunit.unitStructs declaration hmem hkind) hpath, ?_⟩
          split
          · cases hown : impl.valueType with
            | none => exact hvalue
            | some own =>
                exact (hunit.sqlTypes impl (List.mem_of_find?_eq_some himpl) own hown).reads
          · exact hvalue
  · cases hok
  · cases hok
  · cases hok

theorem legible_of_plainSqlType (hunit : unit.Legible) (hvalue : ReadsType property.type.stripOption.1)
    (hok : plainSqlType unit owner property = .ok sqlType) : sqlType.Legible := by
  unfold plainSqlType at hok
  split at hok
  · unfold explicitSqlType at hok
    split at hok
    · next declaration hfound =>
        exact legible_of_declaredSqlType hunit (SourceUnit.mem_of_lookup hfound) hvalue hok
    · exact legible_of_builtInSqlType hvalue hok
    · cases hok
  · exact legible_of_inferSqlType hvalue hok

end SqlTypes

/-! ### Columns of rebuilt tables -/

section Columns

variable {resolver : Resolver} {stack : List Declaration} {key : Key} {table : Table}
  {column : Column} {reference : Reference}

/-- The declaration that a rebuilt table is made of. -/
structure Describes (resolver : Resolver) (owner : Declaration) (table : Table) : Prop where
  declared : owner ∈ resolver.unit.tables
  found : resolver.unit.get? table.key = some owner
  entity : table.entity = owner.name
  kind : entityKind owner = .ok table.kind
  columns : ∃ resolve : Key → Except Error Table, (orderedProperties resolver.unit owner).mapM
    (columnOf resolver resolve owner table.kind) = .ok table.columns

theorem exists_describes (hok : rebuild resolver stack key = .ok table) :
    ∃ owner, Describes resolver owner table := by
  obtain ⟨-, owner, hfound, hbuild⟩ := rebuild_eq_ok_iff.mp hok
  obtain ⟨marker, kind, columns, hmarker, hkind, hcolumns, rfl⟩ := (buildTable_eq_ok_iff _).mp hbuild
  obtain rfl := SourceUnit.key_of_get? hfound
  refine ⟨owner, List.mem_filter.mpr ⟨List.mem_of_find?_eq_some hfound, ?_⟩, hfound, rfl, hkind, _,
    hcolumns⟩
  rw [Declaration.isTable, hmarker]
  rfl

/-- The property behind a column of a rebuilt table. -/
theorem Describes.exists_property {owner : Declaration} (howner : Describes resolver owner table)
    (hmem : column ∈ table.columns) : ∃ property ∈ orderedProperties resolver.unit owner,
      ∃ resolve : Key → Except Error Table,
        columnOf resolver resolve owner table.kind property = .ok column := by
  obtain ⟨resolve, hcolumns⟩ := howner.columns
  obtain ⟨property, hproperty, hcolumn⟩ := exists_of_mem_mapM_ok hcolumns hmem
  exact ⟨property, hproperty, resolve, hcolumn⟩

theorem isName_property (hunit : resolver.unit.Legible) (hnamed : resolver.unit.Named)
    (hok : rebuild resolver stack key = .ok table) (hmem : column ∈ table.columns) :
    isName column.property = true := by
  obtain ⟨owner, howner⟩ := exists_describes hok
  obtain ⟨property, hproperty, resolve, hcolumn⟩ := howner.exists_property hmem
  have hown := mem_properties_of_mem_ordered hproperty
  have hkind := howner.kind
  rw [(of_columnOf hcolumn).name]
  unfold entityKind at hkind
  split at hkind
  · next isUnit properties hshape =>
      rw [Declaration.properties, hshape] at hown
      exact hunit.fields owner howner.declared _ _ hshape property hown
  · next properties hshape =>
      rw [Declaration.properties, hshape] at hown
      exact (hnamed owner (List.mem_of_mem_filter howner.declared)).getters _ _ hshape property hown
  · cases hkind
  · cases hkind
  · cases hkind

theorem references_of_plain {owner : Declaration} {kind : EntityKind} {property : Property}
    {resolve : Key → Except Error Table}
    (hcolumn : columnOf resolver resolve owner kind property = .ok column)
    (hplain : column.reference = none) : property.references.isSome = false := by
  rw [← (of_columnOf hcolumn).reference, Column.isReference, hplain]
  rfl

/-- A column without reference has the type of its property, and the SQL type of that. -/
theorem legible_of_plain (hunit : resolver.unit.Legible)
    (hok : rebuild resolver stack key = .ok table) (hmem : column ∈ table.columns)
    (hplain : column.reference = none) :
    ReadsBack column.propertyType ∧ column.sqlType.Legible := by
  obtain ⟨owner, howner⟩ := exists_describes hok
  obtain ⟨property, hproperty, resolve, hcolumn⟩ := howner.exists_property hmem
  have hreference := references_of_plain hcolumn hplain
  obtain ⟨htype, hvalue⟩ := hunit.properties owner howner.declared property
    (mem_properties_of_mem_ordered hproperty)
  rw [columnOf_eq_plainColumn hreference, plainColumn_eq_ok_iff] at hcolumn
  obtain ⟨sqlType, hsqlType, rfl⟩ := hcolumn
  exact ⟨htype, legible_of_plainSqlType hunit hvalue.reads hsqlType⟩

/-- The column that a column is bound to stands in a rebuilt table; behind a reference it is that of
an interface. -/
theorem exists_table_of_bound (hok : rebuild resolver [] key = .ok table)
    (hmem : column ∈ table.columns) : ∃ owner, rebuild resolver [] owner.key = .ok owner ∧
      column.bound ∈ owner.columns ∧
      (table.kind = .interface ∨ column.reference.isSome → owner.kind = .interface) := by
  induction column using Column.bound.induct generalizing key table with
  | case1 column hnone =>
      rw [bound_of_plain hnone, hnone]
      exact ⟨table, (key_of_rebuild hok).symm ▸ hok, hmem, fun hown => hown.resolve_right Bool.false_ne_true⟩
  | case2 column reference hreference hnone =>
      obtain ⟨keyColumn, hkeyColumn, -⟩ := (refersWell_of_rebuild hok hmem hreference).only
      cases hnone.symm.trans hkeyColumn
  | case3 column reference hreference keyColumn hkeyColumn ih =>
      have hrefers := refersWell_of_rebuild hok hmem hreference
      rw [bound_of_keyColumn hreference hkeyColumn]
      obtain ⟨owner, howner, hbound, hinterface⟩ :=
        ih hrefers.rebuilt (List.mem_of_getElem? hkeyColumn)
      exact ⟨owner, howner, hbound, fun _ => hinterface (.inl hrefers.interface)⟩

theorem legible_sqlType (hunit : resolver.unit.Legible) (hok : rebuild resolver [] key = .ok table)
    (hmem : column ∈ table.columns) : column.sqlType.Legible := by
  obtain ⟨hplain, hsqlType⟩ := bound_of_rebuild hok hmem
  obtain ⟨owner, howner, hbound, -⟩ := exists_table_of_bound hok hmem
  rw [hsqlType]
  exact (legible_of_plain hunit howner hbound hplain).2

end Columns

/-! ### Rebuilt tables -/

/-- A table whose names, types and paths can be read where generated code has them. -/
structure TableOf.Legible (table : Table) : Prop where
  entity : isName table.entity = true
  module : IsPathText table.key.module
  property : ∀ column ∈ table.columns, isName column.property = true
  bound : ∀ column ∈ table.columns, ReadsBack column.bound.propertyType
  sqlType : ∀ column ∈ table.columns, column.sqlType.Legible

section Tables

variable {resolver : Resolver} {key : Key} {table : Table} {column : Column}

theorem TableOf.Legible.type (htable : table.Legible) (hmem : column ∈ table.columns)
    (hplain : column.reference = none) : ReadsBack column.propertyType := by
  have hbound := htable.bound column hmem
  rwa [bound_of_plain hplain] at hbound

theorem readsBack_bound (hunit : resolver.unit.Legible) (hok : rebuild resolver [] key = .ok table)
    (hmem : column ∈ table.columns) : ReadsBack column.bound.propertyType := by
  obtain ⟨hplain, -⟩ := bound_of_rebuild hok hmem
  obtain ⟨owner, howner, hbound, -⟩ := exists_table_of_bound hok hmem
  exact (legible_of_plain hunit howner hbound hplain).1

theorem legible_of_rebuild (hunit : resolver.unit.Legible) (hnamed : resolver.unit.Named)
    (hok : rebuild resolver [] key = .ok table) : table.Legible := by
  obtain ⟨owner, howner⟩ := exists_describes hok
  have hkey := SourceUnit.key_of_get? howner.found
  refine ⟨?_, hkey ▸ hunit.modules owner howner.declared,
    fun column hmem => isName_property hunit hnamed hok hmem,
    fun column hmem => readsBack_bound hunit hok hmem,
    fun column hmem => legible_sqlType hunit hok hmem⟩
  rw [howner.entity]
  refine (hnamed owner (List.mem_of_mem_filter howner.declared)).own fun kind hother => ?_
  have hkind := howner.kind
  rw [entityKind, hother] at hkind
  cases kind <;> cases hkind

/-- What an interface or a reference borrows is the type of a value in an interface. -/
theorem joinsBounds_bound (hborrows : resolver.unit.BorrowsWell)
    (hok : rebuild resolver [] key = .ok table) (hmem : column ∈ table.columns)
    (hborrowed : table.kind = .interface ∨ column.reference.isSome) :
    joinsBounds column.bound.propertyType = false := by
  obtain ⟨hplain, -⟩ := bound_of_rebuild hok hmem
  obtain ⟨owner, howner, hbound, hinterface⟩ := exists_table_of_bound hok hmem
  obtain ⟨declaration, hdescribes⟩ := exists_describes howner
  obtain ⟨property, hproperty, resolve, hcolumn⟩ := hdescribes.exists_property hbound
  have hkind : entityKind declaration = .ok .interface := hinterface hborrowed ▸ hdescribes.kind
  have hreference := Option.isSome_eq_false_iff.mp (references_of_plain hcolumn hplain)
  rw [(of_columnOf hcolumn).type]
  exact hborrows declaration hdescribes.declared hkind property hproperty
    (Option.isNone_iff_eq_none.mp hreference)

end Tables

end Schema

end EntityTables
