import EntityTables.Generated.Basic
import EntityTables.Proofs.Schema.Session

/-!
# The types in which records hold properties

A nullable column is stored in an optional type, as it is; any other column is stored in a type that
is not optional.
-/

namespace EntityTables.Generated

open EntityTables.Syntax EntityTables.Schema

theorem stripOption_optionOf {type : Node} (htype : type.isTypeArgument = true) :
    (optionOf type).stripOption = (type, true) := by
  have hcontent : (optionOf type).optionContent? = (some type).filter Node.isTypeArgument := by
    cases type <;> simp_all [Node.isTypeArgument]
    rfl
  rw [Node.stripOption, hcontent, Option.filter_some, htype]
  rfl

theorem stripOption_recordType (entity : String) :
    (recordType entity).stripOption = (recordType entity, false) := by
  have hcontent : (recordType entity).optionContent? = none := by
    have hlast : (recordType entity).plainTypePath?.bind (·.segments.getLast?) =
        some (segmentOf (recordName entity)) := rfl
    rw [Node.optionContent?, hlast]
    simp [Node.angleArguments?, segmentOf]
  rw [Node.stripOption, hcontent]

/-- The type in which a property is stored is optional if and only if its column is nullable. -/
theorem stripOption_storedType {resolver : Resolver} {resolve : Key → Except Error Table}
    {owner : Declaration} {kind : EntityKind} {property : Property} {column : Column}
    (hcolumn : columnOf resolver resolve owner kind property = .ok column) :
    column.storedType.stripOption.2 = column.nullable := by
  by_cases hreference : property.references.isSome
  · rw [columnOf_eq_referenceColumn hreference] at hcolumn
    simp only [bind_eq_ok_iff] at hcolumn
    obtain ⟨-, -, target, -, table, -, hcolumn⟩ := hcolumn
    rw [referenceColumn, bind_eq_ok_iff] at hcolumn
    obtain ⟨primaryKey, -, hcolumn⟩ := hcolumn
    cases hcolumn
    cases hnullable : property.type.stripOption.2 with
    | true =>
        have hrecord : (recordType table.entity).isTypeArgument = true := rfl
        simp [Column.storedType, stripOption_optionOf hrecord]
    | false => simp [Column.storedType, stripOption_recordType]
  · rw [columnOf_eq_plainColumn (by simpa using hreference), plainColumn] at hcolumn
    cases hstrip : property.type.stripOption with
    | mk valueType nullable =>
        simp only [hstrip] at hcolumn
        split at hcolumn
        all_goals
          obtain ⟨sqlType, -, hcolumn⟩ := bind_eq_ok_iff.mp hcolumn
          cases hcolumn
          simp [Column.storedType, hstrip]

/-- A column of a resolved table is nullable if and only if its property is stored as optional. -/
theorem nullable_of_resolved {resolver : Resolver} {key : Key} {table : Table}
    (hresolved : ((resolveTable resolver key).run .empty).1 = .ok table) {column : Column}
    (hmem : column ∈ table.columns) : column.storedType.stripOption.2 = column.nullable := by
  rw [resolveTable_empty, rebuild_eq_ok_iff] at hresolved
  obtain ⟨-, owner, -, hbuild⟩ := hresolved
  obtain ⟨marker, kind, columns, -, -, hcolumns, rfl⟩ := (buildTable_eq_ok_iff _).mp hbuild
  obtain ⟨property, -, hcolumn⟩ := exists_of_mem_mapM_ok hcolumns hmem
  exact stripOption_storedType hcolumn

end EntityTables.Generated
