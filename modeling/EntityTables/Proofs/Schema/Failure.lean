import EntityTables.Proofs.Schema.References

/-!
# Why a table fails

The errors of building a table by where they come from: the kind of the declaration, the markers of
a reference, its target, or the column itself. Each step of a column raises errors of its own, which
are told apart from all others once here.
-/

namespace EntityTables.Schema

open EntityTables.Syntax

/-- Whether an error is one of the type of a column or of the target of a reference. -/
def isColumnError : Error → Bool
  | .unsupportedKind .. => true
  | .notSingleton .. => true
  | .notSqlType .. => true
  | .unknownSqlType .. => true
  | .ambiguousSqlType .. => true
  | .cannotInferType .. => true
  | .notATable .. => true
  | .targetNotInterface .. => true
  | .noPrimaryKey .. => true
  | .compoundPrimaryKey .. => true
  | .ambiguousReference .. => true
  | .unreadable .. => true
  | _ => false

/-- A step raises errors of a kind only. -/
def Raises {α : Type} (kind : Error → Bool) (result : Except Error α) : Prop :=
  ∀ error, result = .error error → kind error = true

section Raises

variable {α β : Type} {kind : Error → Bool} {result : Except Error α}

theorem Raises.bind {next : α → Except Error β} (hresult : Raises kind result)
    (hnext : ∀ a, Raises kind (next a)) : Raises kind (result >>= next) := by
  intro error herror
  rcases bind_eq_error_iff.mp herror with herror | ⟨a, -, herror⟩
  · exact hresult error herror
  · exact hnext a error herror

theorem Raises.map (hresult : Raises kind result) (f : α → β) : Raises kind (result.map f) := by
  intro error herror
  cases result with
  | ok a => cases herror
  | error other =>
      cases herror
      exact hresult _ rfl

theorem raises_mapM {step : α → Except Error β} (hstep : ∀ a, Raises kind (step a))
    (items : List α) : Raises kind (items.mapM step) := by
  intro error herror
  obtain ⟨item, -, hitem⟩ := exists_of_mapM_error herror
  exact hstep item error hitem

theorem raises_ok (a : α) : Raises kind (.ok a : Except Error α) := nofun

theorem raises_error {error : Error} (herror : kind error = true) :
    Raises kind (.error error : Except Error α) := by
  intro other hother
  cases hother
  exact herror

end Raises

section Steps

variable {resolver : Resolver} {owner : Declaration} {property : Property}

/-! ### The target of a reference -/

theorem raisesColumnErrors_checkTarget (at_ : PropertyRef) (target : Declaration) :
    Raises isColumnError (checkTarget at_ target) := by
  unfold checkTarget
  split
  · split
    · exact raises_error rfl
    · exact raises_error rfl
  · split
    · exact raises_error rfl
    · exact raises_error rfl
  · split
    · exact raises_ok _
    · exact raises_error rfl

theorem raisesColumnErrors_referenceTarget (unit : SourceUnit) :
    Raises isColumnError (referenceTarget unit owner property) := by
  unfold referenceTarget
  split
  · exact raises_error rfl
  · split
    · exact (raisesColumnErrors_checkTarget _ _).map _
    · exact raises_error rfl
    · exact raises_error rfl

theorem raisesColumnErrors_keyPosition (at_ : PropertyRef) (table : Table) :
    Raises isColumnError (keyPosition at_ table) := by
  unfold keyPosition
  split
  · exact raises_ok _
  · exact raises_error rfl
  · exact raises_error rfl

theorem raisesColumnErrors_referenceColumn (table : Table) :
    Raises isColumnError (referenceColumn resolver owner property table) :=
  (raisesColumnErrors_keyPosition _ table).bind fun _ => raises_ok _

/-! ### The SQL type -/

theorem raisesColumnErrors_declaredSqlType (unit : SourceUnit) (declaration : Declaration)
    (valueType : Node) : Raises isColumnError (declaredSqlType unit declaration valueType) := by
  unfold declaredSqlType
  split
  · split
    · exact raises_error rfl
    · exact raises_error rfl
    · exact raises_ok _
  · exact raises_error rfl
  · exact raises_error rfl
  · exact raises_error rfl

theorem raisesColumnErrors_builtInSqlType (path valueType : Node) :
    Raises isColumnError (builtInSqlType path valueType) := by
  unfold builtInSqlType
  split
  · exact raises_error rfl
  · split
    · exact raises_error rfl
    · split
      · exact raises_ok _
      · split
        · exact raises_ok _
        · exact raises_error rfl

theorem raisesColumnErrors_plainSqlType (unit : SourceUnit) :
    Raises isColumnError (plainSqlType unit owner property) := by
  unfold plainSqlType
  split
  · unfold explicitSqlType
    split
    · exact raisesColumnErrors_declaredSqlType _ _ _
    · exact raisesColumnErrors_builtInSqlType _ _
    · exact raises_error rfl
  · unfold inferSqlType
    split
    · exact raises_ok _
    · exact raises_error rfl

theorem raisesColumnErrors_plainColumn (kind : EntityKind) :
    Raises isColumnError (plainColumn resolver owner kind property) := by
  have hsqlType := @raisesColumnErrors_plainSqlType owner property resolver.unit
  unfold plainSqlType at hsqlType
  unfold plainColumn
  dsimp only
  cases hpath : property.column.bind (·.sqlType) with
  | some path =>
      rw [hpath] at hsqlType
      exact hsqlType.bind fun _ => raises_ok _
  | none =>
      rw [hpath] at hsqlType
      exact hsqlType.bind fun _ => raises_ok _

/-! ### Columns and tables -/

variable {key : Key} {kind : EntityKind} {resolve : Key → Except Error Table} {error : Error}

/-- A column fails by the markers of a reference, by its target, or by an error of its own. -/
theorem columnOf_eq_error (herror : columnOf resolver resolve owner kind property = .error error) :
    isColumnError error = true ∨ property.references.isSome ∧
      (checkMarkers owner property = .error error ∨ ∃ target,
        lookupTarget? resolver.unit owner property = some target ∧
          resolve target.key = .error error) := by
  by_cases hreference : property.references.isSome
  · rw [columnOf_eq_referenceColumn hreference] at herror
    simp only [bind_eq_error_iff] at herror
    rcases herror with hcheck | ⟨-, -, htarget | ⟨target, htarget, htable | ⟨table, -, hcolumn⟩⟩⟩
    · exact Or.inr ⟨hreference, Or.inl hcheck⟩
    · exact Or.inl (raisesColumnErrors_referenceTarget _ error htarget)
    · exact Or.inr ⟨hreference, Or.inr ⟨target, lookupTarget?_of_referenceTarget htarget, htable⟩⟩
    · exact Or.inl (raisesColumnErrors_referenceColumn _ error hcolumn)
  · rw [columnOf_eq_plainColumn (by simpa using hreference)] at herror
    exact Or.inl (raisesColumnErrors_plainColumn kind error herror)

/-- A table fails by the kind of its declaration, by one of its columns, or by a table that one of
them leads to. -/
theorem buildTable_eq_error_cases (howner : resolver.unit.get? key = some owner)
    (herror : buildTable resolver resolve owner = .error error) :
    isColumnError error = true ∨ entityKind owner = .error error ∨
      (∃ property ∈ orderedProperties resolver.unit owner, property.references.isSome ∧
        checkMarkers owner property = .error error) ∨
      ∃ target, ColumnRefersTo resolver.unit key target ∧ resolve target = .error error := by
  cases hmarker : owner.table with
  | none =>
      rw [buildTable_eq_error hmarker] at herror
      cases herror
      exact Or.inl rfl
  | some marker =>
      simp only [buildTable_eq_tableOf hmarker, bind_eq_error_iff] at herror
      rcases herror with hkind | ⟨kind, -, hcolumns | ⟨columns, -, hpure⟩⟩
      · exact Or.inr (Or.inl hkind)
      · obtain ⟨property, hmem, hcolumn⟩ := exists_of_mapM_error hcolumns
        rcases columnOf_eq_error hcolumn with
          hown | ⟨hreference, hmarkers | ⟨target, htarget, htable⟩⟩
        · exact Or.inl hown
        · exact Or.inr (Or.inr (Or.inl ⟨property, hmem, hreference, hmarkers⟩))
        · refine Or.inr (Or.inr (Or.inr ⟨target.key, ?_, htable⟩))
          exact ⟨owner, howner, property, hmem, hreference, target, htarget, rfl⟩
      · cases hpure

end Steps

end EntityTables.Schema
