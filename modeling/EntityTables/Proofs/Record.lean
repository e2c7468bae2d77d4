import EntityTables.Proofs.Keyed
import EntityTables.Record

/-!
# What records hold

Setting or taking a property changes what is found under it and nothing else. A value is got under
the type that it is kept with.
-/

namespace EntityTables

namespace EntityRecord

variable {τ ν : Type}

/-- What a property is set to, with the type under which it is kept. -/
def typed? (record : EntityRecord τ ν) (property : String) : Option (Typed τ ν) :=
  Keyed.find? record.values property

/-- What a property is set to. -/
def value? (record : EntityRecord τ ν) (property : String) : Option ν :=
  (record.typed? property).map (·.value)

theorem value?_of_typed? {record : EntityRecord τ ν} {property : String} {type : τ}
    {value : Option ν} (htyped : record.typed? property = value.map (Typed.mk type)) :
    record.value? property = value := by
  rw [value?, htyped, Option.map_map]
  exact Option.map_id'

theorem typed?_empty (table property : String) :
    (empty table : EntityRecord τ ν).typed? property = none := rfl

theorem typed?_set (record : EntityRecord τ ν) (property other : String) (type : τ) (value : ν) :
    (record.set property type value).typed? other =
      if property = other then some ⟨type, value⟩ else record.typed? other :=
  Keyed.find?_insert record.values property other ⟨type, value⟩

theorem contains_eq_isSome (record : EntityRecord τ ν) (property : String) :
    record.contains property = (record.typed? property).isSome := rfl

section Types

variable [DecidableEq τ] {record : EntityRecord τ ν} {type : τ} {property : String} {value : ν}

theorem get?_eq_some_iff :
    record.get? type property = some value ↔ record.typed? property = some ⟨type, value⟩ := by
  rw [get?, typed?]
  cases Keyed.find? record.values property with
  | none => simp
  | some typed =>
      obtain ⟨own, stored⟩ := typed
      simp

/-- Nothing is got of a property that is not set or has another type. -/
theorem get?_eq_none_iff :
    record.get? type property = none ↔ ∀ value, record.typed? property ≠ some ⟨type, value⟩ := by
  simp only [Option.eq_none_iff_forall_ne_some, ne_eq, get?_eq_some_iff]

theorem take_of_get? (hget : record.get? type property = some value) :
    record.take type property =
      (some value, { record with values := Keyed.erase record.values property }) := by
  rw [take, hget]

theorem take_of_get?_eq_none (hget : record.get? type property = none) :
    record.take type property = (none, record) := by
  rw [take, hget]

/-- Removing a property leaves the others as they are. -/
theorem get?_erase_of_ne {other : String} (hne : other ≠ property) :
    EntityRecord.get? { record with values := Keyed.erase record.values property } type other =
      record.get? type other := by
  rw [get?, get?, Keyed.find?_erase_of_ne record.values hne]

end Types

end EntityRecord

end EntityTables
