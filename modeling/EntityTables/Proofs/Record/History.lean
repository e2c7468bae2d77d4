import EntityTables.Proofs.Record
import Mathlib.Data.List.Induction
import Mathlib.Data.String.Basic

/-!
# Records and what was done to them

A record is filled by setting properties and emptied by taking them. Under each property it holds
what was set there last, as long as that was not taken; a property that is asked for under another
type counts as unset, and stays. So a record is a finite map from properties to typed values, which
are listed in ascending order.
-/

namespace EntityTables.EntityRecord

variable {τ ν : Type}

/-- What changes a record. -/
inductive Operation (τ ν : Type)
  | set (property : String) (type : τ) (value : ν)
  | take (property : String) (type : τ)

variable [DecidableEq τ]

def perform (record : EntityRecord τ ν) : Operation τ ν → EntityRecord τ ν
  | .set property type value => record.set property type value
  | .take property type => (record.take type property).2

/-- The record of a table after some operations on a new one. -/
def after (table : String) (operations : List (Operation τ ν)) : EntityRecord τ ν :=
  operations.foldl perform (empty table)

/-- An operation leaves a property of a record alone: it neither sets it nor takes it with success. -/
def Spares (record : EntityRecord τ ν) (property : String) : Operation τ ν → Prop
  | .set other _ _ => other ≠ property
  | .take other type => other = property → (record.take type other).1 = none

/-- The last of some operations that set a property stores a value, and none takes it later on. -/
def LastSet (table : String) (operations : List (Operation τ ν)) (property : String) (type : τ)
    (value : ν) : Prop :=
  ∃ before later, operations = before ++ .set property type value :: later ∧
    ∀ between operation rest, later = between ++ operation :: rest →
      (after table (before ++ .set property type value :: between)).Spares property operation

variable {record : EntityRecord τ ν} {table property : String} {type : τ} {value : ν}
  {operations : List (Operation τ ν)} {operation : Operation τ ν}

theorem after_concat (table : String) (operations : List (Operation τ ν))
    (operation : Operation τ ν) :
    after table (operations ++ [operation]) = (after table operations).perform operation :=
  List.foldl_concat ..

/-! ### The last operation on a property -/

/-- With one operation more, a property was set last by that operation, or it was set before and
left alone by it. -/
theorem lastSet_concat : LastSet table (operations ++ [operation]) property type value ↔
    operation = .set property type value ∨
      (after table operations).Spares property operation ∧
        LastSet table operations property type value := by
  constructor
  · rintro ⟨before, later, heq, hspares⟩
    rcases List.eq_nil_or_concat' later with rfl | ⟨front, last, rfl⟩
    · obtain ⟨-, hlast⟩ := List.append_inj' heq rfl
      exact Or.inl (List.singleton_inj.mp hlast)
    · rw [← List.cons_append, ← List.append_assoc] at heq
      obtain ⟨rfl, hlast⟩ := List.append_inj' heq rfl
      obtain rfl := List.singleton_inj.mp hlast
      refine Or.inr ⟨hspares front operation [] rfl, before, front, rfl, ?_⟩
      rintro between other rest rfl
      exact hspares between other (rest ++ [operation]) (by simp)
  · rintro (rfl | ⟨hlast, before, later, rfl, hspares⟩)
    · exact ⟨operations, [], rfl, fun between other rest heq => by simp at heq⟩
    · refine ⟨before, later ++ [operation], by simp, fun between other rest heq => ?_⟩
      rcases List.eq_nil_or_concat' rest with rfl | ⟨front, last, rfl⟩
      · obtain ⟨rfl, hother⟩ := List.append_inj' heq rfl
        obtain rfl := List.singleton_inj.mp hother
        exact hlast
      · rw [← List.cons_append, ← List.append_assoc] at heq
        exact hspares between other front (List.append_inj_left' heq rfl)

theorem not_lastSet_nil : ¬ LastSet (ν := ν) table [] property type value := by
  rintro ⟨before, later, heq, -⟩
  simp at heq

/-! ### One operation -/

theorem fst_take (record : EntityRecord τ ν) (type : τ) (property : String) :
    (record.take type property).1 = record.get? type property := by
  rw [take]
  cases record.get? type property <;> rfl

/-- Taking a property with success unsets it and leaves the others as they are. -/
theorem typed?_take (hsorted : Keyed.Sorted record.values)
    (hget : record.get? type property = some value) (other : String) :
    (record.take type property).2.typed? other =
      if property = other then none else record.typed? other := by
  rw [take_of_get? hget]
  exact Keyed.find?_erase hsorted property other

theorem sorted_perform (hsorted : Keyed.Sorted record.values) (operation : Operation τ ν) :
    Keyed.Sorted (record.perform operation).values := by
  cases operation with
  | set property type value => exact hsorted.insert _ _
  | take property type =>
      rw [perform]
      cases hget : record.get? type property with
      | none =>
          rw [take_of_get?_eq_none hget]
          exact hsorted
      | some value =>
          rw [take_of_get? hget]
          exact hsorted.erase _

theorem typed?_perform_of_spares (hsorted : Keyed.Sorted record.values)
    (hspares : record.Spares property operation) :
    (record.perform operation).typed? property = record.typed? property := by
  cases operation with
  | set other own stored =>
      rw [perform, typed?_set, if_neg hspares]
  | take other own =>
      rw [perform]
      cases hget : record.get? own other with
      | none => rw [take_of_get?_eq_none hget]
      | some stored =>
          have hne : other ≠ property := by
            intro heq
            have hnone := hspares heq
            rw [fst_take, hget] at hnone
            cases hnone
          rw [typed?_take hsorted hget, if_neg hne]

/-- What an operation that does not leave a property alone makes of it: what it sets, or nothing. -/
theorem typed?_perform_of_not_spares (hsorted : Keyed.Sorted record.values)
    (hspares : ¬ record.Spares property operation) :
    (record.perform operation).typed? property = some ⟨type, value⟩ ↔
      operation = .set property type value := by
  cases operation with
  | set other own stored =>
      obtain rfl : other = property := not_not.mp hspares
      rw [perform, typed?_set, if_pos rfl]
      simp
  | take other own =>
      obtain ⟨rfl, htaken⟩ := Classical.not_imp.mp hspares
      rw [fst_take, ← ne_eq, Option.ne_none_iff_exists'] at htaken
      obtain ⟨stored, hget⟩ := htaken
      rw [perform, typed?_take hsorted hget, if_pos rfl]
      simp

/-! ### Any operations -/

theorem sorted_after (table : String) (operations : List (Operation τ ν)) :
    Keyed.Sorted (after table operations).values := by
  induction operations using List.reverseRecOn with
  | nil => exact List.Pairwise.nil
  | append_singleton rest last ih =>
      rw [after_concat]
      exact sorted_perform ih last

/-- Under each property a record holds what was set there last. -/
theorem typed?_after : (after table operations).typed? property = some ⟨type, value⟩ ↔
    LastSet table operations property type value := by
  induction operations using List.reverseRecOn with
  | nil => exact iff_of_false nofun not_lastSet_nil
  | append_singleton rest last ih =>
      rw [after_concat, lastSet_concat]
      by_cases hspares : (after table rest).Spares property last
      · rw [typed?_perform_of_spares (sorted_after table rest) hspares, ih]
        have hother : last ≠ .set property type value := by
          rintro rfl
          exact hspares rfl
        simp [hspares, hother]
      · rw [typed?_perform_of_not_spares (sorted_after table rest) hspares]
        simp [hspares]

omit [DecidableEq τ] in
theorem mem_properties_iff (hsorted : Keyed.Sorted record.values) :
    property ∈ record.properties ↔ ∃ type value, record.typed? property = some ⟨type, value⟩ := by
  constructor
  · intro hmem
    obtain ⟨⟨own, type, value⟩, hentry, rfl⟩ := List.mem_map.mp hmem
    exact ⟨type, value, (Keyed.mem_iff_find? hsorted).mp hentry⟩
  · rintro ⟨type, value, htyped⟩
    exact List.mem_map.mpr ⟨_, Keyed.mem_of_find? htyped, rfl⟩

theorem get?_take (hsorted : Keyed.Sorted record.values)
    (hget : record.get? type property = some value) (otherType : τ) (other : String) :
    (record.take type property).2.get? otherType other =
      if other = property then none else record.get? otherType other := by
  refine Option.ext fun stored => ?_
  rw [get?_eq_some_iff, typed?_take hsorted hget]
  by_cases heq : other = property
  · simp [heq]
  · rw [if_neg (Ne.symm heq), if_neg heq, get?_eq_some_iff]

/-- **Records are finite maps of typed values.** After any operations on a new record, a property is
got under a type exactly if its last setting stored a value of that type and no later operation took
it. Taking gives what getting gives; then it removes that property and no other, and if it gives
nothing, it changes nothing. The properties that are set are listed once each in ascending order,
and the size is their number. -/
theorem finiteMap_after (table : String) (operations : List (Operation τ ν)) :
    let record := after table operations
    (∀ property type value, record.get? type property = some value ↔
      LastSet table operations property type value) ∧
    (∀ property type, (record.take type property).1 = record.get? type property ∧
      (record.get? type property = none → (record.take type property).2 = record) ∧
      (record.get? type property ≠ none → ∀ otherType other,
        (record.take type property).2.get? otherType other =
          if other = property then none else record.get? otherType other)) ∧
    (∀ property, property ∈ record.properties ↔
      ∃ type value, LastSet table operations property type value) ∧
    record.properties.Pairwise (· < ·) ∧ record.size = record.properties.length := by
  intro record
  have hsorted := sorted_after table operations
  refine ⟨fun property type value => ?_, fun property type => ⟨?_, ?_, ?_⟩, fun property => ?_, ?_,
    ?_⟩
  · rw [get?_eq_some_iff, typed?_after]
  · exact fst_take record type property
  · intro hnone
    rw [take_of_get?_eq_none hnone]
  · intro hset
    obtain ⟨value, hget⟩ := Option.ne_none_iff_exists'.mp hset
    exact get?_take hsorted hget
  · rw [mem_properties_iff hsorted]
    simp only [typed?_after]
  · exact List.pairwise_map.mpr hsorted
  · exact (List.length_map _).symm

/-- A property that is taken under another type stays, and is got under its own. -/
example : (after "employee" [.set "name" "String" 1, .set "id" "i32" 2, .take "id" "String"]).get?
    "i32" "id" = some 2 := by
  decide

end EntityTables.EntityRecord
