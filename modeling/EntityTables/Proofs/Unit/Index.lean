import EntityTables.Unit.Basic
import Mathlib.Data.List.Basic

/-!
# The index of a unit

The index of a unit maps a key to the position of the first declaration with that key. So what the
index finds is what a search among all declarations finds.
-/

namespace EntityTables

/-- Positions that are counted from an offset are those of the search, moved by it. -/
theorem lookup_zipIdx (declarations : List Declaration) (offset : Nat) (key : Key) :
    ((declarations.zipIdx offset).map fun (declaration, position) =>
      (declaration.key, position)).lookup key =
        (declarations.findIdx? (·.key = key)).map (· + offset) := by
  induction declarations generalizing offset with
  | nil => rfl
  | cons declaration rest ih =>
      rw [List.zipIdx_cons, List.map_cons, List.findIdx?_cons]
      by_cases hkey : declaration.key = key
      · simp [hkey]
      · rw [List.lookup_cons, beq_false_of_ne (Ne.symm hkey)]
        simp [hkey, ih, Function.comp_def, Nat.add_assoc, Nat.add_comm 1]

theorem lookup_positions (declarations : List Declaration) (key : Key) :
    (positions declarations).lookup key = declarations.findIdx? (·.key = key) := by
  rw [positions, lookup_zipIdx]
  simp

namespace SourceUnit

theorem lookup_index (unit : SourceUnit) (key : Key) :
    unit.index.lookup key = unit.declarations.findIdx? (·.key = key) := by
  rw [unit.index_eq, lookup_positions]

/-- The index finds what a search among all declarations finds. -/
theorem indexed?_eq_get? (unit : SourceUnit) (key : Key) : unit.indexed? key = unit.get? key := by
  rw [indexed?, lookup_index, get?, List.find?_eq_bind_findIdx?_getElem?]

theorem isSome_lookup_index (unit : SourceUnit) (key : Key) :
    (unit.index.lookup key).isSome = (unit.get? key).isSome := by
  rw [lookup_index, List.findIdx?_isSome, get?, Bool.eq_iff_iff, List.find?_isSome, List.any_eq_true]

/-- Units are equal that declare, implement and configure the same: the index follows. -/
@[ext]
theorem ext {first second : SourceUnit} (hdeclarations : first.declarations = second.declarations)
    (hconstructors : first.constructors = second.constructors)
    (hsqlTypeImpls : first.sqlTypeImpls = second.sqlTypeImpls)
    (hconfig : first.config = second.config) : first = second := by
  obtain ⟨declarations, index, constructors, sqlTypeImpls, config, hindex⟩ := first
  obtain ⟨others, otherIndex, otherConstructors, otherImpls, otherConfig, hother⟩ := second
  subst hindex hother hconstructors hsqlTypeImpls hconfig
  cases hdeclarations
  rfl

/-- A declaration is added unless a search finds one with its key. -/
theorem declarations_insert (unit : SourceUnit) (declaration : Declaration) :
    (unit.insert declaration).declarations =
      if (unit.get? declaration.key).isSome then unit.declarations
      else unit.declarations ++ [declaration] := by
  unfold insert
  rw [isSome_lookup_index]
  split <;> rfl

@[simp]
theorem constructors_insert (unit : SourceUnit) (declaration : Declaration) :
    (unit.insert declaration).constructors = unit.constructors := by
  unfold insert
  split <;> rfl

@[simp]
theorem sqlTypeImpls_insert (unit : SourceUnit) (declaration : Declaration) :
    (unit.insert declaration).sqlTypeImpls = unit.sqlTypeImpls := by
  unfold insert
  split <;> rfl

@[simp]
theorem config_insert (unit : SourceUnit) (declaration : Declaration) :
    (unit.insert declaration).config = unit.config := by
  unfold insert
  split <;> rfl

end SourceUnit

end EntityTables
