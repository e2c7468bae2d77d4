import EntityTables.Text.QualifiedName
import Mathlib.Data.List.Basic

/-!
# Names and qualified names

Names without colons are told apart in the qualified name that they make: cutting it gives them
back, and the part behind its last pair of colons is the last of them.
-/

namespace EntityTables.Text

def IsName (name : String) : Prop := name ≠ "" ∧ ':' ∉ name.toList

/-! ### Joining and cutting -/

theorem splitColons_of_not_mem {part : List Char} (hpart : ':' ∉ part) :
    splitColons part = [part] := by
  induction part with
  | nil => rfl
  | cons c rest ih =>
      rw [List.mem_cons, not_or] at hpart
      rw [splitColons, ih hpart.2]
      rintro tail rfl
      exact absurd rfl hpart.1

theorem splitColons_append {part rest : List Char} (hpart : ':' ∉ part) :
    splitColons (part ++ ':' :: ':' :: rest) = part :: splitColons rest := by
  induction part with
  | nil => rfl
  | cons c front ih =>
      rw [List.mem_cons, not_or] at hpart
      rw [List.cons_append, splitColons, ih hpart.2]
      rintro tail rfl
      exact absurd rfl hpart.1

theorem nameWithin_toList (module name : String) :
    (nameWithin module name).toList = module.toList ++ ':' :: ':' :: name.toList := by
  simp [nameWithin, String.toList_append]

theorem nameParts_of_isName {name : String} (hname : IsName name) : nameParts name = [name] := by
  rw [nameParts, splitColons_of_not_mem hname.2]
  simp

theorem nameParts_nameWithin {front name : String} (hfront : IsName front) :
    nameParts (nameWithin front name) = front :: nameParts name := by
  rw [nameParts, nameWithin_toList, splitColons_append hfront.2]
  simp [nameParts]

theorem joinNames_singleton (name : String) : joinNames [name] = name :=
  String.intercalate_singleton

theorem joinNames_append {first second : List String} (hfirst : first ≠ []) (hsecond : second ≠ []) :
    joinNames (first ++ second) = nameWithin (joinNames first) (joinNames second) :=
  String.intercalate_append_of_ne_nil hfirst hsecond

theorem joinNames_concat {names : List String} (hnames : names ≠ []) (name : String) :
    joinNames (names ++ [name]) = nameWithin (joinNames names) name := by
  rw [joinNames_append hnames (List.cons_ne_nil _ _), joinNames_singleton]

/-- Cutting a qualified name gives the names that it is made of. -/
theorem nameParts_joinNames {names : List String} (hne : names ≠ [])
    (hnames : ∀ name ∈ names, IsName name) : nameParts (joinNames names) = names := by
  induction names with
  | nil => exact absurd rfl hne
  | cons front rest ih =>
      have hfront := hnames front List.mem_cons_self
      cases rest with
      | nil => rw [joinNames_singleton, nameParts_of_isName hfront]
      | cons second others =>
          rw [← List.singleton_append, joinNames_append (List.cons_ne_nil _ _)
            (List.cons_ne_nil _ _), joinNames_singleton, nameParts_nameWithin hfront,
            ih (List.cons_ne_nil _ _) fun name hmem => hnames name (List.mem_cons_of_mem _ hmem)]
          rfl

/-! ### The last name -/

theorem splitLastColons_append {after name rest : List Char} (hname : ':' ∉ name) :
    splitLastColons after (name ++ ':' :: ':' :: rest) =
      some (rest.reverse, name.reverse ++ after) := by
  induction name generalizing after with
  | nil => rfl
  | cons c front ih =>
      rw [List.mem_cons, not_or] at hname
      rw [List.cons_append, splitLastColons, ih hname.2]
      · simp
      · rintro tail rfl
        exact absurd rfl hname.1

/-- The last pair of colons stands before a name without colons, whatever stands before it. -/
theorem splitLast?_nameWithin {name : String} (hname : ':' ∉ name.toList) (module : String) :
    splitLast? (nameWithin module name) = some (module, name) := by
  have hreversed : (nameWithin module name).toList.reverse =
      name.toList.reverse ++ ':' :: ':' :: module.toList.reverse := by
    simp [nameWithin_toList]
  rw [splitLast?, hreversed, splitLastColons_append (by simpa using hname)]
  simp

theorem nameWithin_inj {first second name other : String} (hname : ':' ∉ name.toList)
    (hother : ':' ∉ other.toList) (hsame : nameWithin first name = nameWithin second other) :
    first = second ∧ name = other := by
  have hsplit := splitLast?_nameWithin hname first
  rw [hsame, splitLast?_nameWithin hother, Option.some.injEq, Prod.mk.injEq] at hsplit
  exact ⟨hsplit.1.symm, hsplit.2.symm⟩

end EntityTables.Text
