import EntityTables.Unit.Lookup
import Mathlib.Data.List.Find

/-!
# What a look-up finds

A declaration that is found is the one that the unit has under its key, also where it was found as
the only one, or the preferred one, of those whose keys end in the names.
-/

namespace EntityTables.SourceUnit

variable {unit : SourceUnit} {declaration : Declaration}

theorem key_of_get? {key : Key} (hfound : unit.get? key = some declaration) :
    declaration.key = key := by
  simpa using List.find?_some hfound

/-- A test that a key passes hides no declaration with this key. -/
theorem find?_filter_eq_get? {key : Key} (test : Key → Bool) (htest : test key = true) :
    (unit.declarations.filter fun other => test other.key).find? (·.key = key) = unit.get? key := by
  rw [List.find?_filter, get?]
  refine List.find?_congr fun other _ => ?_
  by_cases hkey : other.key = key
  · simp [hkey, htest]
  · simp [hkey]

theorem get?_of_lookupNames {names : List String} {module : String}
    (hfound : unit.lookupNames names module = .found declaration) :
    unit.get? declaration.key = some declaration := by
  unfold lookupNames at hfound
  split at hfound
  · cases hfound
  · split at hfound
    · next key _ =>
        cases hget : unit.get? ⟨key⟩ with
        | none => simp [hget] at hfound
        | some found =>
            simp only [hget, Option.elim_some, Lookup.found.injEq] at hfound
            rw [← hfound, key_of_get? hget, hget]
    · split at hfound
      · cases hfound
      · next only hcandidates =>
          cases hfound
          have hends : declaration.key.endsIn names = true := by
            have hmem : declaration ∈ unit.declarations.filter (·.key.endsIn names) := by
              simp [hcandidates]
            simpa using (List.mem_filter.mp hmem).2
          rw [← find?_filter_eq_get? (·.endsIn names) hends, hcandidates]
          simp
      · next candidates _ _ =>
          cases hpreferred : (unit.declarations.filter (·.key.endsIn names)).find?
              (·.key = Key.within module (Text.joinNames names)) with
          | none => simp [hpreferred] at hfound
          | some found =>
              simp only [hpreferred, Option.elim_some, Lookup.found.injEq] at hfound
              subst hfound
              have hends : found.key.endsIn names = true := by
                simpa using (List.mem_filter.mp (List.mem_of_find?_eq_some hpreferred)).2
              have hkey : found.key = Key.within module (Text.joinNames names) := by
                simpa using List.find?_some hpreferred
              rw [← find?_filter_eq_get? (·.endsIn names) hends, hkey, hpreferred]

theorem get?_of_lookup {path : Syntax.Node} {module : String}
    (hfound : unit.lookup path module = .found declaration) :
    unit.get? declaration.key = some declaration :=
  get?_of_lookupNames hfound

end EntityTables.SourceUnit
