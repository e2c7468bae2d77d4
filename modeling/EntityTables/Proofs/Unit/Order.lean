import EntityTables.Proofs.Unit.Contents
import EntityTables.Proofs.Unit.Lookup

/-!
# Looking up in another order

Units with the same contents, whose declarations have different keys, find the same declaration by
every path, and the same constructor and SQL type for a declaration that has at most one.
-/

namespace EntityTables

open EntityTables.Syntax EntityTables.Text

/-- Look-ups that select the same, with the candidates in any order. -/
inductive Lookup.Same : Lookup Declaration → Lookup Declaration → Prop
  | found (declaration : Declaration) : Lookup.Same (.found declaration) (.found declaration)
  | ambiguous {candidates others : List Declaration} (hperm : candidates.Perm others) :
      Lookup.Same (.ambiguous candidates) (.ambiguous others)
  | missing : Lookup.Same .missing .missing

namespace Lookup.Same

variable {found : Lookup Declaration}

theorem eq_found {declaration : Declaration} (hsame : Lookup.Same (.found declaration) found) :
    found = .found declaration := by
  cases hsame
  rfl

theorem exists_ambiguous {candidates : List Declaration}
    (hsame : Lookup.Same (.ambiguous candidates) found) : ∃ others, found = .ambiguous others := by
  cases hsame
  exact ⟨_, rfl⟩

theorem eq_missing (hsame : Lookup.Same .missing found) : found = .missing := by
  cases hsame
  rfl

end Lookup.Same

namespace SourceUnit

variable {first second : SourceUnit}

/-! ### What is found in another order -/

/-- The only one that passes a test is found in any order. -/
theorem find?_eq_of_perm {α : Type} {items others : List α} {test : α → Bool}
    (hperm : items.Perm others) (honly : (items.filter test).length ≤ 1) :
    items.find? test = others.find? test := by
  have hfilter : (items.filter test).Perm (others.filter test) := hperm.filter test
  have hsame : items.filter test = others.filter test := by
    rcases hitems : items.filter test with _ | ⟨only, _ | ⟨second, rest⟩⟩
    · rw [hitems] at hfilter
      rw [List.nil_perm.mp hfilter]
    · rw [hitems] at hfilter
      rw [List.singleton_perm.mp hfilter]
    · simp [hitems] at honly
  rw [← List.head?_filter, ← List.head?_filter, hsame]

theorem find?_key_eq_of_perm {α : Type} {keyOf : α → Key} {items others : List α}
    (hperm : items.Perm others) (hdistinct : (items.map keyOf).Nodup) (key : Key) :
    items.find? (keyOf · = key) = others.find? (keyOf · = key) := by
  refine find?_eq_of_perm hperm ?_
  have hkeys : (items.filter (keyOf · = key)).map keyOf =
      List.replicate (items.filter (keyOf · = key)).length key := by
    refine List.eq_replicate_iff.mpr ⟨List.length_map _, fun other hmem => ?_⟩
    obtain ⟨item, hitem, rfl⟩ := List.mem_map.mp hmem
    simpa using (List.mem_filter.mp hitem).2
  have hnodup : ((items.filter (keyOf · = key)).map keyOf).Nodup :=
    hdistinct.sublist (List.filter_sublist.map _)
  rw [hkeys] at hnodup
  exact List.nodup_replicate.mp hnodup

theorem Same.get?_eq (hsame : first.Same second) (hdistinct : first.DistinctKeys) (key : Key) :
    first.get? key = second.get? key :=
  find?_key_eq_of_perm hsame.declarations hdistinct key

/-! ### Look-ups -/

/-- The choice among candidates: the only one, the preferred one, or none. -/
theorem same_choice {candidates others : List Declaration} {preferred : Key} :
    candidates.Perm others → (candidates.map (·.key)).Nodup → Lookup.Same
      (match candidates with
        | [] => .missing
        | [only] => .found only
        | candidates => (candidates.find? (·.key = preferred)).elim (.ambiguous candidates) .found)
      (match others with
        | [] => .missing
        | [only] => .found only
        | others => (others.find? (·.key = preferred)).elim (.ambiguous others) .found) := by
  intro hperm hdistinct
  rcases candidates with _ | ⟨only, _ | ⟨next, rest⟩⟩
  · obtain rfl := List.nil_perm.mp hperm
    exact .missing
  · obtain rfl := List.singleton_perm.mp hperm
    exact .found only
  · have hlength := hperm.length_eq
    have hpreferred := find?_key_eq_of_perm hperm hdistinct preferred
    rcases others with _ | ⟨first, _ | ⟨second, others⟩⟩
    · simp at hlength
    · simp at hlength
    · dsimp only
      rw [← hpreferred]
      cases (only :: next :: rest).find? (·.key = preferred) with
      | none => exact .ambiguous hperm
      | some found => exact .found found

theorem Same.lookup (hsame : first.Same second) (hdistinct : first.DistinctKeys) (path : Node)
    (module : String) : Lookup.Same (first.lookup path module) (second.lookup path module) := by
  rw [SourceUnit.lookup, SourceUnit.lookup, lookupNames, lookupNames]
  split
  · exact .missing
  · split
    · next key _ =>
        rw [hsame.get?_eq hdistinct]
        cases second.get? ⟨key⟩ with
        | none => exact .missing
        | some declaration => exact .found declaration
    · refine same_choice (hsame.declarations.filter _) ?_
      exact hdistinct.sublist (List.filter_sublist.map _)

theorem Same.resolvesTo_eq (hsame : first.Same second) (hdistinct : first.DistinctKeys)
    (path : Node) (module : String) (key : Key) :
    first.resolvesTo path module key = second.resolvesTo path module key := by
  have hlookup := hsame.lookup hdistinct path module
  unfold resolvesTo
  cases hfirst : first.lookup path module with
  | found declaration =>
      rw [hfirst] at hlookup
      rw [hlookup.eq_found]
  | ambiguous candidates =>
      rw [hfirst] at hlookup
      obtain ⟨others, hsecond⟩ := hlookup.exists_ambiguous
      rw [hsecond]
  | missing =>
      rw [hfirst] at hlookup
      rw [hlookup.eq_missing]

/-- A declaration has at most one constructor and at most one SQL type. -/
structure AtMostOne (unit : SourceUnit) : Prop where
  constructor : ∀ declaration ∈ unit.declarations, (unit.constructors.filter fun constructor =>
    unit.resolvesTo constructor.selfType constructor.module declaration.key).length ≤ 1
  sqlTypeImpl : ∀ declaration ∈ unit.declarations, (unit.sqlTypeImpls.filter fun impl =>
    unit.resolvesTo impl.selfType impl.module declaration.key).length ≤ 1

instance (unit : SourceUnit) : Decidable unit.AtMostOne :=
  decidable_of_iff
    ((∀ declaration ∈ unit.declarations, (unit.constructors.filter fun constructor =>
        unit.resolvesTo constructor.selfType constructor.module declaration.key).length ≤ 1) ∧
      ∀ declaration ∈ unit.declarations, (unit.sqlTypeImpls.filter fun impl =>
        unit.resolvesTo impl.selfType impl.module declaration.key).length ≤ 1)
    ⟨fun h => ⟨h.1, h.2⟩, fun h => ⟨h.constructor, h.sqlTypeImpl⟩⟩

theorem Same.atMostOne (hsame : first.Same second) (hdistinct : first.DistinctKeys)
    (honly : first.AtMostOne) : second.AtMostOne where
  constructor declaration hmem := by
    have hfirst := honly.constructor declaration (hsame.declarations.mem_iff.mpr hmem)
    simp only [hsame.resolvesTo_eq hdistinct] at hfirst
    rwa [← (hsame.constructors.filter _).length_eq]
  sqlTypeImpl declaration hmem := by
    have hfirst := honly.sqlTypeImpl declaration (hsame.declarations.mem_iff.mpr hmem)
    simp only [hsame.resolvesTo_eq hdistinct] at hfirst
    rwa [← (hsame.sqlTypeImpls.filter _).length_eq]

/-- Units of the same contents that leave nothing to their order. -/
structure FindsSame (first second : SourceUnit) : Prop where
  same : first.Same second
  distinct : first.DistinctKeys
  atMostOne : first.AtMostOne

namespace FindsSame

variable {declaration : Declaration} (hfinds : first.FindsSame second)

include hfinds

theorem get?_eq (key : Key) : first.get? key = second.get? key :=
  hfinds.same.get?_eq hfinds.distinct key

theorem lookup (path : Node) (module : String) :
    Lookup.Same (first.lookup path module) (second.lookup path module) :=
  hfinds.same.lookup hfinds.distinct path module

theorem constructorParameters?_eq (hmem : declaration ∈ first.declarations) :
    first.constructorParameters? declaration = second.constructorParameters? declaration := by
  unfold constructorParameters?
  rw [find?_eq_of_perm hfinds.same.constructors (hfinds.atMostOne.constructor declaration hmem)]
  simp only [hfinds.same.resolvesTo_eq hfinds.distinct]

theorem sqlTypeImpl?_eq (hmem : declaration ∈ first.declarations) :
    first.sqlTypeImpl? declaration = second.sqlTypeImpl? declaration := by
  unfold sqlTypeImpl?
  rw [find?_eq_of_perm hfinds.same.sqlTypeImpls (hfinds.atMostOne.sqlTypeImpl declaration hmem)]
  simp only [hfinds.same.resolvesTo_eq hfinds.distinct]

end FindsSame

end SourceUnit

end EntityTables
