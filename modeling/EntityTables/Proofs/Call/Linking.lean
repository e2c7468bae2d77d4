import EntityTables.Proofs.Call.Freshness
import Mathlib.Data.List.Pairwise

/-!
# Functions in any order

Virtual functions and implementations that are registered one at a time, alone or by scans of files,
are linked as soon as both are there under a key. The pairs that a registry ends with are those of
the functions it ends with, whatever was linked in between. Where no function is registered twice,
the registry is then determined by which functions were registered, and not by their order.
-/

namespace EntityTables.Call

open EntityTables.Syntax

/-! ### The pairs of linked functions -/

/-- The pair that the functions under a key make, if both are there and belong together. -/
def Registry.linked? (registry : Registry) (key : FunctionKey) : Option Pair :=
  (registry.virtuals.find? key).bind fun virtual =>
    (registry.implementations.find? key).bind (pairOf? virtual)

/-- A registry has the pairs that its functions make and no others. -/
structure Registry.Linked (registry : Registry) : Prop where
  sortedImplementations : registry.implementations.Sorted
  pairs : ∀ key, registry.pairs.find? key = registry.linked? key

/-- A virtual function or an implementation, registered alone. -/
def Registration.isMarked : Registration → Bool
  | .pair _ => false
  | .virtual _ | .implementation _ _ => true

theorem Registry.eq_of_maps {registry other : Registry}
    (hvirtuals : registry.virtuals = other.virtuals)
    (himplementations : registry.implementations = other.implementations)
    (hpairs : registry.pairs = other.pairs) : registry = other := by
  cases registry
  cases other
  cases hvirtuals
  cases himplementations
  cases hpairs
  rfl

section Linked

variable {registry : Registry} {registrations : List Registration} {key : FunctionKey}

theorem linked?_eq_some_iff {pair : Pair} : registry.linked? key = some pair ↔
    ∃ virtual signature, registry.virtuals.find? key = some virtual ∧
      registry.implementations.find? key = some signature ∧
      Registry.pairOf? virtual signature = some pair := by
  unfold Registry.linked?
  simp only [Option.bind_eq_some_iff]
  constructor
  · rintro ⟨virtual, hvirtual, signature, hsignature, hpair⟩
    exact ⟨virtual, signature, hvirtual, hsignature, hpair⟩
  · rintro ⟨virtual, signature, hvirtual, hsignature, hpair⟩
    exact ⟨virtual, hvirtual, signature, hsignature, hpair⟩

theorem linked?_congr {other : Registry} (hvirtual : registry.virtuals.find? key =
    other.virtuals.find? key) (himplementation : registry.implementations.find? key =
      other.implementations.find? key) : registry.linked? key = other.linked? key := by
  rw [Registry.linked?, Registry.linked?, hvirtual, himplementation]

/-- Linking a key mends a registry that has the right pairs under all other keys. -/
theorem linked_link (hsortedPairs : registry.pairs.Sorted)
    (hsortedImplementations : registry.implementations.Sorted)
    (hothers : ∀ other, key ≠ other → registry.pairs.find? other = registry.linked? other)
    (hhalf : registry.virtuals.find? key = none ∨ registry.implementations.find? key = none →
      registry.pairs.find? key = none) :
    (registry.link key).Linked where
  sortedImplementations := by
    rw [implementations_link]
    exact hsortedImplementations
  pairs other := by
    have hlinked : (registry.link key).linked? other = registry.linked? other :=
      linked?_congr (by rw [virtuals_link]) (by rw [implementations_link])
    rw [hlinked]
    by_cases hkey : key = other
    · subst hkey
      cases hvirtual : registry.virtuals.find? key with
      | none =>
          rw [link_of_not_declared hvirtual, hhalf (Or.inl hvirtual), Registry.linked?, hvirtual]
          rfl
      | some virtual =>
          cases hsignature : registry.implementations.find? key with
          | none =>
              rw [link_of_not_implemented hsignature, hhalf (Or.inr hsignature), Registry.linked?,
                hvirtual, hsignature]
              rfl
          | some signature =>
              rw [find?_pairs_link hsortedPairs hvirtual hsignature, Registry.linked?, hvirtual,
                hsignature]
              rfl
    · rw [find?_pairs_link_of_ne hsortedPairs hkey, hothers other hkey]

theorem Registry.Linked.insertVirtual (hlinked : registry.Linked)
    (hsorted : registry.pairs.Sorted) (function : VirtualFunction) :
    (registry.insertVirtual function).Linked := by
  have hfind := Keyed.find?_insert registry.virtuals function.key
  refine linked_link hsorted hlinked.sortedImplementations (fun other hother => ?_) ?_
  · rw [hlinked.pairs other]
    exact linked?_congr ((hfind other function).trans (if_neg hother)).symm rfl
  · rintro (hnone | hnone)
    · rw [hfind function.key function, if_pos rfl] at hnone
      cases hnone
    · rw [hlinked.pairs function.key, Option.eq_none_iff_forall_ne_some]
      intro pair hpair
      obtain ⟨-, signature, -, hsignature, -⟩ := linked?_eq_some_iff.mp hpair
      cases hnone.symm.trans hsignature

theorem Registry.Linked.insertImplementation (hlinked : registry.Linked)
    (hsorted : registry.pairs.Sorted) (container : String) (signature : Signature) :
    (registry.insertImplementation container signature).Linked := by
  unfold Registry.insertImplementation
  cases hname : implementedName? signature.name with
  | none => exact hlinked
  | some name =>
      have hfind := Keyed.find?_insert registry.implementations ⟨container, name⟩
      refine linked_link hsorted (hlinked.sortedImplementations.insert _ _)
        (fun other hother => ?_) ?_
      · rw [hlinked.pairs other]
        exact linked?_congr rfl ((hfind other signature).trans (if_neg hother)).symm
      · rintro (hnone | hnone)
        · rw [hlinked.pairs, Option.eq_none_iff_forall_ne_some]
          intro pair hpair
          obtain ⟨virtual, -, hvirtual, -⟩ := linked?_eq_some_iff.mp hpair
          cases hnone.symm.trans hvirtual
        · rw [hfind ⟨container, name⟩ signature, if_pos rfl] at hnone
          cases hnone

/-- Marked functions leave a registry with the pairs that they make, however often and in whatever
order they are registered. -/
theorem linked_registerAll (hmarked : ∀ registration ∈ registrations, registration.isMarked) :
    (Registry.empty.registerAll registrations).Linked := by
  induction registrations using List.reverseRecOn with
  | nil => exact ⟨.nil, fun _ => rfl⟩
  | append_singleton rest last ih =>
      have hrest := ih fun registration hmem => hmarked registration (List.mem_append_left _ hmem)
      have hsorted := (holds_registerAll rest).sortedPairs
      have hlast := hmarked last (List.mem_append_right _ (List.mem_singleton_self last))
      rw [registerAll_append]
      cases last with
      | pair pair => cases hlast
      | virtual function => exact hrest.insertVirtual hsorted function
      | implementation container signature =>
          exact hrest.insertImplementation hsorted container signature

end Linked

/-! ### Functions that are registered once -/

namespace Registration

def virtualKey? : Registration → Option FunctionKey
  | .virtual function => some function.key
  | _ => none

/-- The container and the name of an implementation. -/
def implementationPlace? : Registration → Option (String × String)
  | .implementation container signature => some (container, signature.name)
  | _ => none

end Registration

/-- Marked functions of which no two virtual functions and no two implementations have the same
container and name. -/
structure DistinctFunctions (functions : List Registration) : Prop where
  marked : ∀ function ∈ functions, function.isMarked
  virtuals : (functions.filterMap Registration.virtualKey?).Nodup
  implementations : (functions.filterMap Registration.implementationPlace?).Nodup

theorem DistinctFunctions.perm {functions others : List Registration}
    (hdistinct : DistinctFunctions functions) (hperm : functions.Perm others) :
    DistinctFunctions others where
  marked function hmem := hdistinct.marked function (hperm.mem_iff.mpr hmem)
  virtuals := (hperm.filterMap _).nodup hdistinct.virtuals
  implementations := (hperm.filterMap _).nodup hdistinct.implementations

theorem eq_of_nodup_filterMap {α β : Type} {f : α → Option β} {items : List α}
    (hnodup : (items.filterMap f).Nodup) {first second : α} (hfirst : first ∈ items)
    (hsecond : second ∈ items) {b : β} (hfirstValue : f first = some b)
    (hsecondValue : f second = some b) : first = second := by
  by_contra hne
  have hpairwise := List.pairwise_filterMap.mp hnodup
  have : Std.Symm fun a a' => ∀ b, f a = some b → ∀ b', f a' = some b' → b ≠ b' :=
    ⟨fun a a' h b hb b' hb' heq => h b' hb' b hb heq.symm⟩
  exact hpairwise.forall hfirst hsecond hne b hfirstValue b hsecondValue rfl

/-- Where all that tell anything tell the same, the last of them tells what any of them tells. -/
theorem latest?_eq_some_iff {α : Type} {tell : Registration → Option α}
    {registrations : List Registration} {a : α}
    (hsame : ∀ first ∈ registrations, ∀ second ∈ registrations, ∀ b c, tell first = some b →
      tell second = some c → b = c) :
    latest? tell registrations = some a ↔ ∃ registration ∈ registrations,
      tell registration = some a := by
  induction registrations using List.reverseRecOn with
  | nil => exact ⟨nofun, nofun⟩
  | append_singleton rest last ih =>
      have hrest := ih fun first hfirst second hsecond =>
        hsame first (List.mem_append_left _ hfirst) second (List.mem_append_left _ hsecond)
      have hlast : last ∈ rest ++ [last] := List.mem_append_right _ (List.mem_singleton_self last)
      rw [latest?_snoc, Option.or_eq_some_iff, hrest]
      constructor
      · rintro (htell | ⟨-, registration, hmem, htell⟩)
        · exact ⟨last, hlast, htell⟩
        · exact ⟨registration, List.mem_append_left _ hmem, htell⟩
      · rintro ⟨registration, hmem, htell⟩
        cases hvalue : tell last with
        | some b => exact Or.inl (hsame last hlast registration hmem b a hvalue htell ▸ rfl)
        | none =>
            rcases List.mem_append.mp hmem with hmem | hmem
            · exact Or.inr ⟨rfl, registration, hmem, htell⟩
            · rw [List.mem_singleton.mp hmem, hvalue] at htell
              cases htell

theorem eq_append_of_implementedName? {name implementation : String}
    (hname : Registry.implementedName? implementation = some name) :
    implementation = implementationPrefix ++ name := by
  unfold Registry.implementedName? at hname
  dsimp only at hname
  split at hname
  · next hfront =>
      obtain ⟨rest, hrest⟩ := List.isPrefixOf_iff_prefix.mp hfront
      rw [← hrest, List.drop_left, Option.some.injEq] at hname
      rw [← String.toList_inj, String.toList_append, ← hrest, ← hname, String.toList_ofList]
  · cases hname

section Distinct

variable {functions : List Registration} {key : FunctionKey}

theorem DistinctFunctions.declared?_eq_some_iff (hdistinct : DistinctFunctions functions)
    {function : VirtualFunction} : declared? functions key = some function ↔
      .virtual function ∈ functions ∧ function.key = key := by
  have hdeclares : ∀ registration ∈ functions, ∀ declared,
      registration.declares? key = some declared ↔
        registration = .virtual declared ∧ declared.key = key := by
    intro registration hmem declared
    cases registration with
    | pair pair => cases hdistinct.marked _ hmem
    | virtual other =>
        rw [Registration.declares?, Option.ite_none_right_eq_some, Option.some.injEq,
          Registration.virtual.injEq]
        constructor
        · rintro ⟨hkey, rfl⟩
          exact ⟨rfl, hkey⟩
        · rintro ⟨rfl, hkey⟩
          exact ⟨hkey, rfl⟩
    | implementation container signature => simp [Registration.declares?]
  rw [declared?, latest?_eq_some_iff]
  · constructor
    · rintro ⟨registration, hmem, htell⟩
      obtain ⟨rfl, hkey⟩ := (hdeclares registration hmem function).mp htell
      exact ⟨hmem, hkey⟩
    · rintro ⟨hmem, hkey⟩
      exact ⟨_, hmem, (hdeclares _ hmem function).mpr ⟨rfl, hkey⟩⟩
  · intro first hfirst second hsecond one other hone hother
    obtain ⟨rfl, hkey⟩ := (hdeclares first hfirst one).mp hone
    obtain ⟨rfl, hkey'⟩ := (hdeclares second hsecond other).mp hother
    have heq := eq_of_nodup_filterMap hdistinct.virtuals hfirst hsecond
      (congrArg some hkey) (congrArg some hkey')
    exact Registration.virtual.inj heq

theorem DistinctFunctions.implemented?_eq_some_iff (hdistinct : DistinctFunctions functions)
    {signature : Signature} : implemented? functions key = some signature ↔
      .implementation key.container signature ∈ functions ∧
        Registry.implementedName? signature.name = some key.name := by
  have himplements : ∀ registration implemented,
      Registration.implements? key registration = some implemented ↔
        registration = .implementation key.container implemented ∧
          Registry.implementedName? implemented.name = some key.name := by
    intro registration implemented
    cases registration with
    | pair pair => exact ⟨nofun, fun h => nomatch h.1⟩
    | virtual other => exact ⟨nofun, fun h => nomatch h.1⟩
    | implementation container other =>
        rw [Registration.implements?, Option.ite_none_right_eq_some, Option.some.injEq,
          Registration.implementation.injEq, Option.map_eq_some_iff]
        constructor
        · rintro ⟨⟨name, hname, rfl⟩, rfl⟩
          exact ⟨⟨rfl, rfl⟩, hname⟩
        · rintro ⟨⟨rfl, rfl⟩, hname⟩
          exact ⟨⟨key.name, hname, rfl⟩, rfl⟩
  rw [implemented?, latest?_eq_some_iff]
  · constructor
    · rintro ⟨registration, hmem, htell⟩
      obtain ⟨rfl, hname⟩ := (himplements registration signature).mp htell
      exact ⟨hmem, hname⟩
    · rintro ⟨hmem, hname⟩
      exact ⟨_, hmem, (himplements _ signature).mpr ⟨rfl, hname⟩⟩
  · intro first hfirst second hsecond one other hone hother
    obtain ⟨rfl, hname⟩ := (himplements first one).mp hone
    obtain ⟨rfl, hname'⟩ := (himplements second other).mp hother
    -- implementations of one key have one name, for the name of the key follows a fixed prefix
    have hplace : one.name = other.name := by
      rw [eq_append_of_implementedName? hname, eq_append_of_implementedName? hname']
    have heq := eq_of_nodup_filterMap hdistinct.implementations hfirst hsecond
      (congrArg (fun name => some (key.container, name)) hplace) rfl
    exact (Registration.implementation.inj heq).2

/-- What is paired after distinct functions were registered. -/
theorem DistinctFunctions.find?_pairs_eq_some_iff (hdistinct : DistinctFunctions functions)
    {pair : Pair} : (Registry.empty.registerAll functions).pairs.find? key = some pair ↔
      ∃ virtual signature, .virtual virtual ∈ functions ∧ virtual.key = key ∧
        .implementation key.container signature ∈ functions ∧
        Registry.implementedName? signature.name = some key.name ∧
        Pair.derive? virtual = some pair ∧ pair.implementation.conforms signature := by
  have hholds := holds_registerAll functions
  rw [(linked_registerAll hdistinct.marked).pairs key, linked?_eq_some_iff]
  simp only [hholds.virtuals, hholds.implementations, hdistinct.declared?_eq_some_iff,
    hdistinct.implemented?_eq_some_iff, Registry.pairOf?, Option.filter_eq_some_iff, and_assoc]

/-- Distinct functions give one registry in whatever order they are registered. -/
theorem DistinctFunctions.registerAll_eq (hdistinct : DistinctFunctions functions)
    {others : List Registration} (hperm : functions.Perm others) :
    Registry.empty.registerAll functions = Registry.empty.registerAll others := by
  have hothers := hdistinct.perm hperm
  have hholds := holds_registerAll functions
  have hholdsOthers := holds_registerAll others
  have hlinked := linked_registerAll hdistinct.marked
  have hlinkedOthers := linked_registerAll hothers.marked
  have hvirtuals : (Registry.empty.registerAll functions).virtuals =
      (Registry.empty.registerAll others).virtuals := by
    refine hholds.sortedVirtuals.ext hholdsOthers.sortedVirtuals fun key => Option.ext fun _ => ?_
    rw [hholds.virtuals, hholdsOthers.virtuals, hdistinct.declared?_eq_some_iff,
      hothers.declared?_eq_some_iff, hperm.mem_iff]
  have himplementations : (Registry.empty.registerAll functions).implementations =
      (Registry.empty.registerAll others).implementations := by
    refine hlinked.sortedImplementations.ext hlinkedOthers.sortedImplementations
      fun key => Option.ext fun _ => ?_
    rw [hholds.implementations, hholdsOthers.implementations,
      hdistinct.implemented?_eq_some_iff, hothers.implemented?_eq_some_iff, hperm.mem_iff]
  have hpairs : (Registry.empty.registerAll functions).pairs =
      (Registry.empty.registerAll others).pairs := by
    refine hholds.sortedPairs.ext hholdsOthers.sortedPairs fun key => ?_
    rw [hlinked.pairs, hlinkedOthers.pairs]
    exact linked?_congr (by rw [hvirtuals]) (by rw [himplementations])
  exact Registry.eq_of_maps hvirtuals himplementations hpairs

/-- **Functions in any order.** Registrations and scans of files that register distinct functions
give one registry, whatever their order and however the functions are spread over the files. It has
the virtual functions among them, and a pair under each key that has both halves if the
implementation conforms to the one derived from the virtual function. -/
theorem after_eq_of_perm (hdistinct : DistinctFunctions functions) (operations : List Operation)
    (hperm : (operations.flatMap Operation.registrations).Perm functions) :
    let registry := Registry.after operations
    registry = Registry.empty.registerAll functions ∧
      (∀ key function, registry.virtuals.find? key = some function ↔
        .virtual function ∈ functions ∧ function.key = key) ∧
      ∀ key pair, registry.pairs.find? key = some pair ↔
        ∃ virtual signature, .virtual virtual ∈ functions ∧ virtual.key = key ∧
          .implementation key.container signature ∈ functions ∧
          Registry.implementedName? signature.name = some key.name ∧
          Pair.derive? virtual = some pair ∧ pair.implementation.conforms signature := by
  intro registry
  have hregistry : registry = Registry.empty.registerAll functions := by
    rw [hdistinct.registerAll_eq hperm.symm]
    exact after_eq operations
  refine ⟨hregistry, fun key function => ?_, fun key pair => ?_⟩
  · rw [hregistry, (holds_registerAll functions).virtuals, hdistinct.declared?_eq_some_iff]
  · rw [hregistry, hdistinct.find?_pairs_eq_some_iff]

end Distinct

section Instance

/-- A function with a marker, as it stands in a file. -/
def markedItem (marker : String) (signature : Signature) : Node :=
  .phrase .fnItem [.phrase .attributes [plainAttribute (pathOf [segmentOf marker])],
    .empty .visibility, signature.toNode, braces []]

def signatureOf (name : String) (parameters : List (String × Node)) : Signature where
  name := name
  hasGenerics := false
  inputs := parameters.map fun (name, type) => Signature.inputOf name type
  output := .empty .returnType

/-- The implementation of a function in the crate, and that of another one in a module. -/
def implementingFile (first second : Signature) : Node :=
  .phrase .file [.empty .attributes, markedItem implementationMarker first,
    .phrase .modItem [.empty .attributes, .empty .visibility, .empty .qualifiers, .ident "mod",
      .ident "hr", braces [.empty .attributes, markedItem implementationMarker second]]]

def firstDeclared : VirtualFunction :=
  .ofSignature "crate" (signatureOf "F" [("x", namedType "i32")])

def secondDeclared : VirtualFunction :=
  .ofSignature "crate::hr" (signatureOf "G" [("x", namedType "i32")])

/-- An implementation without its word of flags. -/
def firstImplemented : Signature := signatureOf "__impl_F" [("x", optionOf (namedType "i32"))]

def secondImplemented : Signature :=
  signatureOf "__impl_G" [("x", optionOf (namedType "i32")), ("flag", namedType "u32")]

/-- A file that implements two functions is scanned before they are declared. -/
theorem after_eq_of_perm_scanned :
    let functions : List Registration := [.virtual secondDeclared, .virtual firstDeclared,
      .implementation "crate::hr" secondImplemented, .implementation "crate" firstImplemented]
    let operations : List Operation :=
      [.scan "crate" (implementingFile firstImplemented secondImplemented),
        .register (.virtual firstDeclared), .register (.virtual secondDeclared)]
    DistinctFunctions functions ∧
      (operations.flatMap Operation.registrations).Perm functions ∧
      Registry.after operations = Registry.empty.registerAll functions ∧
      (Registry.after operations).pairs.find? ⟨"crate", "F"⟩ = none ∧
      ∃ pair, Pair.derive? secondDeclared = some pair ∧
        (Registry.after operations).pairs.find? ⟨"crate::hr", "G"⟩ = some pair := by
  intro functions operations
  have hdistinct : DistinctFunctions functions := ⟨by decide, by decide, by decide⟩
  have hperm : (operations.flatMap Operation.registrations).Perm functions :=
    List.reverse_perm functions
  obtain ⟨hregistry, -, hpairs⟩ := after_eq_of_perm hdistinct operations hperm
  have hwrong : (Registry.after operations).pairs.find? ⟨"crate", "F"⟩ = none :=
    Option.isNone_iff_eq_none.mp (by decide +kernel)
  refine ⟨hdistinct, hperm, hregistry, hwrong, _, rfl, ?_⟩
  exact (hpairs ⟨"crate::hr", "G"⟩ _).mpr ⟨secondDeclared, secondImplemented,
    by simp [functions], rfl, by simp [functions], rfl, rfl, by decide⟩

end Instance

end EntityTables.Call
