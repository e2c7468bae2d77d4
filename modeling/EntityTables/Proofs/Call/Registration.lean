import EntityTables.Call.Pass
import EntityTables.Proofs.Call.Slots
import EntityTables.Proofs.Keyed
import Mathlib.Data.String.Basic

/-!
# Registrations

A registry is filled by pairs, by virtual functions and implementations one at a time, and by
scanned files, which register the marked functions in them. Each registration changes what is under
one key.
-/

namespace EntityTables.Call

open EntityTables.Syntax

instance : IsStrictTotalOrder FunctionKey (· < ·) where
  trichotomous := by
    intro ⟨container, name⟩ ⟨otherContainer, otherName⟩ hlt hgt
    have hcontainer : container = otherContainer := by
      rcases lt_trichotomy container otherContainer with h | h | h
      · exact absurd (Or.inl h) hlt
      · exact h
      · exact absurd (Or.inl h) hgt
    have hname : name = otherName := by
      rcases lt_trichotomy name otherName with h | h | h
      · exact absurd (Or.inr ⟨hcontainer, h⟩) hlt
      · exact h
      · exact absurd (Or.inr ⟨hcontainer.symm, h⟩) hgt
    rw [hcontainer, hname]
  irrefl := by
    intro key hlt
    rcases hlt with h | ⟨-, h⟩
    · exact String.lt_irrefl _ h
    · exact String.lt_irrefl _ h
  trans := by
    intro first second third hfirst hsecond
    rcases hfirst with hfirst | ⟨hfirst, hfirst'⟩
    · rcases hsecond with hsecond | ⟨hsecond, -⟩
      · exact Or.inl (lt_trans hfirst hsecond)
      · exact Or.inl (hsecond ▸ hfirst)
    · rcases hsecond with hsecond | ⟨hsecond, hsecond'⟩
      · exact Or.inl (hfirst ▸ hsecond)
      · exact Or.inr ⟨hfirst.trans hsecond, lt_trans hfirst' hsecond'⟩

/-! ### Registrations -/

/-- What is registered at a time: a pair, a virtual function, or an implementation. -/
inductive Registration
  | pair (pair : Pair)
  | virtual (function : VirtualFunction)
  | implementation (container : String) (signature : Signature)

namespace Registry

def register (registry : Registry) : Registration → Registry
  | .pair pair => registry.insertPair pair
  | .virtual function => registry.insertVirtual function
  | .implementation container signature => registry.insertImplementation container signature

def registerAll (registry : Registry) (registrations : List Registration) : Registry :=
  registrations.foldl register registry

end Registry

/-- What a scan registers for a function, if it has a marker. -/
def functionRegistrations (container : String) (attributes : List Node) (signature : Node) :
    List Registration :=
  match Signature.ofNode? signature with
  | none => []
  | some signature =>
    if Node.anyMarker virtualMarker attributes then [.virtual (.ofSignature container signature)]
    else if Node.anyMarker implementationMarker attributes then
      [.implementation container signature]
    else []

/-- What a scan registers for a member of an implementation block. -/
def memberRegistrations (container : String) : Node → List Registration
  | .phrase .implFn [attributes, visibility, qualifiers, signature, body] =>
    functionRegistrations container
      (Node.phrase .implFn [attributes, visibility, qualifiers, signature, body]).attributes
      signature
  | _ => []

/-- What a scan registers for an item. -/
def itemRegistrations (module : String) : Node → List Registration
  | .phrase .fnItem [attributes, visibility, signature, body] =>
    functionRegistrations module
      (Node.phrase .fnItem [attributes, visibility, signature, body]).attributes signature
  | .phrase .implItem [_, _, _, _, _, selfType, _, body] =>
    match selfType.typePath? with
    | none => []
    | some path =>
      body.parts.flatMap (memberRegistrations (Text.nameWithin module path.pathText))
  | _ => []

def fileRegistrations (container : String) (file : Node) : List Registration :=
  (placeItems container (file.parts.drop 1)).flatMap fun placed =>
    itemRegistrations placed.module placed.item

/-- What is done to a registry: a registration, or the scan of a file. -/
inductive Operation
  | register (registration : Registration)
  | scan (container : String) (file : Node)

def Operation.registrations : Operation → List Registration
  | .register registration => [registration]
  | .scan container file => fileRegistrations container file

def Registry.perform (registry : Registry) : Operation → Registry
  | .register registration => registry.register registration
  | .scan container file => registry.scanFile container file

/-- The registry after some operations, one after the other, on an empty one. -/
def Registry.after (operations : List Operation) : Registry := operations.foldl perform empty

section Scanning

variable (registry : Registry)

theorem registerAll_append (first second : List Registration) :
    registry.registerAll (first ++ second) = (registry.registerAll first).registerAll second :=
  List.foldl_append

theorem foldl_registerAll {α : Type} (registrations : α → List Registration) (items : List α) :
    items.foldl (fun registry item => registry.registerAll (registrations item)) registry =
      registry.registerAll (items.flatMap registrations) := by
  induction items generalizing registry with
  | nil => rfl
  | cons item rest ih => rw [List.foldl_cons, ih, List.flatMap_cons, registerAll_append]

theorem scanFunction_eq (container : String) (attributes : List Node) (signature : Node) :
    registry.scanFunction container attributes signature =
      registry.registerAll (functionRegistrations container attributes signature) := by
  unfold Registry.scanFunction functionRegistrations
  cases Signature.ofNode? signature with
  | none => rfl
  | some signature =>
      dsimp only
      split
      · rfl
      · split <;> rfl

theorem scanMember_eq (container : String) (member : Node) :
    (match member with
      | .phrase .implFn [attributes, visibility, qualifiers, signature, body] =>
        let item := Node.phrase .implFn [attributes, visibility, qualifiers, signature, body]
        registry.scanFunction container item.attributes signature
      | _ => registry) = registry.registerAll (memberRegistrations container member) := by
  unfold memberRegistrations
  split
  · exact scanFunction_eq registry _ _ _
  · rfl

theorem scanItem_eq (module : String) (item : Node) :
    registry.scanItem ⟨module, item⟩ = registry.registerAll (itemRegistrations module item) := by
  unfold itemRegistrations
  split
  · exact scanFunction_eq registry _ _ _
  · next selfType _ body =>
      unfold Registry.scanItem
      cases hpath : selfType.typePath? with
      | none => simp only [hpath]; rfl
      | some path =>
          simp only [hpath, ← foldl_registerAll]
          congr 1
          funext registry member
          exact scanMember_eq registry _ member
  · next hfn himpl =>
      unfold Registry.scanItem
      split
      · next h => exact absurd h (hfn _ _ _ _)
      · next h => exact absurd h (himpl _ _ _ _ _ _ _ _)
      · rfl

/-- A scan registers the marked functions of a file in their order. -/
theorem scanFile_eq (container : String) (file : Node) :
    registry.scanFile container file = registry.registerAll (fileRegistrations container file) := by
  rw [Registry.scanFile, fileRegistrations, ← foldl_registerAll]
  congr 1
  funext registry placed
  exact scanItem_eq registry placed.module placed.item

theorem perform_eq (operation : Operation) :
    registry.perform operation = registry.registerAll operation.registrations := by
  cases operation with
  | register registration => rfl
  | scan container file => exact scanFile_eq registry container file

theorem after_eq (operations : List Operation) : Registry.after operations =
    Registry.empty.registerAll (operations.flatMap Operation.registrations) := by
  rw [← foldl_registerAll, Registry.after]
  congr 1
  funext registry operation
  exact perform_eq registry operation

end Scanning

/-! ### Linking -/

/-- A name with the prefix of implementations is that of an implementation. -/
theorem implementedName?_of_implementationName? {name implementation : String}
    (hname : implementationName? name = some implementation) :
    Registry.implementedName? implementation = some name := by
  unfold implementationName? at hname
  split at hname
  · cases hname
  · rw [← Option.some.inj hname, Registry.implementedName?, if_pos]
    · simp
    · simp [String.toList_append]

theorem virtual_of_pairOf? {virtual : VirtualFunction} {signature : Signature} {pair : Pair}
    (hpair : Registry.pairOf? virtual signature = some pair) : pair.virtual = virtual := by
  rw [Registry.pairOf?, Option.filter_eq_some_iff] at hpair
  exact (derive?_eq_some hpair.1).1

section Link

variable {registry : Registry} {key : FunctionKey}

theorem virtuals_link : (registry.link key).virtuals = registry.virtuals := by
  unfold Registry.link
  split
  · split <;> rfl
  · rfl

theorem implementations_link :
    (registry.link key).implementations = registry.implementations := by
  unfold Registry.link
  split
  · split <;> rfl
  · rfl

theorem sorted_pairs_link (hsorted : registry.pairs.Sorted) :
    (registry.link key).pairs.Sorted := by
  unfold Registry.link
  split
  · split
    · exact hsorted.insert _ _
    · exact hsorted.erase _
  · exact hsorted

/-- Linking touches the pair under its key alone. -/
theorem find?_pairs_link_of_ne (hsorted : registry.pairs.Sorted) {other : FunctionKey}
    (hne : key ≠ other) : (registry.link key).pairs.find? other = registry.pairs.find? other := by
  unfold Registry.link
  split
  · split
    · exact (Keyed.find?_insert _ _ _ _).trans (if_neg hne)
    · exact (Keyed.find?_erase hsorted _ _).trans (if_neg hne)
  · rfl

/-- Linking pairs the functions under its key anew if there are both. -/
theorem find?_pairs_link {virtual : VirtualFunction} {signature : Signature}
    (hsorted : registry.pairs.Sorted) (hvirtual : registry.virtuals.find? key = some virtual)
    (himplementation : registry.implementations.find? key = some signature) :
    (registry.link key).pairs.find? key = Registry.pairOf? virtual signature := by
  unfold Registry.link
  simp only [hvirtual, himplementation]
  cases Registry.pairOf? virtual signature with
  | some pair => exact (Keyed.find?_insert _ _ _ _).trans (if_pos rfl)
  | none => exact (Keyed.find?_erase hsorted _ _).trans (if_pos rfl)

theorem link_of_not_implemented (hnone : registry.implementations.find? key = none) :
    registry.link key = registry := by
  unfold Registry.link
  rw [hnone]
  split
  · next himplementation => cases himplementation
  · rfl

theorem link_of_not_declared (hnone : registry.virtuals.find? key = none) :
    registry.link key = registry := by
  unfold Registry.link
  rw [hnone]

/-- A virtual function and then an implementation that belongs to it end in the pair of both. -/
theorem registerAll_of_pairOf? {virtual : VirtualFunction} {signature : Signature} {pair : Pair}
    (hpair : Registry.pairOf? virtual signature = some pair)
    (hname : Registry.implementedName? signature.name = some virtual.name)
    (hsorted : registry.pairs.Sorted) :
    let registered := registry.registerAll
      [.virtual virtual, .implementation virtual.container signature]
    registered.virtuals = (registry.insertPair pair).virtuals ∧
      registered.pairs = (registry.insertPair pair).pairs := by
  intro registered
  set declared := registry.insertVirtual virtual
  have hregistered : registered = Registry.link
      { declared with
        implementations := declared.implementations.insert virtual.key signature } virtual.key := by
    change declared.insertImplementation virtual.container signature = _
    rw [Registry.insertImplementation, hname]
    rfl
  have hvirtuals : declared.virtuals = registry.virtuals.insert virtual.key virtual := virtuals_link
  have hsortedDeclared : declared.pairs.Sorted := sorted_pairs_link hsorted
  rw [Registry.insertPair, virtual_of_pairOf? hpair]
  refine ⟨by rw [hregistered, virtuals_link, hvirtuals], ?_⟩
  refine Keyed.Sorted.ext ?_ (hsorted.insert _ _) fun key => ?_
  · rw [hregistered]
    exact sorted_pairs_link hsortedDeclared
  · refine Eq.trans ?_ (Keyed.find?_insert registry.pairs virtual.key key pair).symm
    by_cases hkey : virtual.key = key
    · subst hkey
      rw [hregistered, if_pos rfl, ← hpair]
      refine find?_pairs_link hsortedDeclared ?_ ?_
      · exact hvirtuals ▸ (Keyed.find?_insert _ _ _ _).trans (if_pos rfl)
      · exact (Keyed.find?_insert _ _ _ _).trans (if_pos rfl)
    · rw [hregistered, if_neg hkey]
      refine (find?_pairs_link_of_ne ?_ hkey).trans (find?_pairs_link_of_ne ?_ hkey)
      · exact hsortedDeclared
      · exact hsorted

end Link

/-! ### What a call resolves to -/

section Resolve

variable {registry : Registry} {pair : Pair}

/-- A list without repetitions has one element alone if there is no other. -/
theorem eq_singleton_iff_of_nodup {α : Type} {keys : List α} {key : α} (hnodup : keys.Nodup) :
    keys = [key] ↔ key ∈ keys ∧ ∀ other ∈ keys, other = key := by
  constructor
  · rintro rfl
    exact ⟨List.mem_singleton_self key, fun other => List.mem_singleton.mp⟩
  · rintro ⟨hmem, honly⟩
    exact List.perm_singleton.mp ((List.perm_ext_iff_of_nodup hnodup (List.nodup_singleton key)).mpr
      fun other => ⟨fun hother => List.mem_singleton.mpr (honly other hother),
        fun hother => List.mem_singleton.mp hother ▸ hmem⟩)

/-- A pair is meant where its function is the only choice. -/
theorem outcome_eq_pair_iff {keys : List FunctionKey} : registry.outcome keys = .pair pair ↔
    ∃ key, keys = [key] ∧ registry.pairs.find? key = some pair := by
  constructor
  · intro houtcome
    unfold Registry.outcome at houtcome
    split at houtcome
    · cases houtcome
    · next key =>
        split at houtcome
        · next found hfound =>
            cases houtcome
            exact ⟨key, rfl, hfound⟩
        · cases houtcome
    · cases houtcome
  · rintro ⟨key, rfl, hpair⟩
    simp only [Registry.outcome, hpair]

theorem exists_find?_of_outcome {keys : List FunctionKey}
    (houtcome : registry.outcome keys = .pair pair) :
    ∃ key ∈ keys, registry.pairs.find? key = some pair := by
  obtain ⟨key, rfl, hpair⟩ := outcome_eq_pair_iff.mp houtcome
  exact ⟨key, List.mem_singleton_self key, hpair⟩

theorem exists_find?_of_resolveMethod {method : String} {selfContainer : Option String}
    {named : Bool} (hresolve : registry.resolveMethod method selfContainer named = .pair pair) :
    ∃ key, registry.pairs.find? key = some pair := by
  unfold Registry.resolveMethod at hresolve
  dsimp only at hresolve
  split at hresolve
  · cases hresolve
  · split at hresolve
    · obtain ⟨key, -, hkey⟩ := exists_find?_of_outcome hresolve
      exact ⟨key, hkey⟩
    · split at hresolve
      · obtain ⟨key, -, hkey⟩ := exists_find?_of_outcome hresolve
        exact ⟨key, hkey⟩
      · cases hresolve

theorem exists_find?_of_resolve {scope : Scope} {target : Target}
    (hresolve : registry.resolve scope target = .pair pair) :
    ∃ key, registry.pairs.find? key = some pair := by
  cases target with
  | function path =>
      unfold Registry.resolve Registry.resolveFunction Registry.resolveNames at hresolve
      dsimp only at hresolve
      split at hresolve
      · cases hresolve
      · obtain ⟨key, -, hkey⟩ := exists_find?_of_outcome hresolve
        exact ⟨key, hkey⟩
  | method receiver name named => exact exists_find?_of_resolveMethod hresolve

end Resolve

end EntityTables.Call
