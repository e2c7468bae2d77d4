import EntityTables.Proofs.Call.Registration
import Mathlib.Data.List.Induction

/-!
# Pairs that are out of date

What a registry holds under a key is what was registered there last. A pair is given up or made anew
when its virtual function is declared again, provided that an implementation was added for it. A
pair that was inserted as a whole and has no implementation beside it is kept, and may then be out
of date.
-/

namespace EntityTables.Call

open EntityTables.Syntax

/-! ### The last registration under a key -/

namespace Registration

/-- The virtual function that a registration declares under a key, alone or in a pair. -/
def declares? (key : FunctionKey) : Registration → Option VirtualFunction
  | .pair inserted => if inserted.virtual.key = key then some inserted.virtual else none
  | .virtual function => if function.key = key then some function else none
  | .implementation _ _ => none

/-- The pair that a registration inserts under a key as a whole. -/
def inserts? (key : FunctionKey) : Registration → Option Pair
  | .pair inserted => if inserted.virtual.key = key then some inserted else none
  | _ => none

/-- The signature of the implementation that a registration adds for the function under a key. -/
def implements? (key : FunctionKey) : Registration → Option Signature
  | .implementation container signature =>
    if (Registry.implementedName? signature.name).map (⟨container, ·⟩) = some key then some signature
    else none
  | _ => none

theorem key_of_declares? {key : FunctionKey} {function : VirtualFunction} :
    {registration : Registration} → registration.declares? key = some function → function.key = key
  | .pair _, hdeclares | .virtual _, hdeclares => by
      rw [declares?, Option.ite_none_right_eq_some] at hdeclares
      exact Option.some.inj hdeclares.2 ▸ hdeclares.1

theorem declares?_of_inserts? {key : FunctionKey} {inserted : Pair} :
    {registration : Registration} → registration.inserts? key = some inserted →
      registration.declares? key = some inserted.virtual
  | .pair _, hinserts => by
      rw [inserts?, Option.ite_none_right_eq_some] at hinserts
      rw [declares?, if_pos hinserts.1, Option.some.inj hinserts.2]

end Registration

/-- What the last of some registrations tells that tells anything. -/
def latest? {α : Type} (tell : Registration → Option α) (registrations : List Registration) :
    Option α :=
  registrations.foldl (fun found registration => (tell registration).or found) none

theorem latest?_snoc {α : Type} (tell : Registration → Option α)
    (registrations : List Registration) (registration : Registration) :
    latest? tell (registrations ++ [registration]) =
      (tell registration).or (latest? tell registrations) := by
  rw [latest?, List.foldl_append]
  rfl

theorem exists_of_latest? {α : Type} {tell : Registration → Option α}
    {registrations : List Registration} {a : α} (hlatest : latest? tell registrations = some a) :
    ∃ registration ∈ registrations, tell registration = some a := by
  induction registrations using List.reverseRecOn with
  | nil => cases hlatest
  | append_singleton rest last ih =>
      rw [latest?_snoc, Option.or_eq_some_iff] at hlatest
      rcases hlatest with hlast | ⟨-, hrest⟩
      · exact ⟨last, List.mem_append_right _ (List.mem_singleton_self last), hlast⟩
      · obtain ⟨registration, hmem, htell⟩ := ih hrest
        exact ⟨registration, List.mem_append_left _ hmem, htell⟩

/-- The virtual function that was declared last under a key. -/
def declared? (registrations : List Registration) (key : FunctionKey) : Option VirtualFunction :=
  latest? (Registration.declares? key) registrations

/-- The pair that was inserted last under a key. -/
def inserted? (registrations : List Registration) (key : FunctionKey) : Option Pair :=
  latest? (Registration.inserts? key) registrations

/-- The signature of the implementation that was added last under a key. -/
def implemented? (registrations : List Registration) (key : FunctionKey) : Option Signature :=
  latest? (Registration.implements? key) registrations

section Latest

variable {registrations : List Registration} {key : FunctionKey}

theorem key_of_declared? {function : VirtualFunction}
    (hdeclared : declared? registrations key = some function) : function.key = key := by
  obtain ⟨registration, -, hdeclares⟩ := exists_of_latest? hdeclared
  exact Registration.key_of_declares? hdeclares

/-- Where a pair was inserted, a virtual function was declared. -/
theorem exists_declared?_of_inserted? {pair : Pair}
    (hinserted : inserted? registrations key = some pair) :
    ∃ function, declared? registrations key = some function := by
  induction registrations using List.reverseRecOn with
  | nil => cases hinserted
  | append_singleton rest last ih =>
      rw [inserted?, latest?_snoc, Option.or_eq_some_iff] at hinserted
      rw [declared?, latest?_snoc]
      rcases hinserted with hlast | ⟨-, hrest⟩
      · exact ⟨pair.virtual, by rw [Registration.declares?_of_inserts? hlast, Option.some_or]⟩
      · obtain ⟨function, hfunction⟩ := ih hrest
        rw [declared?] at hfunction
        cases hdeclares : last.declares? key with
        | some later => exact ⟨later, rfl⟩
        | none => exact ⟨function, hfunction⟩

end Latest

/-! ### What a registry holds -/

/-- The pair under a key that has an implementation carries the virtual function under the key. -/
def Registry.AgreesAt (registry : Registry) (key : FunctionKey) : Prop :=
  ∀ signature pair, registry.implementations.find? key = some signature →
    registry.pairs.find? key = some pair → registry.virtuals.find? key = some pair.virtual

/-- A registry records what was registered last, and under a key without implementation the pair
that was inserted last. -/
structure Registry.Records (registry : Registry) (registrations : List Registration) : Prop where
  sortedVirtuals : registry.virtuals.Sorted
  sortedPairs : registry.pairs.Sorted
  virtuals : ∀ key, registry.virtuals.find? key = declared? registrations key
  implementations : ∀ key, registry.implementations.find? key = implemented? registrations key
  inserted : ∀ key, registry.implementations.find? key = none →
    registry.pairs.find? key = inserted? registrations key

structure Registry.Holds (registry : Registry) (registrations : List Registration) : Prop
    extends registry.Records registrations where
  agrees : ∀ key, registry.AgreesAt key

section Holds

variable {registry : Registry} {registrations : List Registration} {key : FunctionKey}

theorem Registry.Holds.exists_virtual (hholds : registry.Holds registrations) {pair : Pair}
    (hpair : registry.pairs.find? key = some pair) :
    ∃ function, registry.virtuals.find? key = some function := by
  cases himplementation : registry.implementations.find? key with
  | some signature => exact ⟨pair.virtual, hholds.agrees key signature pair himplementation hpair⟩
  | none =>
      rw [hholds.virtuals]
      rw [hholds.inserted key himplementation] at hpair
      exact exists_declared?_of_inserted? hpair

theorem Registry.Records.link (hrecords : registry.Records registrations)
    (hagrees : ∀ other, key ≠ other → registry.AgreesAt other)
    (hdeclared : ∀ pair, registry.pairs.find? key = some pair →
      ∃ function, registry.virtuals.find? key = some function) :
    (registry.link key).Holds registrations where
  sortedVirtuals := by rw [virtuals_link]; exact hrecords.sortedVirtuals
  sortedPairs := sorted_pairs_link hrecords.sortedPairs
  virtuals other := by rw [virtuals_link, hrecords.virtuals]
  implementations other := by rw [implementations_link, hrecords.implementations]
  inserted other hnone := by
    rw [implementations_link] at hnone
    by_cases hother : key = other
    · rw [hother, link_of_not_implemented hnone, hrecords.inserted other hnone]
    · rw [find?_pairs_link_of_ne hrecords.sortedPairs hother, hrecords.inserted other hnone]
  agrees other signature pair himplementation hpair := by
    rw [implementations_link] at himplementation
    rw [virtuals_link]
    by_cases hother : key = other
    · subst hother
      cases hvirtual : registry.virtuals.find? key with
      | some virtual =>
          rw [find?_pairs_link hrecords.sortedPairs hvirtual himplementation] at hpair
          rw [virtual_of_pairOf? hpair]
      | none =>
          rw [link_of_not_declared hvirtual] at hpair
          obtain ⟨function, hfunction⟩ := hdeclared pair hpair
          exact absurd (hvirtual.symm.trans hfunction) nofun
    · rw [find?_pairs_link_of_ne hrecords.sortedPairs hother] at hpair
      exact hagrees other hother signature pair himplementation hpair

theorem holds_empty : Registry.empty.Holds [] where
  sortedVirtuals := .nil
  sortedPairs := .nil
  virtuals _ := rfl
  implementations _ := rfl
  inserted _ _ := rfl
  agrees _ _ _ _ hpair := by cases hpair

theorem Registry.Holds.insertPair (hholds : registry.Holds registrations) (pair : Pair) :
    (registry.insertPair pair).Holds (registrations ++ [.pair pair]) where
  sortedVirtuals := hholds.sortedVirtuals.insert _ _
  sortedPairs := hholds.sortedPairs.insert _ _
  virtuals key := by
    rw [declared?, latest?_snoc, Registration.declares?, ← declared?, ← hholds.virtuals]
    refine (Keyed.find?_insert _ _ _ _).trans ?_
    split <;> rfl
  implementations key := by
    rw [implemented?, latest?_snoc]
    exact hholds.implementations key
  inserted key hnone := by
    rw [inserted?, latest?_snoc, Registration.inserts?, ← inserted?, ← hholds.inserted key hnone]
    refine (Keyed.find?_insert _ _ _ _).trans ?_
    split <;> rfl
  agrees key signature other himplementation hother := by
    have hpairs := (Keyed.find?_insert registry.pairs pair.virtual.key key pair).symm.trans hother
    refine (Keyed.find?_insert registry.virtuals pair.virtual.key key pair.virtual).trans ?_
    by_cases hkey : pair.virtual.key = key
    · rw [if_pos hkey] at hpairs ⊢
      rw [Option.some.inj hpairs]
    · rw [if_neg hkey] at hpairs ⊢
      exact hholds.agrees key signature other himplementation hpairs

theorem Registry.Holds.insertVirtual (hholds : registry.Holds registrations)
    (function : VirtualFunction) :
    (registry.insertVirtual function).Holds (registrations ++ [.virtual function]) := by
  have hfind : ∀ key, (registry.virtuals.insert function.key function).find? key =
      if function.key = key then some function else registry.virtuals.find? key :=
    fun key => Keyed.find?_insert _ _ _ _
  refine Registry.Records.link ?_ (fun other hother signature pair himplementation hpair => ?_)
    fun pair hpair => ?_
  · refine ⟨hholds.sortedVirtuals.insert _ _, hholds.sortedPairs, fun key => ?_, fun key => ?_,
      fun key hnone => ?_⟩
    · rw [hfind, declared?, latest?_snoc, Registration.declares?, ← declared?, ← hholds.virtuals]
      split <;> rfl
    · rw [implemented?, latest?_snoc]
      exact hholds.implementations key
    · rw [inserted?, latest?_snoc]
      exact hholds.inserted key hnone
  · exact (hfind other).trans ((if_neg hother).trans
      (hholds.agrees other signature pair himplementation hpair))
  · exact ⟨function, (hfind function.key).trans (if_pos rfl)⟩

theorem Registry.Holds.insertImplementation (hholds : registry.Holds registrations)
    (container : String) (signature : Signature) :
    (registry.insertImplementation container signature).Holds
      (registrations ++ [.implementation container signature]) := by
  have himplemented : ∀ key, implemented? (registrations ++ [.implementation container signature])
      key = if (Registry.implementedName? signature.name).map (⟨container, ·⟩) = some key then
        some signature else registry.implementations.find? key := fun key => by
    rw [implemented?, latest?_snoc, Registration.implements?, ← implemented?,
      ← hholds.implementations]
    split <;> rfl
  have hdeclared : ∀ key, declared? (registrations ++ [.implementation container signature]) key =
      registry.virtuals.find? key := fun key => by
    rw [declared?, latest?_snoc]
    exact (hholds.virtuals key).symm
  have hinserted : ∀ key, inserted? (registrations ++ [.implementation container signature]) key =
      inserted? registrations key := fun key => by
    rw [inserted?, latest?_snoc]
    rfl
  unfold Registry.insertImplementation
  cases hname : Registry.implementedName? signature.name with
  | none =>
      refine ⟨⟨hholds.sortedVirtuals, hholds.sortedPairs, fun key => (hdeclared key).symm,
        fun key => ?_, fun key hnone => ?_⟩, hholds.agrees⟩
      · rw [himplemented, hname]
        rfl
      · rw [hinserted, hholds.inserted key hnone]
  | some name =>
      have hfind : ∀ key,
          (registry.implementations.insert ⟨container, name⟩ signature).find? key =
            if ⟨container, name⟩ = key then some signature
            else registry.implementations.find? key :=
        fun key => Keyed.find?_insert _ _ _ _
      refine Registry.Records.link ⟨hholds.sortedVirtuals, hholds.sortedPairs,
        fun key => (hdeclared key).symm, fun key => ?_, fun key hnone => ?_⟩
        (fun other hother => ?_) fun pair hpair => hholds.exists_virtual hpair
      · rw [himplemented, hname, hfind]
        simp only [Option.map_some, Option.some.injEq]
      · rw [hfind] at hnone
        split at hnone
        · cases hnone
        · rw [hinserted, hholds.inserted key hnone]
      · intro found pair himplementation hpair
        rw [hfind, if_neg hother] at himplementation
        exact hholds.agrees other found pair himplementation hpair

theorem Registry.Holds.register (hholds : registry.Holds registrations) :
    (registration : Registration) →
      (registry.register registration).Holds (registrations ++ [registration])
  | .pair inserted => hholds.insertPair inserted
  | .virtual function => hholds.insertVirtual function
  | .implementation container signature => hholds.insertImplementation container signature

theorem holds_registerAll (registrations : List Registration) :
    (Registry.empty.registerAll registrations).Holds registrations := by
  induction registrations using List.reverseRecOn with
  | nil => exact holds_empty
  | append_singleton rest last ih =>
      rw [registerAll_append]
      exact ih.register last

/-- What a registry holds after registrations and scans of files. -/
theorem holds_after (operations : List Operation) :
    (Registry.after operations).Holds (operations.flatMap Operation.registrations) := by
  rw [after_eq]
  exact holds_registerAll _

end Holds

/-! ### Pairs agree with the latest declarations -/

/-- Every pair of a registry carries the virtual function under its key. -/
def Registry.Fresh (registry : Registry) : Prop :=
  ∀ key pair, registry.pairs.find? key = some pair →
    registry.virtuals.find? key = some pair.virtual

/-- A registry is fresh unless a pair was inserted, no implementation was added under its key, and
its virtual function was declared differently later on. -/
theorem Registry.Holds.fresh_iff {registry : Registry} {registrations : List Registration}
    (hholds : registry.Holds registrations) :
    registry.Fresh ↔ ∀ key pair, inserted? registrations key = some pair →
      implemented? registrations key = none →
        declared? registrations key = some pair.virtual := by
  constructor
  · intro hfresh key pair hinserted hnone
    have hpair : registry.pairs.find? key = some pair := by
      rw [hholds.inserted key ((hholds.implementations key).trans hnone), hinserted]
    rw [← hholds.virtuals, hfresh key pair hpair]
  · intro hdeclared key pair hpair
    cases himplementation : registry.implementations.find? key with
    | some signature => exact hholds.agrees key signature pair himplementation hpair
    | none =>
        rw [hholds.inserted key himplementation] at hpair
        rw [hholds.virtuals]
        exact hdeclared key pair hpair ((hholds.implementations key).symm.trans himplementation)

theorem Registry.Fresh.declared_of_resolve {registry : Registry}
    {registrations : List Registration} (hfresh : registry.Fresh)
    (hholds : registry.Holds registrations) {scope : Scope} {target : Target} {pair : Pair}
    (hresolve : registry.resolve scope target = .pair pair) :
    declared? registrations pair.virtual.key = some pair.virtual := by
  obtain ⟨key, hpair⟩ := exists_find?_of_resolve hresolve
  have hdeclared : declared? registrations key = some pair.virtual := by
    rw [← hholds.virtuals, hfresh key pair hpair]
  rw [key_of_declared? hdeclared, hdeclared]

/-- After any registrations and scans, a registry knows the latest declaration under every key, and
pairs only under keys with a declaration. It is fresh unless a pair was inserted that has no
implementation beside it and was declared differently later on; if it is fresh, every call that
resolves to a pair is a call of the latest declaration. -/
theorem fresh_after_iff (operations : List Operation) :
    let registry := Registry.after operations
    let registrations := operations.flatMap Operation.registrations
    (∀ key, registry.virtuals.find? key = declared? registrations key) ∧
      (∀ key, registry.pairs.contains key → registry.virtuals.contains key) ∧
      (registry.Fresh ↔ ∀ key pair, inserted? registrations key = some pair →
        implemented? registrations key = none →
          declared? registrations key = some pair.virtual) ∧
      (registry.Fresh → ∀ scope target pair, registry.resolve scope target = .pair pair →
        declared? registrations pair.virtual.key = some pair.virtual) := by
  intro registry registrations
  have hholds : registry.Holds registrations := holds_after operations
  refine ⟨hholds.virtuals, fun key hcontains => ?_, hholds.fresh_iff,
    fun hfresh scope target pair hresolve => hfresh.declared_of_resolve hholds hresolve⟩
  obtain ⟨pair, hpair⟩ := Keyed.contains_iff.mp hcontains
  exact Keyed.contains_iff.mpr (hholds.exists_virtual hpair)

/-- A function of one parameter is inserted with its implementation, and then declared with two. -/
theorem resolve_declared_again :
    let first : VirtualFunction :=
      ⟨"F", "crate", false, [⟨"x", namedType "i32"⟩], .empty .returnType⟩
    let later : VirtualFunction :=
      { first with parameters := [⟨"y", namedType "i32"⟩, ⟨"z", namedType "i32"⟩] }
    ∃ pair, Pair.derive? first = some pair ∧
      (Registry.after [.register (.pair pair), .register (.virtual later)]).resolve
        ⟨"crate", none⟩ (.function (pathOf [segmentOf "F"])) = .pair pair ∧
      declared? [.pair pair, .virtual later] pair.virtual.key = some later ∧
      pair.virtual.parameters.length ≠ later.parameters.length := by
  refine ⟨_, rfl, rfl, rfl, ?_⟩
  decide

end EntityTables.Call
