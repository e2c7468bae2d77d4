import EntityTables.Proofs.Call.Idempotence

/-!
# Which method calls are redirected

The name of a method tells nothing about the type of the receiver. A method call is redirected in
two cases only: on `self`, where the innermost implementation or trait around the call is an
implementation of a type with such a method, and with an argument by name, where no other type has
such a method. All other method calls stay as they are, whatever is around them.
-/

namespace EntityTables.Call

open EntityTables.Syntax EntityTables.Text

/-! ### The two cases -/

section Cases

variable (registry : Registry)

/-- Whether there is a virtual function with a receiver at a place. -/
def Registry.HasMethod (key : FunctionKey) : Prop :=
  ∃ function, registry.virtuals.find? key = some function ∧ function.receiver = true

/-- Whether there is one that has an implementation. -/
def Registry.HasPairedMethod (key : FunctionKey) : Prop :=
  registry.HasMethod key ∧ ∃ pair, registry.pairs.find? key = some pair

/-- Whether an item decides what `self` is in it. -/
def bindsSelf : Node → Bool
  | .phrase .implItem [_, _, _, _, _, _, _, _] => true
  | .phrase .traitItem _ => true
  | _ => false

/-- The innermost item around a place that decides what `self` is there is an implementation of the
type that a path names; the container is the type in the module around the implementation. -/
def StandsInImplementation (module : String) (ancestors : List Node) (container : String) : Prop :=
  ∃ inner attributes qualifiers keyword generics trait selfType clause body outer path,
    ancestors = inner ++ .phrase .implItem
      [attributes, qualifiers, keyword, generics, trait, selfType, clause, body] :: outer ∧
    (∀ node ∈ inner, bindsSelf node = false) ∧ selfType.plainTypePath? = some path ∧
    container = nameWithin (moduleAround module outer) path.pathText

/-- A method is called on `self` in an implementation of a type that has it, with a pair. -/
def Registry.IsOwnMethod (module : String) (ancestors : List Node) (receiver : Node)
    (name : String) : Prop :=
  isSelf receiver = true ∧ ∃ container, StandsInImplementation module ancestors container ∧
    registry.HasPairedMethod ⟨container, name⟩

/-- A method is called with an argument by name, and a single container has it, with a pair. -/
def Registry.IsOnlyMethod (name : String) (body : List Node) : Prop :=
  (argumentsOf body).any (·.isNamed) = true ∧ ∃ container,
    registry.HasPairedMethod ⟨container, name⟩ ∧
      ∀ other, registry.HasMethod ⟨other, name⟩ → other = container

end Cases

/-! ### What `self` is -/

section Self

variable {module container : String} {ancestors : List Node}

theorem selfAround_cons_of_bindsSelf {node : Node} (hnode : bindsSelf node = false) :
    selfAround module (node :: ancestors) = selfAround module ancestors := by
  unfold bindsSelf at hnode
  split at hnode
  · cases hnode
  · cases hnode
  · next himpl htrait =>
      rw [selfAround]
      · exact himpl
      · exact htrait

/-- The container of `self` is that of the innermost implementation or trait. -/
theorem selfAround_eq_some_iff :
    selfAround module ancestors = some container ↔
      StandsInImplementation module ancestors container := by
  induction ancestors with
  | nil =>
      constructor
      · intro hself
        cases hself
      · rintro ⟨inner, _, _, _, _, _, _, _, _, _, _, hancestors, -⟩
        exact absurd hancestors (by simp)
  | cons node outer ih =>
      by_cases hbinds : bindsSelf node = false
      · rw [selfAround_cons_of_bindsSelf hbinds, ih]
        constructor
        · rintro ⟨inner, a, b, c, d, e, f, g, h, rest, path, rfl, hinner, hpath⟩
          refine ⟨node :: inner, a, b, c, d, e, f, g, h, rest, path, rfl, ?_, hpath⟩
          exact List.forall_mem_cons.mpr ⟨hbinds, hinner⟩
        · rintro ⟨inner, a, b, c, d, e, f, g, h, rest, path, hancestors, hinner, hpath⟩
          cases inner with
          | nil =>
              obtain ⟨rfl, -⟩ := List.cons.inj hancestors
              cases hbinds
          | cons head inner =>
              obtain ⟨-, rfl⟩ := List.cons.inj hancestors
              refine ⟨inner, a, b, c, d, e, f, g, h, rest, path, rfl, ?_, hpath⟩
              exact fun other hmem => hinner other (List.mem_cons_of_mem _ hmem)
      · constructor
        · intro hself
          unfold bindsSelf at hbinds
          split at hbinds
          · obtain ⟨path, hpath, rfl⟩ := Option.map_eq_some_iff.mp hself
            exact ⟨[], _, _, _, _, _, _, _, _, outer, path, rfl, nofun, hpath, rfl⟩
          · cases hself
          · exact absurd rfl hbinds
        · rintro ⟨inner, _, _, _, _, _, _, _, _, rest, path, hancestors, hinner, hpath, rfl⟩
          cases inner with
          | nil =>
              obtain ⟨rfl, rfl⟩ := List.cons.inj hancestors
              rw [selfAround, hpath, Option.map_some]
          | cons head inner =>
              obtain ⟨rfl, -⟩ := List.cons.inj hancestors
              exact absurd (hinner node List.mem_cons_self) hbinds

end Self

/-! ### What a method call means -/

section Resolve

variable {registry : Registry} {registrations : List Registration} {key : FunctionKey}
  {name container : String}

/-- The methods of a name. -/
def Registry.methodKeys (registry : Registry) (name : String) : List FunctionKey :=
  Keyed.keys (registry.virtuals.filter fun entry => entry.2.receiver && entry.1.name == name)

theorem mem_methodKeys (hholds : registry.Holds registrations) :
    key ∈ registry.methodKeys name ↔ registry.HasMethod key ∧ key.name = name := by
  rw [Registry.methodKeys, Keyed.mem_keys_filter hholds.sortedVirtuals]
  constructor
  · rintro ⟨function, hfind, htest⟩
    rw [Bool.and_eq_true, beq_iff_eq] at htest
    exact ⟨⟨function, hfind, htest.1⟩, htest.2⟩
  · rintro ⟨⟨function, hfind, hreceiver⟩, hname⟩
    refine ⟨function, hfind, ?_⟩
    rw [Bool.and_eq_true, beq_iff_eq]
    exact ⟨hreceiver, hname⟩

theorem nodup_methodKeys (hholds : registry.Holds registrations) :
    (registry.methodKeys name).Nodup :=
  (hholds.sortedVirtuals.keys_filter _).nodup

/-- A container has at most one method of a name. -/
theorem inContainer_methodKeys (hholds : registry.Holds registrations)
    (hmethod : registry.HasMethod ⟨container, name⟩) :
    Registry.inContainer (registry.methodKeys name) container = [⟨container, name⟩] := by
  apply (eq_singleton_iff_of_nodup ((nodup_methodKeys hholds).filter _)).mpr
  refine ⟨List.mem_filter.mpr ⟨(mem_methodKeys hholds).mpr ⟨hmethod, rfl⟩, beq_self_eq_true _⟩, ?_⟩
  rintro ⟨other, _⟩ hmem
  obtain ⟨hmem, hcontainer⟩ := List.mem_filter.mp hmem
  obtain ⟨-, rfl⟩ := (mem_methodKeys hholds).mp hmem
  obtain rfl : other = container := beq_iff_eq.mp hcontainer
  rfl

theorem inContainer_eq_nil_iff (hholds : registry.Holds registrations) :
    Registry.inContainer (registry.methodKeys name) container = [] ↔
      ¬registry.HasMethod ⟨container, name⟩ := by
  constructor
  · intro hnil hmethod
    rw [inContainer_methodKeys hholds hmethod] at hnil
    cases hnil
  · intro hnone
    rw [Registry.inContainer, List.filter_eq_nil_iff]
    intro key hmem hcontainer
    obtain ⟨hmethod, rfl⟩ := (mem_methodKeys hholds).mp hmem
    apply hnone
    rw [← beq_iff_eq.mp hcontainer]
    exact hmethod

/-- The methods of a name mean a pair if there is one only, and it has an implementation. -/
theorem outcome_methodKeys (hholds : registry.Holds registrations) :
    (∃ pair, registry.outcome (registry.methodKeys name) = .pair pair) ↔
      ∃ container, registry.HasPairedMethod ⟨container, name⟩ ∧
        ∀ other, registry.HasMethod ⟨other, name⟩ → other = container := by
  simp only [outcome_eq_pair_iff, eq_singleton_iff_of_nodup (nodup_methodKeys hholds),
    mem_methodKeys hholds]
  constructor
  · rintro ⟨pair, ⟨container, _⟩, ⟨⟨hmethod, rfl⟩, honly⟩, hpair⟩
    refine ⟨container, ⟨hmethod, pair, hpair⟩, fun other hother => ?_⟩
    exact congrArg (·.container) (honly ⟨other, _⟩ ⟨hother, rfl⟩)
  · rintro ⟨container, ⟨hmethod, pair, hpair⟩, honly⟩
    refine ⟨pair, ⟨container, name⟩, ⟨⟨hmethod, rfl⟩, ?_⟩, hpair⟩
    rintro ⟨other, _⟩ ⟨hother, rfl⟩
    rw [honly other hother]

theorem outcome_ownMethod (hholds : registry.Holds registrations)
    (hmethod : registry.HasMethod ⟨container, name⟩) :
    (∃ pair, registry.outcome
        (Registry.inContainer (registry.methodKeys name) container) = .pair pair) ↔
      registry.HasPairedMethod ⟨container, name⟩ := by
  rw [inContainer_methodKeys hholds hmethod]
  constructor
  · rintro ⟨pair, houtcome⟩
    obtain ⟨key, hkey, hpair⟩ := outcome_eq_pair_iff.mp houtcome
    cases hkey
    exact ⟨hmethod, pair, hpair⟩
  · rintro ⟨-, pair, hpair⟩
    exact ⟨pair, outcome_eq_pair_iff.mpr ⟨_, rfl, hpair⟩⟩

theorem resolveMethod_of_own (hholds : registry.Holds registrations)
    (hmethod : registry.HasMethod ⟨container, name⟩) (named : Bool) :
    registry.resolveMethod name (some container) named =
      registry.outcome (Registry.inContainer (registry.methodKeys name) container) := by
  have hmem : ⟨container, name⟩ ∈ registry.methodKeys name :=
    (mem_methodKeys hholds).mpr ⟨hmethod, rfl⟩
  have hown := inContainer_methodKeys hholds hmethod
  change (if (registry.methodKeys name).isEmpty then Resolution.notVirtual
    else if !(Registry.inContainer (registry.methodKeys name) container).isEmpty then
      registry.outcome (Registry.inContainer (registry.methodKeys name) container)
    else _) = _
  rw [if_neg, if_pos]
  · rw [hown]
    rfl
  · rw [List.isEmpty_iff]
    exact List.ne_nil_of_mem hmem

/-- Without a method of `self`, arguments by name have to show that a method is meant. -/
theorem resolveMethod_of_not_own {selfContainer : Option String}
    (hown : (selfContainer.map (Registry.inContainer (registry.methodKeys name))).getD [] = [])
    (named : Bool) :
    registry.resolveMethod name selfContainer named =
      if named then registry.outcome (registry.methodKeys name)
      else if (registry.methodKeys name).isEmpty then .notVirtual
      else .unverified (registry.methodKeys name) := by
  change (if (registry.methodKeys name).isEmpty then Resolution.notVirtual
    else if !((selfContainer.map
      (Registry.inContainer (registry.methodKeys name))).getD []).isEmpty then _
    else if named then registry.outcome (registry.methodKeys name)
    else .unverified (registry.methodKeys name)) = _
  rw [hown]
  cases hkeys : registry.methodKeys name with
  | nil => cases named <;> rfl
  | cons key rest => cases named <;> rfl

/-- A method means a pair in two cases: it is one of `self`, or the only one of its name and called
with an argument by name. -/
theorem exists_pair_resolveMethod_iff (hholds : registry.Holds registrations)
    (selfContainer : Option String) (named : Bool) :
    (∃ pair, registry.resolveMethod name selfContainer named = .pair pair) ↔
      (∃ container, selfContainer = some container ∧
          registry.HasPairedMethod ⟨container, name⟩) ∨
        (named = true ∧ ∃ container, registry.HasPairedMethod ⟨container, name⟩ ∧
          ∀ other, registry.HasMethod ⟨other, name⟩ → other = container) := by
  by_cases hself : ∃ container, selfContainer = some container ∧
      registry.HasMethod ⟨container, name⟩
  · obtain ⟨container, rfl, hmethod⟩ := hself
    rw [resolveMethod_of_own hholds hmethod, outcome_ownMethod hholds hmethod]
    constructor
    · intro hpaired
      exact Or.inl ⟨container, rfl, hpaired⟩
    · rintro (⟨_, hsome, hpaired⟩ | ⟨-, only, hpaired, honly⟩)
      · cases hsome
        exact hpaired
      · rw [honly container hmethod]
        exact hpaired
  · have hown : (selfContainer.map (Registry.inContainer (registry.methodKeys name))).getD [] =
        [] := by
      cases selfContainer with
      | none => rfl
      | some container =>
          apply (inContainer_eq_nil_iff hholds).mpr
          intro hmethod
          exact hself ⟨container, rfl, hmethod⟩
    rw [resolveMethod_of_not_own hown]
    constructor
    · rintro ⟨pair, hpair⟩
      cases named with
      | true => exact Or.inr ⟨rfl, (outcome_methodKeys hholds).mp ⟨pair, hpair⟩⟩
      | false =>
          rw [if_neg Bool.false_ne_true] at hpair
          split at hpair
          · cases hpair
          · cases hpair
    · rintro (⟨container, hsome, hpaired⟩ | ⟨rfl, honly⟩)
      · exact absurd ⟨container, hsome, hpaired.1⟩ hself
      · exact (outcome_methodKeys hholds).mpr honly

end Resolve

/-! ### The method calls of a file -/

/-- A method call as it is read. -/
def methodCall (attributes receiver dot : Node) (name : String) (turbofish : Node)
    (body : List Node) : Node :=
  .phrase .methodCallExpr [attributes, receiver, dot, .ident name, turbofish, .group .paren body]

section Calls

variable {registry : Registry} {registrations : List Registration} {module : String}
  {ancestors : List Node} {attributes receiver dot turbofish : Node} {name : String}
  {body : List Node}

/-- A method call means a pair in one of the two cases. -/
theorem exists_pair_meaning_iff (hholds : registry.Holds registrations) :
    (∃ target pair, target? (methodCall attributes receiver dot name turbofish body) =
        some target ∧ registry.meaning module ⟨ancestors, target⟩ = .pair pair) ↔
      registry.IsOwnMethod module ancestors receiver name ∨ registry.IsOnlyMethod name body := by
  have hmeaning : (∃ target pair,
      target? (methodCall attributes receiver dot name turbofish body) = some target ∧
        registry.meaning module ⟨ancestors, target⟩ = .pair pair) ↔
      ∃ pair, registry.resolveMethod name
        (if isSelf receiver then selfAround module ancestors else none)
        ((argumentsOf body).any (·.isNamed)) = .pair pair := by
    constructor
    · rintro ⟨target, pair, htarget, hpair⟩
      cases htarget
      exact ⟨pair, hpair⟩
    · rintro ⟨pair, hpair⟩
      exact ⟨_, pair, rfl, hpair⟩
  have hcontainer : ∀ container,
      (if isSelf receiver then selfAround module ancestors else none) = some container ↔
        isSelf receiver = true ∧ StandsInImplementation module ancestors container := by
    intro container
    rw [← selfAround_eq_some_iff]
    by_cases hself : isSelf receiver = true
    · rw [if_pos hself]
      exact (and_iff_right hself).symm
    · rw [if_neg hself]
      exact iff_of_false nofun fun hboth => hself hboth.1
  rw [hmeaning, exists_pair_resolveMethod_iff hholds]
  apply or_congr_left
  calc (∃ container, (if isSelf receiver then selfAround module ancestors else none) =
          some container ∧ registry.HasPairedMethod ⟨container, name⟩)
      ↔ ∃ container, (isSelf receiver = true ∧
          StandsInImplementation module ancestors container) ∧
            registry.HasPairedMethod ⟨container, name⟩ := by simp only [hcontainer]
    _ ↔ registry.IsOwnMethod module ancestors receiver name := by
      simp only [and_assoc, exists_and_left, Registry.IsOwnMethod]

/-- A call that means no pair stays, with the calls in it redirected. -/
theorem Redirected.kept_of_ne_pair {kind : Kind} {parts : List Node} {out : Node}
    (hredirected : Redirected registry module ancestors (.phrase kind parts) out)
    (hnone : ¬∃ target pair, target? (.phrase kind parts) = some target ∧
      registry.meaning module ⟨ancestors, target⟩ = .pair pair) :
    ∃ outs, out = .phrase kind outs ∧
      RedirectedAll registry module (.phrase kind parts :: ancestors) parts outs := by
  cases hredirected with
  | kept hparts _ => exact ⟨_, rfl, hparts⟩
  | call _ htarget hpair _ _ => exact absurd ⟨_, _, htarget, hpair⟩ hnone

end Calls

/-- **Redirecting method calls.** In a redirected file a method call is replaced exactly if it is
one on `self` in an implementation of a type that has the method with a pair, or has an argument by
name and a single container has the method, with a pair. Any other method call stays as it is, with
the calls in it redirected. -/
theorem redirectIn_methodCalls {operations : List Operation} {module : String} {file out : Node}
    {report : Report}
    (hok : redirectIn (Registry.after operations) module file = .ok (out, report)) :
    let registry := Registry.after operations
    Redirected registry module [] file out ∧
      ∀ ancestors attributes receiver dot name turbofish body,
        let call := methodCall attributes receiver dot name turbofish body
        let replaced := registry.IsOwnMethod module ancestors receiver name ∨
          registry.IsOnlyMethod name body
        ((∃ target pair, target? call = some target ∧
            registry.meaning module ⟨ancestors, target⟩ = .pair pair) ↔ replaced) ∧
          (¬replaced → ∀ out, Redirected registry module ancestors call out →
            ∃ outs, out = .phrase .methodCallExpr outs ∧
              RedirectedAll registry module (call :: ancestors) call.parts outs) := by
  intro registry
  refine ⟨(@redirected_of_run registry module [] file out .none report hok).1, ?_⟩
  intro ancestors attributes receiver dot name turbofish body call replaced
  have hmeans := @exists_pair_meaning_iff registry _ module ancestors attributes receiver dot
    turbofish name body (holds_after operations)
  refine ⟨hmeans, fun hnot out hredirected => ?_⟩
  apply hredirected.kept_of_ne_pair
  intro hpair
  exact hnot (hmeans.mp hpair)

/-- The method `with` of a builder. -/
def builderMethod : VirtualFunction :=
  { plainFunction "crate::Builder" "with" ["job"] with receiver := true }

/-- An implementation of the builder with a call on `self`, one of something else, and one with an
argument by name. -/
def builderText : String :=
  "impl Builder { fn f(&self) { self.with(1); it.with(1); it.with(job = 1) } }"

set_option maxRecDepth 100000 in
theorem redirectIn_methodCalls_builder :
    ∃ pair file out, Pair.derive? builderMethod = some pair ∧ parseFile? builderText = some file ∧
      redirectIn (Registry.after [.register (.pair pair)]) "crate" file = .ok (out, ⟨2, 0, 1⟩) ∧
      Redirected (Registry.after [.register (.pair pair)]) "crate" [] file out := by
  have hpair : Pair.derive? builderMethod = some ((Pair.derive? builderMethod).getD default) := rfl
  have hreports : reportsOfPasses
      (Registry.after [.register (.pair ((Pair.derive? builderMethod).getD default))])
      builderText = some (⟨2, 0, 1⟩, ⟨0, 0, 1⟩) := by decide +kernel
  generalize (Pair.derive? builderMethod).getD default = pair at *
  obtain ⟨file, out, -, hread, hout, -⟩ := exists_passes hreports
  exact ⟨pair, file, out, hpair, hread, hout, (redirectIn_methodCalls hout).1⟩

end EntityTables.Call
