import EntityTables.Proofs.Call.Binding
import EntityTables.Proofs.Call.Redirection
import EntityTables.Proofs.Call.Slots
import Mathlib.Algebra.BigOperators.Group.Finset.Piecewise
import Mathlib.Data.List.Induction

/-!
# The calls in a redirected call

How many calls of some meaning a tree holds. A redirected call holds those of its receiver and of
its arguments, each once, whether they stay where they are or are evaluated in front of the call;
what is added to them means no virtual function.
-/

namespace EntityTables.Call

open EntityTables.Syntax EntityTables.Text EntityTables.Schema

section Count

variable (registry : Registry) (counted : Resolution → Bool)

/-- What the call of an expression means, if it is one. -/
def Registry.meaningHere? (scope : Scope) (expr : Node) : Option Resolution :=
  (target? expr).map (registry.resolve scope)

mutual

/-- How many calls in a tree mean something that counts. -/
def callCount (scope : Scope) : Node → Nat
  | .leaf _ => 0
  | .group _ body => callCountAll scope body
  | .phrase kind parts =>
    callCountAll (scope.enter kind parts) parts +
      if (registry.meaningHere? scope (.phrase kind parts)).any counted then 1 else 0

def callCountAll (scope : Scope) : List Node → Nat
  | [] => 0
  | node :: rest => callCount scope node + callCountAll scope rest

end

variable {registry counted} {scope : Scope}

theorem callCountAll_append (first second : List Node) :
    callCountAll registry counted scope (first ++ second) =
      callCountAll registry counted scope first + callCountAll registry counted scope second := by
  induction first with
  | nil => rw [List.nil_append, callCountAll, Nat.zero_add]
  | cons node rest ih => rw [List.cons_append, callCountAll, callCountAll, ih, Nat.add_assoc]

theorem callCountAll_eq_sum (nodes : List Node) : callCountAll registry counted scope nodes =
    (nodes.map (callCount registry counted scope)).sum := by
  induction nodes with
  | nil => rfl
  | cons node rest ih => rw [callCountAll, List.map_cons, List.sum_cons, ih]

theorem callCount_ident (name : String) :
    callCount registry counted scope (.ident name) = 0 := rfl

theorem callCount_punct (text : String) :
    callCount registry counted scope (.punct text) = 0 := rfl

theorem callCount_parens (body : List Node) :
    callCount registry counted scope (parens body) = callCountAll registry counted scope body := rfl

theorem callCount_braces (body : List Node) :
    callCount registry counted scope (braces body) = callCountAll registry counted scope body := rfl

theorem callCount_noAttributes :
    callCount registry counted scope (.empty .attributes) = 0 := rfl

/-- The kinds of phrases that are no calls and open no scope. -/
def innerKinds : List Kind :=
  [.attributes, .attr, .path, .segment, .genericArgs, .pathExpr, .literalExpr, .matchExpr,
    .tupleExpr, .arm, .pattern, .assignExpr]

theorem callCount_inner {kind : Kind} (hkind : kind ∈ innerKinds) (parts : List Node) :
    callCount registry counted scope (.phrase kind parts) =
      callCountAll registry counted scope parts := by
  have htarget : target? (.phrase kind parts) = none := by
    cases htarget : target? (.phrase kind parts) with
    | none => rfl
    | some target =>
        obtain ⟨call, hcall, -⟩ := Option.map_eq_some_iff.mp htarget
        unfold CallExpr.ofNode? at hcall
        split at hcall
        · next heq =>
            cases heq
            exact absurd hkind (by decide)
        · next heq =>
            cases heq
            exact absurd hkind (by decide)
        · cases hcall
  have henter : scope.enter kind parts = scope := by
    unfold Scope.enter
    split
    · exact absurd hkind (by decide)
    · exact absurd hkind (by decide)
    · exact absurd hkind (by decide)
    · rfl
  rw [callCount, henter, Registry.meaningHere?, htarget]
  rfl

theorem callCount_commaSeparated (nodes : List Node) :
    callCountAll registry counted scope (commaSeparated nodes) =
      callCountAll registry counted scope nodes := by
  induction nodes using commaSeparated.induct with
  | case1 => rfl
  | case2 node => rfl
  | case3 node rest hrest ih =>
      rw [commaSeparated, callCountAll, callCountAll, callCount_punct, ih, Nat.zero_add,
        callCountAll]
      exact hrest

theorem callCount_commaEnded (runs : List (List Node)) :
    callCountAll registry counted scope (commaEnded runs) =
      (runs.map (callCountAll registry counted scope)).sum := by
  induction runs with
  | nil => rfl
  | cons run rest ih =>
      rw [commaEnded, List.flatMap_cons, ← commaEnded, callCountAll_append, ih, List.map_cons,
        List.sum_cons, callCountAll_append]
      rfl

end Count

/-! ### Names that mean no virtual function -/

section Names

variable {registry : Registry} {name : String}

/-- No virtual function of a registry has a name. -/
def Registry.Lacks (registry : Registry) (name : String) : Prop :=
  ∀ entry ∈ registry.virtuals, entry.1.name ≠ name

theorem chooseByQualifier_nil (qualifier : List String) (module : String) :
    Registry.chooseByQualifier [] qualifier module = [] := by
  unfold Registry.chooseByQualifier
  dsimp only
  split
  · rfl
  · rfl
  · split <;> rfl
  · split <;> rfl
  · rfl

theorem filter_virtuals_of_lacks (hlacks : registry.Lacks name)
    {keep : FunctionKey × VirtualFunction → Bool}
    (hkeep : ∀ entry, keep entry = true → entry.1.name = name) :
    registry.virtuals.filter keep = [] := by
  rw [List.filter_eq_nil_iff]
  exact fun entry hmem hkept => hlacks entry hmem (hkeep entry hkept)

theorem resolveNames_of_lacks {names : List String} (hlast : names.getLast? = some name)
    (hlacks : registry.Lacks name) (module : String) :
    registry.resolveNames names module = .notVirtual := by
  unfold Registry.resolveNames
  rw [hlast]
  dsimp only
  rw [filter_virtuals_of_lacks hlacks fun entry hkept => eq_of_beq (Bool.and_elim_left hkept),
    Keyed.keys, List.map_nil, chooseByQualifier_nil, Registry.outcome]

theorem resolveMethod_of_lacks (hlacks : registry.Lacks name) (selfContainer : Option String)
    (named : Bool) : registry.resolveMethod name selfContainer named = .notVirtual := by
  unfold Registry.resolveMethod
  rw [filter_virtuals_of_lacks hlacks fun entry hkept => eq_of_beq (Bool.and_elim_right hkept)]
  rfl

end Names

/-! ### Trees without calls -/

mutual

/-- Whether there is a call in a tree. -/
def holdsCall : Node → Bool
  | .leaf _ => false
  | .group _ body => holdsAnyCall body
  | .phrase kind parts => (target? (.phrase kind parts)).isSome || holdsAnyCall parts

def holdsAnyCall : List Node → Bool
  | [] => false
  | node :: rest => holdsCall node || holdsAnyCall rest

end

section Written

variable {registry : Registry} {counted : Resolution → Bool} {scope : Scope}

mutual

theorem callCount_of_holdsCall {scope : Scope} : {node : Node} → holdsCall node = false →
    callCount registry counted scope node = 0
  | .leaf _, _ => rfl
  | .group _ _, hnone => callCountAll_of_holdsAnyCall hnone
  | .phrase kind parts, hnone => by
      rw [holdsCall, Bool.or_eq_false_iff] at hnone
      have htarget : target? (.phrase kind parts) = none := by simpa using hnone.1
      rw [callCount, callCountAll_of_holdsAnyCall hnone.2, Registry.meaningHere?, htarget]
      rfl

theorem callCountAll_of_holdsAnyCall {scope : Scope} : {nodes : List Node} →
    holdsAnyCall nodes = false → callCountAll registry counted scope nodes = 0
  | [], _ => rfl
  | _ :: _, hnone => by
      rw [holdsAnyCall, Bool.or_eq_false_iff] at hnone
      rw [callCountAll, callCount_of_holdsCall hnone.1, callCountAll_of_holdsAnyCall hnone.2]

end

theorem holdsCall_expressionSegment (segment : Node) :
    holdsCall (expressionSegment segment) = holdsCall segment := by
  unfold expressionSegment
  split
  · rfl
  · rfl

theorem holdsAnyCall_parts {node : Node} (hnone : holdsCall node = false) :
    holdsAnyCall node.parts = false := by
  cases node with
  | leaf token => rfl
  | group delimiter body => exact hnone
  | phrase kind parts =>
      rw [holdsCall, Bool.or_eq_false_iff] at hnone
      exact hnone.2

theorem holdsAnyCall_map_expressionSegment (nodes : List Node) :
    holdsAnyCall (nodes.map expressionSegment) = holdsAnyCall nodes := by
  induction nodes with
  | nil => rfl
  | cons node rest ih =>
      rw [List.map_cons, holdsAnyCall, holdsAnyCall, ih, holdsCall_expressionSegment]

/-! ### What is written around arguments -/

theorem callCount_of_not_counted {kind : Kind} {parts : List Node}
    (henter : scope.enter kind parts = scope)
    (hmeaning : (registry.meaningHere? scope (.phrase kind parts)).any counted = false) :
    callCount registry counted scope (.phrase kind parts) =
      callCountAll registry counted scope parts := by
  rw [callCount, henter, hmeaning]
  rfl

theorem callCount_nameExpr (name : String) :
    callCount registry counted scope (nameExpr name) = 0 := rfl

theorem callCount_wordExpr (word : UInt32) :
    callCount registry counted scope (wordExpr word) = 0 := rfl

theorem callCount_optionPath (name : String) :
    callCount registry counted scope (optionPath name) = 0 := rfl

theorem callCount_someExpr (hsome : registry.Lacks "Some") (hnot : counted .notVirtual = false)
    (value : Node) : callCount registry counted scope (someExpr value) =
      callCount registry counted scope value := by
  have hnames : registry.resolveNames ["core", "option", "Option", "Some"] scope.module =
      .notVirtual := resolveNames_of_lacks rfl hsome scope.module
  have hmeaning : registry.meaningHere? scope (someExpr value) = some .notVirtual :=
    congrArg some hnames
  unfold someExpr at hmeaning ⊢
  rw [callCount_of_not_counted rfl (by rw [hmeaning]; exact hnot)]
  simp only [callCountAll, callCount_noAttributes, callCount_optionPath, callCount_parens,
    Nat.zero_add, Nat.add_zero]

theorem callCount_slotExpr (hsome : registry.Lacks "Some") (hnot : counted .notVirtual = false)
    (parameter : ImplementationParameter) (slot : Option Node) :
    callCount registry counted scope (slotExpr parameter slot) =
      (slot.map (callCount registry counted scope)).getD 0 := by
  cases slot with
  | none => exact callCount_optionPath "None"
  | some value =>
      rw [slotExpr]
      split
      · exact callCount_someExpr hsome hnot value
      · rfl

theorem callCountAll_slots (hsome : registry.Lacks "Some") (hnot : counted .notVirtual = false)
    (parameters : List ImplementationParameter) (slot : Nat → Option Node) :
    callCountAll registry counted scope
        (parameters.zipIdx.map fun (parameter, position) => slotExpr parameter (slot position)) =
      ∑ position ∈ Finset.range parameters.length,
        ((slot position).map (callCount registry counted scope)).getD 0 := by
  induction parameters using List.reverseRecOn with
  | nil => rfl
  | append_singleton rest last ih =>
      rw [List.zipIdx_append, List.map_append, callCountAll_append, ih, List.length_append,
        List.length_singleton, Finset.sum_range_succ]
      simp only [List.zipIdx_cons, List.zipIdx_nil, List.map_cons, List.map_nil, callCountAll,
        callCount_slotExpr hsome hnot, Nat.zero_add, Nat.add_zero]

/-- The slots hold each bound value once. -/
theorem sum_slots {bound : List (Nat × Node)} {count : Nat} (hnodup : (bound.map (·.1)).Nodup)
    (hrange : ∀ position ∈ bound.map (·.1), position < count) (value : Node → Nat) :
    ∑ position ∈ Finset.range count, ((slotOf? bound position).map value).getD 0 =
      (bound.map fun entry => value entry.2).sum := by
  induction bound with
  | nil => exact Finset.sum_eq_zero fun position _ => rfl
  | cons entry rest ih =>
      obtain ⟨own, node⟩ := entry
      obtain ⟨hfresh, hrest⟩ := List.nodup_cons.mp hnodup
      have hstep : ∀ position ∈ Finset.range count,
          ((slotOf? ((own, node) :: rest) position).map value).getD 0 =
            (if position = own then value node else 0) +
              ((slotOf? rest position).map value).getD 0 := by
        intro position _
        by_cases hown : position = own
        · subst hown
          rw [slotOf?_cons_self, slotOf?_eq_none hfresh, if_pos rfl]
          rfl
        · rw [slotOf?_cons_of_ne (Ne.symm hown), if_neg hown, Nat.zero_add]
      have hmem : own ∈ Finset.range count :=
        Finset.mem_range.mpr (hrange own (List.mem_map.mpr ⟨_, List.mem_cons_self, rfl⟩))
      rw [Finset.sum_congr rfl hstep, Finset.sum_add_distrib, Finset.sum_ite_eq', if_pos hmem,
        ih hrest fun position hposition => hrange position (List.mem_cons_of_mem _ hposition),
        List.map_cons, List.sum_cons]

/-- What a match binds is counted where it is evaluated. -/
theorem callCount_behind {bindings : List Binding} {mutableReceiver : Bool} {call : Node}
    (hpatterns : ∀ binding ∈ bindings,
      callCountAll registry counted scope binding.pattern = 0) :
    callCount registry counted scope (behind bindings mutableReceiver call) =
      callCountAll registry counted scope (bindings.map (·.value)) +
        callCount registry counted scope call := by
  unfold behind
  split
  · next hempty =>
      rw [List.isEmpty_iff.mp hempty]
      exact (Nat.zero_add _).symm
  · have hvalues : callCountAll registry counted scope
        (commaEnded (bindings.map fun binding => [binding.value])) =
          callCountAll registry counted scope (bindings.map (·.value)) := by
      rw [callCount_commaEnded, callCountAll_eq_sum, List.map_map, List.map_map]
      rfl
    have hnone : callCountAll registry counted scope
        (commaEnded (bindings.map (·.pattern))) = 0 := by
      rw [callCount_commaEnded, List.map_map]
      refine List.sum_eq_zero fun count hmem => ?_
      obtain ⟨binding, hbinding, rfl⟩ := List.mem_map.mp hmem
      exact hpatterns binding hbinding
    have hattributes : callCountAll registry counted scope
        (if mutableReceiver then [listAttribute "allow" [[.ident "unused_mut"]]] else []) = 0 := by
      cases mutableReceiver <;> rfl
    simp only [bindingMatch, callCount_inner (by decide : Kind.matchExpr ∈ innerKinds),
      callCount_inner (by decide : Kind.tupleExpr ∈ innerKinds),
      callCount_inner (by decide : Kind.arm ∈ innerKinds),
      callCount_inner (by decide : Kind.pattern ∈ innerKinds),
      callCount_inner (by decide : Kind.attributes ∈ innerKinds), callCountAll, callCount_ident,
      callCount_punct, callCount_noAttributes, callCount_parens, callCount_braces, hvalues, hnone,
      hattributes, Nat.zero_add, Nat.add_zero]

theorem callCount_implementationArguments (hsome : registry.Lacks "Some")
    (hnot : counted .notVirtual = false) (implementation : ImplementationFunction)
    (targets : List Nat) (placed : List (Nat × Node)) :
    callCount registry counted scope (implementationArguments implementation targets placed) =
      ∑ position ∈ Finset.range implementation.parameters.length,
        ((slotOf? placed position).map (callCount registry counted scope)).getD 0 := by
  have hflags : ∀ flags : List UInt32,
      callCountAll registry counted scope (flags.map wordExpr) = 0 := by
    intro flags
    rw [callCountAll_eq_sum, List.map_map]
    exact List.sum_eq_zero fun count hmem => by
      obtain ⟨word, -, rfl⟩ := List.mem_map.mp hmem
      exact callCount_wordExpr word
  rw [implementationArguments, callCount_parens, callCount_commaSeparated, callCountAll_append,
    hflags, Nat.add_zero]
  exact callCountAll_slots hsome hnot implementation.parameters (slotOf? placed)

/-- Locals in the place of values leave no calls behind. -/
theorem sum_slots_placedLocals (implementation : ImplementationFunction)
    (bound : List (Nat × Node)) (count : Nat) :
    ∑ position ∈ Finset.range count,
      ((slotOf? (placedLocals implementation bound) position).map
        (callCount registry counted scope)).getD 0 = 0 := by
  refine Finset.sum_eq_zero fun position _ => ?_
  cases hslot : slotOf? (placedLocals implementation bound) position with
  | none => rfl
  | some value =>
      obtain ⟨entry, hfound, rfl⟩ := Option.map_eq_some_iff.mp hslot
      obtain ⟨own, -, rfl⟩ := List.mem_map.mp (List.mem_of_find?_eq_some hfound)
      exact callCount_nameExpr _

/-- What the path of an implementation has in front of its name. -/
def implementationFront (front : List Node) (container module : String) : List Node :=
  if front.isEmpty && container != module then
    match parsePath? container with
    | some qualified => qualified.parts.map expressionSegment ++ [.punct "::"]
    | none => []
  else front

theorem implementationPath_eq (front rest : List Node) (token : Token)
    (implementation container module : String) :
    implementationPath (.phrase .path (front ++ [.phrase .segment (.leaf token :: rest)]))
        implementation container module =
      .phrase .path (implementationFront front container module ++
        [.phrase .segment (.ident implementation :: rest)]) := by
  have hparts : (Node.phrase .path (front ++ [.phrase .segment (.leaf token :: rest)])).parts =
      front ++ [.phrase .segment (.leaf token :: rest)] := rfl
  unfold implementationPath implementationFront
  simp only [hparts, List.getLast?_concat, List.dropLast_concat]
  cases front with
  | nil =>
      by_cases hmodule : container = module
      · simp [hmodule, Node.parts]
      · simp only [List.nil_append, List.isEmpty_nil, Bool.true_and, beq_iff_eq, bne_iff_ne, ne_eq,
          hmodule, not_false_eq_true, if_true]
        cases parsePath? container with
        | some qualified => simp [Node.parts]
        | none => rfl
  | cons head tail =>
      split
      · next only honly => exact absurd (congrArg List.length honly) (by simp)
      · rfl

/-- What stands in front of the name holds the calls of the path in whose place it is. -/
theorem callCountAll_implementationFront {container : String}
    (hcontainer : ∀ qualified, parsePath? container = some qualified →
      holdsCall qualified = false) (front : List Node) (module : String) :
    callCountAll registry counted scope (implementationFront front container module) =
      callCountAll registry counted scope front := by
  unfold implementationFront
  split
  · next hbare =>
      rw [Bool.and_eq_true, List.isEmpty_iff] at hbare
      obtain ⟨rfl, -⟩ := hbare
      split
      · next qualified hqualified =>
          have hnone : callCountAll registry counted scope
              (qualified.parts.map expressionSegment) = 0 := by
            refine callCountAll_of_holdsAnyCall ?_
            rw [holdsAnyCall_map_expressionSegment]
            exact holdsAnyCall_parts (hcontainer qualified hqualified)
          rw [callCountAll_append, hnone]
          rfl
      · rfl
  · rfl

theorem pathNames_concat (front rest : List Node) (token : Token) :
    (Node.phrase .path (front ++ [.phrase .segment (.leaf token :: rest)])).pathNames =
      (Node.phrase .path front).pathNames ++
        [Node.segmentName (.phrase .segment (.leaf token :: rest))] := by
  have hsegment : Node.is .segment (.phrase .segment (.leaf token :: rest)) = true := rfl
  rw [Node.pathNames, Node.pathNames, Node.segments, Node.segments, List.filter_append,
    List.filter_cons_of_pos hsegment, List.filter_nil, List.map_append, List.map_singleton]

theorem getLast?_pathNames (others rest : List Node) (name : String) :
    (Node.phrase .path (others ++ [.phrase .segment (.ident name :: rest)])).pathNames.getLast? =
      some name := by
  rw [Node.ident, pathNames_concat, List.getLast?_concat]
  rfl

/-! ### What was written as arguments -/

/-- An assignment among arguments has no attributes of its own, two sides and its sign. -/
def PlainArgument (node : Node) : Prop :=
  ∀ parts, node = .phrase .assignExpr parts →
    ∃ left sign value, parts = [.empty .attributes, left, .leaf sign, value]

theorem callCount_of_assignedName? {node : Node} {name : String}
    (hname : assignedName? node = some name) : callCount registry counted scope node = 0 := by
  unfold assignedName? at hname
  split at hname
  · rw [eq_of_soleName? hname]
    rfl
  · cases hname

theorem callCount_value_ofExpr {node : Node} (hplain : PlainArgument node) :
    callCount registry counted scope (Argument.ofExpr node).value =
      callCount registry counted scope node := by
  unfold Argument.ofExpr
  split
  · next attributes left sign value =>
      split
      · next name hname =>
          obtain ⟨otherLeft, token, otherValue, hparts⟩ := hplain _ rfl
          cases hparts
          rw [callCount_inner (by decide)]
          simp only [callCountAll, callCount_noAttributes, callCount_of_assignedName? hname,
            callCount, Argument.value, Nat.zero_add, Nat.add_zero]
      · rfl
  · rfl

theorem sum_argumentsOf {body : List Node} (hplain : ∀ node ∈ body, PlainArgument node) :
    ((argumentsOf body).map fun argument =>
        callCount registry counted scope argument.value).sum =
      callCountAll registry counted scope body := by
  induction body with
  | nil => rfl
  | cons node rest ih =>
      have hrest := ih fun other hmem => hplain other (List.mem_cons_of_mem node hmem)
      rw [callCountAll, ← hrest, argumentsOf, argumentsOf]
      by_cases hcomma : node.isPunct "," = true
      · rw [List.filter_cons_of_neg (by simp [hcomma])]
        cases node with
        | leaf token => exact (Nat.zero_add _).symm
        | group delimiter inner => cases hcomma
        | phrase kind parts => cases hcomma
      · rw [List.filter_cons_of_pos (by simp [hcomma]), List.map_cons, List.map_cons, List.sum_cons,
          callCount_value_ofExpr (hplain node List.mem_cons_self)]

end Written

/-! ### A redirected call -/

section Redirected

variable {registry : Registry} {counted : Resolution → Bool} {scope : Scope} {pair : Pair}
  {module : String}

/-- What redirecting to a pair relies on: the pair was derived, no virtual function has the name of
its implementation or is called `Some`, and there is no call in the path of its container. -/
structure Registry.Settles (registry : Registry) (pair : Pair) : Prop where
  derived : Pair.derive? pair.virtual = some pair
  some : registry.Lacks "Some"
  implementation : registry.Lacks pair.implementation.name
  container : ∀ path, parsePath? pair.virtual.container = .some path → holdsCall path = false

/-- Bound values are counted once, whether a match evaluates them or the call itself does. -/
theorem callCount_placed (hsettles : registry.Settles pair) (hnot : counted .notVirtual = false)
    {arguments : List Argument} {bound : List (Nat × Node)}
    (hbound : bindArguments pair.virtual arguments = .ok bound) (reordered : Bool)
    (targets : List Nat) :
    callCountAll registry counted scope
        ((if reordered then argumentBindings pair.implementation bound else []).map (·.value)) +
      callCount registry counted scope (implementationArguments pair.implementation targets
        (if reordered then placedLocals pair.implementation bound else bound)) =
      (arguments.map fun argument => callCount registry counted scope argument.value).sum := by
  obtain ⟨hpositions, hvalues, hnodup, hrange⟩ := bindArguments_ok hbound
  have hlength : pair.implementation.parameters.length = pair.virtual.parameters.length := by
    rw [(derive?_eq_some hsettles.derived).2.1, List.length_map]
  have hsum : (bound.map fun entry => callCount registry counted scope entry.2).sum =
      (arguments.map fun argument => callCount registry counted scope argument.value).sum := by
    have hmap := congrArg (List.map (callCount registry counted scope)) hvalues
    rw [List.map_map, List.map_map] at hmap
    exact congrArg List.sum hmap
  rw [callCount_implementationArguments hsettles.some hnot, ← hsum]
  cases reordered with
  | true =>
      rw [if_pos rfl, if_pos rfl, sum_slots_placedLocals, Nat.add_zero, callCountAll_eq_sum,
        argumentBindings, List.map_map, List.map_map]
      rfl
  | false =>
      rw [if_neg nofun, if_neg nofun, hlength]
      rw [← hpositions] at hnodup hrange
      exact (Nat.zero_add _).trans (sum_slots hnodup hrange _)

theorem callCountAll_argumentPatterns (implementation : ImplementationFunction)
    (bound : List (Nat × Node)) (reordered : Bool) :
    ∀ binding ∈ (if reordered then argumentBindings implementation bound else []),
      callCountAll registry counted scope binding.pattern = 0 := by
  intro binding hmem
  cases reordered with
  | true =>
      obtain ⟨entry, -, rfl⟩ := List.mem_map.mp hmem
      rfl
  | false => cases hmem

/-- A redirected function call holds the calls of its path and of its arguments. -/
theorem callCount_redirectCall_function (hsettles : registry.Settles pair)
    (hnot : counted .notVirtual = false) {attributes own : Node} {front rest body : List Node}
    {token : Token} (hplain : ∀ node ∈ body, PlainArgument node) {redirected : RedirectedCall} :
    let path := Node.phrase .path (front ++ [.phrase .segment (.leaf token :: rest)])
    redirectCall ⟨attributes, .function own path, argumentsOf body⟩ pair module = .ok redirected →
      callCount registry counted scope redirected.expr = callCountAll registry counted scope
        [attributes, .phrase .pathExpr [own, path], .group .paren body] := by
  intro path hok
  obtain ⟨bound, hbound, hredirected⟩ := bind_eq_ok_iff.mp hok
  cases hredirected
  set others := implementationFront front pair.virtual.container module
  have hpath := implementationPath_eq front rest token pair.implementation.name
    pair.virtual.container module
  have hothers := @callCountAll_implementationFront registry counted scope _ hsettles.container
    front module
  have hplaced := @callCount_placed registry counted scope pair hsettles hnot _ _ hbound
    (hasDescent (bound.map (·.1))) (bound.map (·.1))
  rw [sum_argumentsOf hplain] at hplaced
  have hmeaning : ∀ arguments, (registry.meaningHere? scope (.phrase .callExpr
      [attributes, .phrase .pathExpr [own, .phrase .path
        (others ++ [.phrase .segment (.ident pair.implementation.name :: rest)])],
        parens arguments])).any counted = false := by
    intro arguments
    have hresolve := resolveNames_of_lacks (getLast?_pathNames others rest pair.implementation.name)
      hsettles.implementation scope.module
    exact (congrArg counted hresolve).trans hnot
  have hpathCount : callCount registry counted scope (.phrase .path
      (others ++ [.phrase .segment (.ident pair.implementation.name :: rest)])) =
        callCount registry counted scope path := by
    rw [callCount_inner (by decide), callCount_inner (by decide), callCountAll_append,
      callCountAll_append, hothers]
    rfl
  simp only [redirectedExpr]
  rw [callCount_behind (callCountAll_argumentPatterns _ _ _), hpath, implementationArguments,
    callCount_of_not_counted rfl (hmeaning _), ← implementationArguments]
  have hbody : callCount registry counted scope (.group .paren body) =
      callCountAll registry counted scope body := rfl
  simp only [callCountAll, callCount_inner (by decide : Kind.pathExpr ∈ innerKinds), hpathCount,
    hbody, Nat.add_zero]
  omega

/-- A redirected method call holds the calls of its receiver and of its arguments. -/
theorem callCount_redirectCall_method (hsettles : registry.Settles pair)
    (hnot : counted .notVirtual = false) {attributes receiver dot turbofish : Node} {name : String}
    {body : List Node} (hplain : ∀ node ∈ body, PlainArgument node) {redirected : RedirectedCall} :
    redirectCall ⟨attributes, .method receiver dot name turbofish, argumentsOf body⟩ pair module =
        .ok redirected →
      callCount registry counted scope redirected.expr = callCountAll registry counted scope
        [attributes, receiver, dot, .leaf (.ident name), turbofish, .group .paren body] := by
  intro hok
  obtain ⟨bound, hbound, hredirected⟩ := bind_eq_ok_iff.mp hok
  cases hredirected
  have hplaced := @callCount_placed registry counted scope pair hsettles hnot _ _ hbound
    (hasDescent (bound.map (·.1))) (bound.map (·.1))
  rw [sum_argumentsOf hplain] at hplaced
  have hmeaning : ∀ inner arguments, (registry.meaningHere? scope (.phrase .methodCallExpr
      [attributes, inner, dot, .ident pair.implementation.name, turbofish,
        parens arguments])).any counted = false := by
    intro inner arguments
    have hresolve := fun selfContainer named =>
      resolveMethod_of_lacks hsettles.implementation selfContainer named
    exact (congrArg counted (hresolve _ _)).trans hnot
  have hreceiver : callCount registry counted scope
      (bindReceiver (hasDescent (bound.map (·.1))) receiver).1 + callCountAll registry counted scope
        ((bindReceiver (hasDescent (bound.map (·.1))) receiver).2.toList.map (·.value)) =
      callCount registry counted scope receiver := by
    unfold bindReceiver
    split
    · exact Nat.zero_add _
    · rfl
  have hpatterns : ∀ reordered, ∀ binding ∈ (bindReceiver reordered receiver).2.toList,
      callCountAll registry counted scope binding.pattern = 0 := by
    intro reordered binding hmem
    unfold bindReceiver at hmem
    split at hmem
    · cases List.mem_singleton.mp hmem
      rfl
    · cases hmem
  have hbody : callCount registry counted scope (.group .paren body) =
      callCountAll registry counted scope body := rfl
  have hname : callCount registry counted scope (.leaf (.ident name)) = 0 := rfl
  simp only [redirectedExpr]
  rw [callCount_behind fun binding hmem => (List.mem_append.mp hmem).elim (hpatterns _ binding)
      (callCountAll_argumentPatterns _ _ _ binding), implementationArguments,
    callCount_of_not_counted rfl (hmeaning _ _), ← implementationArguments, List.map_append,
    callCountAll_append]
  simp only [callCountAll, hbody, hname, callCount_ident, ← hplaced, Nat.add_zero, Nat.zero_add]
  omega

end Redirected

end EntityTables.Call
