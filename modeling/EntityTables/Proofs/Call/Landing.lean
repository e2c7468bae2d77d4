import EntityTables.Proofs.Call.Idempotence
import EntityTables.Proofs.Call.Places

/-!
# Where redirected calls land

A redirected path is read in the module that the original path is read in. Among the
implementations, which stand beside their functions, it selects the one in the container of the
pair: the last name alone was replaced, and a single name of another module became the full path of
the container. The full path is compared as a text, so it has to be the text of the container.
-/

namespace EntityTables.Call

open EntityTables.Syntax EntityTables.Text

/-! ### The implementations beside the functions -/

/-- The place beside a function where its implementation is. -/
def FunctionKey.implementation (key : FunctionKey) : FunctionKey :=
  { key with name := implementationPrefix ++ key.name }

/-- A function under the name of its implementation. -/
def VirtualFunction.renamed (function : VirtualFunction) : VirtualFunction :=
  { function with name := implementationPrefix ++ function.name }

/-- The registry in which every function without receiver has the name of its implementation. -/
def Registry.renamed (registry : Registry) : Registry :=
  let functions := registry.virtuals.values
  (functions.filter (·.receiver) ++ (functions.filter (!·.receiver)).map (·.renamed)).foldl
    insertVirtual empty

section Keys

variable {registry : Registry} {key : FunctionKey}

theorem mem_freeKeys (hsorted : registry.virtuals.Sorted) : key ∈ registry.freeKeys ↔
    ∃ function, registry.virtuals.find? key = some function ∧ function.receiver = false := by
  rw [Registry.freeKeys, Keyed.mem_keys_filter hsorted]
  simp only [Bool.not_eq_true']

theorem freeKeys_pairwise (hsorted : registry.virtuals.Sorted) :
    registry.freeKeys.Pairwise (· < ·) :=
  hsorted.keys_filter _

/-- Where nothing is implemented, declaring a function only adds it. -/
theorem insertVirtual_of_not_implemented (himplementations : registry.implementations = [])
    (function : VirtualFunction) : registry.insertVirtual function =
      { registry with virtuals := registry.virtuals.insert function.key function } :=
  link_of_not_implemented (by rw [himplementations]; rfl)

/-- A registry that declares functions alone. -/
structure Registry.Declares (registry : Registry) : Prop where
  sorted : registry.virtuals.Sorted
  implementations : registry.implementations = []
  pairs : registry.pairs = []

theorem Registry.Declares.insertVirtual (hdeclares : registry.Declares)
    (function : VirtualFunction) : (registry.insertVirtual function).Declares := by
  rw [insertVirtual_of_not_implemented hdeclares.implementations]
  exact ⟨hdeclares.sorted.insert _ _, hdeclares.implementations, hdeclares.pairs⟩

theorem mem_freeKeys_insertVirtual (hdeclares : registry.Declares) (function : VirtualFunction) :
    key ∈ (registry.insertVirtual function).freeKeys ↔
      if function.key = key then function.receiver = false else key ∈ registry.freeKeys := by
  rw [mem_freeKeys (hdeclares.insertVirtual function).sorted,
    insertVirtual_of_not_implemented hdeclares.implementations, Keyed.find?_insert]
  by_cases hkey : function.key = key
  · rw [if_pos hkey, if_pos hkey]
    constructor
    · rintro ⟨found, hfound, hfree⟩
      exact Option.some.inj hfound ▸ hfree
    · intro hfree
      exact ⟨function, rfl, hfree⟩
  · rw [if_neg hkey, if_neg hkey, mem_freeKeys hdeclares.sorted]

theorem declares_foldl (hdeclares : registry.Declares) (functions : List VirtualFunction) :
    (functions.foldl Registry.insertVirtual registry).Declares := by
  induction functions generalizing registry with
  | nil => exact hdeclares
  | cons function rest ih => exact ih (hdeclares.insertVirtual function)

/-- Methods are called by no path. -/
theorem freeKeys_foldl_methods (hdeclares : registry.Declares) (hnone : registry.freeKeys = [])
    {methods : List VirtualFunction} (hmethods : ∀ method ∈ methods, method.receiver = true) :
    (methods.foldl Registry.insertVirtual registry).freeKeys = [] := by
  induction methods generalizing registry with
  | nil => exact hnone
  | cons method rest ih =>
      refine ih (hdeclares.insertVirtual method) (List.eq_nil_iff_forall_not_mem.mpr ?_)
        fun other hmem => hmethods other (List.mem_cons_of_mem _ hmem)
      intro key hmem
      rw [mem_freeKeys_insertVirtual hdeclares, hnone, hmethods method List.mem_cons_self] at hmem
      split at hmem
      · cases hmem
      · cases hmem

theorem mem_freeKeys_foldl (hdeclares : registry.Declares) {functions : List VirtualFunction}
    (hfree : ∀ function ∈ functions, function.receiver = false) :
    key ∈ (functions.foldl Registry.insertVirtual registry).freeKeys ↔
      (∃ function ∈ functions, function.key = key) ∨ key ∈ registry.freeKeys := by
  induction functions generalizing registry with
  | nil => simp
  | cons function rest ih =>
      rw [List.foldl_cons, ih (hdeclares.insertVirtual function)
        fun other hmem => hfree other (List.mem_cons_of_mem _ hmem),
        mem_freeKeys_insertVirtual hdeclares, hfree function List.mem_cons_self,
        List.exists_mem_cons_iff]
      by_cases hkey : function.key = key
      · simp [hkey]
      · simp [hkey]

theorem declares_empty : Registry.empty.Declares := ⟨.nil, rfl, rfl⟩

theorem declares_renamed : registry.renamed.Declares := declares_foldl declares_empty _

/-- The functions of the renamed registry stand beside those of the original one. -/
theorem mem_freeKeys_renamed {registrations : List Registration}
    (hholds : registry.Holds registrations) :
    key ∈ registry.renamed.freeKeys ↔ ∃ own ∈ registry.freeKeys, own.implementation = key := by
  have hmethods : ∀ method ∈ registry.virtuals.values.filter (·.receiver),
      method.receiver = true := fun method hmem => (List.mem_filter.mp hmem).2
  have hfree : ∀ function ∈ (registry.virtuals.values.filter (!·.receiver)).map (·.renamed),
      function.receiver = false := by
    intro function hmem
    obtain ⟨own, hown, rfl⟩ := List.mem_map.mp hmem
    exact Bool.not_eq_true' _ ▸ (List.mem_filter.mp hown).2
  rw [Registry.renamed, List.foldl_append,
    mem_freeKeys_foldl (declares_foldl declares_empty _) hfree,
    freeKeys_foldl_methods declares_empty rfl hmethods]
  constructor
  · rintro (⟨function, hmem, rfl⟩ | hmem)
    · obtain ⟨own, hown, rfl⟩ := List.mem_map.mp hmem
      obtain ⟨hown, hreceiver⟩ := List.mem_filter.mp hown
      obtain ⟨⟨place, own⟩, hentry, rfl⟩ := List.mem_map.mp hown
      obtain rfl := hholds.key_of_mem hentry
      exact ⟨own.key, List.mem_map.mpr ⟨_, List.mem_filter.mpr ⟨hentry, hreceiver⟩, rfl⟩, rfl⟩
    · cases hmem
  · rintro ⟨own, hown, rfl⟩
    obtain ⟨⟨place, function⟩, hentry, rfl⟩ := List.mem_map.mp hown
    obtain ⟨hentry, hreceiver⟩ := List.mem_filter.mp hentry
    obtain rfl := hholds.key_of_mem hentry
    refine Or.inl ⟨function.renamed, List.mem_map.mpr ⟨function, ?_, rfl⟩, rfl⟩
    exact List.mem_filter.mpr ⟨List.mem_map.mpr ⟨_, hentry, rfl⟩, hreceiver⟩

theorem implementation_lt {other : FunctionKey} (hname : key.name = other.name)
    (hlt : key < other) : key.implementation < other.implementation := by
  rcases hlt with hcontainer | ⟨hcontainer, hname'⟩
  · exact Or.inl hcontainer
  · exact absurd (hname ▸ hname') (String.lt_irrefl _)

/-- The candidates of a renamed path are those of the original one. -/
theorem filter_freeKeys_renamed {registrations : List Registration}
    (hholds : registry.Holds registrations) (name : String) :
    registry.renamed.freeKeys.filter (·.name == implementationPrefix ++ name) =
      (registry.freeKeys.filter (·.name == name)).map (·.implementation) := by
  have hnamed : ∀ own : FunctionKey, own.implementation.name = implementationPrefix ++ name ↔
      own.name = name := fun own => String.append_right_inj implementationPrefix
  have hleft : (registry.renamed.freeKeys.filter
      (·.name == implementationPrefix ++ name)).Pairwise (· < ·) :=
    (freeKeys_pairwise declares_renamed.sorted).filter _
  have hright : ((registry.freeKeys.filter (·.name == name)).map (·.implementation)).Pairwise
      (· < ·) := by
    have hkeys := (freeKeys_pairwise hholds.sortedVirtuals).filter (·.name == name)
    refine List.pairwise_map.mpr (hkeys.imp_of_mem ?_)
    intro first second hfirst hsecond hlt
    refine implementation_lt ?_ hlt
    rw [beq_iff_eq.mp (List.mem_filter.mp hfirst).2, beq_iff_eq.mp (List.mem_filter.mp hsecond).2]
  have hmem : ∀ key, key ∈ registry.renamed.freeKeys.filter
      (·.name == implementationPrefix ++ name) ↔
        key ∈ (registry.freeKeys.filter (·.name == name)).map (·.implementation) := by
    intro key
    rw [List.mem_filter, mem_freeKeys_renamed hholds, List.mem_map]
    constructor
    · rintro ⟨⟨own, hown, rfl⟩, hname⟩
      have hsame := (hnamed own).mp (beq_iff_eq.mp hname)
      exact ⟨own, List.mem_filter.mpr ⟨hown, beq_iff_eq.mpr hsame⟩, rfl⟩
    · rintro ⟨own, hown, rfl⟩
      obtain ⟨hown, hname⟩ := List.mem_filter.mp hown
      exact ⟨⟨own, hown, rfl⟩, beq_iff_eq.mpr ((hnamed own).mpr (beq_iff_eq.mp hname))⟩
  have hirrefl : Std.Irrefl fun first second : FunctionKey => first < second :=
    ⟨irrefl_of (· < ·)⟩
  refine List.Perm.eq_of_pairwise (fun first second _ _ hlt hgt => ?_) hleft hright
    ((List.perm_ext_iff_of_nodup hleft.nodup hright.nodup).mpr hmem)
  exact absurd hgt (asymm_of (· < ·) hlt)

end Keys

/-! ### Choosing among implementations -/

/-- A choice among functions that looks at their containers alone. -/
inductive ReadsContainers (choose : List FunctionKey → List FunctionKey) : Prop
  | all (test : String → Bool) (heq : ∀ keys, choose keys = keys.filter (test ·.container))
  | preferred (test : String → Bool) (container : String) (heq : ∀ keys, choose keys =
      Registry.preferContainer (keys.filter (test ·.container)) container)

theorem readsContainers_relative {qualifier : List String} {module : String}
    (hchoose : ∀ keys, Registry.chooseByQualifier keys qualifier module =
      match Registry.relativeParts? (nameParts module) qualifier with
      | some parts => Registry.inContainer keys (joinNames parts)
      | none => []) :
    ReadsContainers (Registry.chooseByQualifier · qualifier module) := by
  cases hparts : Registry.relativeParts? (nameParts module) qualifier with
  | some parts =>
      refine .all (· == joinNames parts) fun keys => ?_
      rw [hchoose, hparts]
      rfl
  | none =>
      refine .all (fun _ => false) fun keys => ?_
      rw [hchoose, hparts, List.filter_false]

theorem readsContainers (qualifier : List String) (module : String) :
    ReadsContainers (Registry.chooseByQualifier · qualifier module) := by
  rcases qualifier with _ | ⟨first, rest⟩
  · exact .preferred (fun _ => true) module fun keys => by rw [List.filter_true]; rfl
  by_cases hcrate : first = "crate"
  · subst hcrate
    exact .all (· == joinNames ("crate" :: rest)) fun keys => rfl
  by_cases hself : first = "self"
  · subst hself
    exact readsContainers_relative fun keys => rfl
  by_cases hsuper : first = "super"
  · subst hsuper
    exact readsContainers_relative fun keys => rfl
  · refine .preferred (endsInParts · (first :: rest))
      (nameWithin module (joinNames (first :: rest))) fun keys => ?_
    simp [Registry.chooseByQualifier, hcrate, hself, hsuper]

theorem preferContainer_subset (keys : List FunctionKey) (container : String) :
    Registry.preferContainer keys container ⊆ keys := by
  unfold Registry.preferContainer
  split
  · next key hkey =>
      intro other hmem
      exact List.mem_singleton.mp hmem ▸ List.mem_of_find?_eq_some hkey
  · exact List.Subset.refl keys

theorem preferContainer_map (keys : List FunctionKey) (container : String) :
    Registry.preferContainer (keys.map (·.implementation)) container =
      (Registry.preferContainer keys container).map (·.implementation) := by
  have hfind : (keys.map (·.implementation)).find? (·.container == container) =
      (keys.find? (·.container == container)).map (·.implementation) := List.find?_map
  unfold Registry.preferContainer
  rw [hfind]
  cases keys.find? (·.container == container) with
  | none => rfl
  | some key => rfl

section Choice

variable {choose : List FunctionKey → List FunctionKey}

theorem ReadsContainers.subset (hreads : ReadsContainers choose) (keys : List FunctionKey) :
    choose keys ⊆ keys := by
  cases hreads with
  | all test heq =>
      rw [heq]
      exact List.filter_subset_self keys
  | preferred test container heq =>
      rw [heq]
      exact fun key hmem => List.filter_subset_self keys (preferContainer_subset _ container hmem)

/-- Among the implementations beside some functions, the one beside the chosen one is chosen. -/
theorem ReadsContainers.map_implementation (hreads : ReadsContainers choose)
    (keys : List FunctionKey) :
    choose (keys.map (·.implementation)) = (choose keys).map (·.implementation) := by
  have hfilter : ∀ test : String → Bool,
      (keys.map (·.implementation)).filter (test ·.container) =
        (keys.filter (test ·.container)).map (·.implementation) := fun test => List.filter_map
  cases hreads with
  | all test heq => rw [heq, heq, hfilter]
  | preferred test container heq => rw [heq, heq, hfilter, preferContainer_map]

end Choice

/-! ### The path of an implementation -/

section Path

/-- An expression writes the same names. -/
theorem pathNames_map_expressionSegment (parts : List Node) :
    (Node.phrase .path (parts.map expressionSegment)).pathNames =
      (Node.phrase .path parts).pathNames := by
  have hsame : ∀ node : Node, (expressionSegment node).is .segment = node.is .segment ∧
      (expressionSegment node).segmentName = node.segmentName := by
    intro node
    unfold expressionSegment
    split
    · exact ⟨rfl, rfl⟩
    · exact ⟨rfl, rfl⟩
  have hfilter : (parts.map expressionSegment).filter (Node.is .segment) =
      (parts.filter (Node.is .segment)).map expressionSegment := by
    rw [List.filter_map]
    exact congrArg (List.map _) (List.filter_congr fun node _ => (hsame node).1)
  rw [Node.pathNames, Node.pathNames, Node.segments, Node.segments, hfilter, List.map_map]
  exact List.map_congr_left fun node _ => (hsame node).2

end Path

/-! ### Where a redirected path leads -/

section Landing

variable {registry : Registry} {registrations : List Registration} {key : FunctionKey} {pair : Pair}
  {qualifier : List String} {name module : String}

theorem key_of_inserted? (hinserted : inserted? registrations key = some pair) :
    pair.virtual.key = key := by
  obtain ⟨registration, -, hinserts⟩ := exists_of_latest? hinserted
  exact Registration.key_of_declares? (Registration.declares?_of_inserts? hinserts)

/-- A pair is kept under the place of its virtual function. -/
theorem Registry.Holds.key_of_pair (hholds : registry.Holds registrations)
    (hpair : registry.pairs.find? key = some pair) : pair.virtual.key = key := by
  cases himplementation : registry.implementations.find? key with
  | some signature =>
      have hvirtual := hholds.agrees key signature pair himplementation hpair
      rw [hholds.virtuals] at hvirtual
      exact key_of_declared? hvirtual
  | none =>
      rw [hholds.inserted key himplementation] at hpair
      exact key_of_inserted? hpair

theorem mem_of_outcome_unpaired {keys : List FunctionKey}
    (houtcome : registry.outcome keys = .unpaired key) : key ∈ keys := by
  unfold Registry.outcome at houtcome
  split at houtcome
  · cases houtcome
  · split at houtcome
    · cases houtcome
    · cases houtcome
      exact List.mem_singleton_self key
  · cases houtcome

/-- The function of a pair that names mean is chosen alone, and it has the last name. -/
theorem chosen_of_resolveNames (hholds : registry.Holds registrations)
    (hresolved : registry.resolveNames (qualifier ++ [name]) module = .pair pair) :
    pair.virtual.name = name ∧
      Registry.chooseByQualifier (registry.freeKeys.filter (·.name == name)) qualifier module =
        [pair.virtual.key] := by
  rw [resolveNames_concat] at hresolved
  obtain ⟨key, hchosen, hpair⟩ := outcome_eq_pair_iff.mp hresolved
  have hkey : pair.virtual.key = key := hholds.key_of_pair hpair
  have hmem : key ∈ registry.freeKeys.filter (·.name == name) := by
    apply (readsContainers qualifier module).subset
    rw [hchosen]
    exact List.mem_singleton_self key
  refine ⟨?_, hchosen.trans (congrArg (fun key => [key]) hkey.symm)⟩
  calc pair.virtual.name = pair.virtual.key.name := rfl
    _ = key.name := by rw [hkey]
    _ = name := beq_iff_eq.mp (List.mem_filter.mp hmem).2

/-- What is chosen alone in the renamed registry is a function without implementation. -/
theorem outcome_renamed (key : FunctionKey) : registry.renamed.outcome [key] = .unpaired key := by
  have hpairs : registry.renamed.pairs = [] := declares_renamed.pairs
  unfold Registry.outcome
  rw [hpairs]
  rfl

/-- The same names with the name of the implementation lead to the same container. -/
theorem resolveNames_renamed (hholds : registry.Holds registrations)
    (hresolved : registry.resolveNames (qualifier ++ [name]) module = .pair pair) :
    registry.renamed.resolveNames (qualifier ++ [implementationPrefix ++ name]) module =
      .unpaired pair.virtual.key.implementation := by
  have hchosen := (chosen_of_resolveNames hholds hresolved).2
  rw [resolveNames_concat, filter_freeKeys_renamed hholds,
    (readsContainers qualifier module).map_implementation, hchosen]
  exact outcome_renamed _

theorem filter_container_eq {keys : List FunctionKey} (hnodup : keys.Nodup) (hmem : key ∈ keys) :
    (keys.filter (·.name == key.name)).filter (·.container == key.container) = [key] := by
  rw [eq_singleton_iff_of_nodup ((hnodup.filter _).filter _)]
  constructor
  · simp [hmem]
  · rintro ⟨container, name⟩ hother
    obtain ⟨hother, hcontainer⟩ := List.mem_filter.mp hother
    have hname := (List.mem_filter.mp hother).2
    rw [FunctionKey.mk.injEq]
    exact ⟨beq_iff_eq.mp hcontainer, beq_iff_eq.mp hname⟩

/-- The full path of the container leads to it if it is spelled as the container is. -/
theorem resolveNames_renamed_qualified (hholds : registry.Holds registrations)
    (hresolved : registry.resolveNames (qualifier ++ [name]) module = .pair pair)
    {names : List String} (hroot : names.head? = some "crate") :
    registry.renamed.resolveNames (names ++ [implementationPrefix ++ name]) module =
        .unpaired pair.virtual.key.implementation ↔
      joinNames names = pair.virtual.container := by
  obtain ⟨rfl, hchosen⟩ := chosen_of_resolveNames hholds hresolved
  obtain ⟨rest, rfl⟩ : ∃ rest, names = "crate" :: rest :=
    ⟨names.tail, (List.cons_head?_tail hroot).symm⟩
  set keys := registry.freeKeys.filter (·.name == pair.virtual.name)
  have hexact : Registry.chooseByQualifier (keys.map (·.implementation)) ("crate" :: rest) module =
      (keys.filter (·.container == joinNames ("crate" :: rest))).map (·.implementation) :=
    List.filter_map
  rw [resolveNames_concat, filter_freeKeys_renamed hholds, hexact]
  constructor
  · intro hunpaired
    obtain ⟨key, hkey, heq⟩ := List.mem_map.mp (mem_of_outcome_unpaired hunpaired)
    have hcontainer : key.container = pair.virtual.key.container := congrArg (·.container) heq
    exact (beq_iff_eq.mp (List.mem_filter.mp hkey).2).symm.trans hcontainer
  · intro htext
    have hmem : pair.virtual.key ∈ keys := by
      apply (readsContainers qualifier module).subset
      rw [hchosen]
      exact List.mem_singleton_self _
    have hnodup : registry.freeKeys.Nodup := (freeKeys_pairwise hholds.sortedVirtuals).nodup
    have honly := filter_container_eq hnodup (List.mem_filter.mp hmem).1
    rw [htext]
    exact (congrArg (registry.renamed.outcome ·) (congrArg (List.map _) honly)).trans
      (outcome_renamed _)

/-- In front of a single name of another module stand the names of the container. -/
theorem pathNames_implementationFront {container module : String} {qualified : Node}
    (hcontainer : parsePath? container = some qualified) (hmodule : container ≠ module) :
    (Node.phrase .path (implementationFront [] container module)).pathNames =
      qualified.pathNames := by
  obtain ⟨parts, rfl⟩ := exists_parts_of_is (is_path_of_parsePath? hcontainer)
  have hfront : implementationFront [] container module =
      parts.map expressionSegment ++ [.punct "::"] := by
    unfold implementationFront
    rw [hcontainer, if_pos]
    · rfl
    · simp [hmodule]
  have hsign : ∀ nodes, (Node.phrase .path (nodes ++ [.punct "::"])).pathNames =
      (Node.phrase .path nodes).pathNames := by
    intro nodes
    rw [Node.pathNames, Node.pathNames, Node.segments, Node.segments, List.filter_append]
    exact congrArg (List.map _) (List.append_nil _)
  rw [hfront, hsign, pathNames_map_expressionSegment]

theorem implementationFront_of_ne {front : List Node} {container module : String}
    (hfront : front ≠ [] ∨ container = module) :
    implementationFront front container module = front := by
  unfold implementationFront
  rw [if_neg]
  rcases hfront with hfront | hmodule
  · simp [hfront]
  · simp [hmodule]

/-- **Where a redirected path leads.** If the pairs of a registry are derived and the container of
the pair that a path means is a path from the root of the crate, the redirected path ends in the
name of the implementation with the generic arguments of the original path, and keeps what stands in
front of it unless that is nothing. Among the implementations it means the one in the container of
the pair; from a single name of another module it does so if the container is spelled as the names
of its path, without blanks and arguments. -/
theorem resolveFunction_implementationPath {operations : List Operation} {module : String}
    {front arguments : List Node} {token : Token} {pair : Pair} {qualified : Node}
    (hinserted : ∀ pair, .register (.pair pair) ∈ operations →
      Pair.derive? pair.virtual = some pair)
    (hcontainer : parsePath? pair.virtual.container = some qualified)
    (hroot : qualified.pathNames.head? = some "crate")
    (hresolved : (Registry.after operations).resolveFunction
      (.phrase .path (front ++ [.phrase .segment (.leaf token :: arguments)])) module =
        .pair pair) :
    let path := Node.phrase .path (front ++ [.phrase .segment (.leaf token :: arguments)])
    let redirected := implementationPath path pair.implementation.name pair.virtual.container module
    let name := implementationPrefix ++ pair.virtual.name
    path.pathNames.getLast? = some pair.virtual.name ∧
      (∃ before, redirected =
          .phrase .path (before ++ [.phrase .segment (.ident name :: arguments)]) ∧
        (front ≠ [] → before = front)) ∧
      ((Registry.after operations).renamed.resolveFunction redirected module =
          .unpaired ⟨pair.virtual.container, name⟩ ↔
        (front = [] → pair.virtual.container ≠ module →
          qualified.pathText = pair.virtual.container)) := by
  intro path redirected name
  have hholds := holds_after operations
  obtain ⟨key, hkey⟩ := @exists_find?_of_resolve _ _ ⟨module, none⟩ (.function path) hresolved
  have hname : pair.implementation.name = name :=
    name_of_derive? (derived_after hinserted key pair hkey)
  have hredirected : redirected = .phrase .path
      (implementationFront front pair.virtual.container module ++
        [.phrase .segment (.ident name :: arguments)]) := by
    rw [← hname]
    exact implementationPath_eq _ _ _ _ _ _
  have hnames := pathNames_concat front arguments token
  rw [Registry.resolveFunction, hnames] at hresolved
  have hlast := (chosen_of_resolveNames hholds hresolved).1
  refine ⟨?_, ⟨_, hredirected, fun hfront => implementationFront_of_ne (.inl hfront)⟩, ?_⟩
  · rw [hnames, List.getLast?_concat, hlast]
  have hown : (implementationFront front pair.virtual.container module) = front →
      (Registry.after operations).renamed.resolveFunction redirected module =
        .unpaired ⟨pair.virtual.container, name⟩ := by
    intro hsame
    rw [Registry.resolveFunction, hredirected, hsame, Node.ident, pathNames_concat]
    have hrenamed := resolveNames_renamed hholds hresolved
    rw [← hlast] at hrenamed
    exact hrenamed
  by_cases hbare : front = [] ∧ pair.virtual.container ≠ module
  · obtain ⟨rfl, hmodule⟩ := hbare
    have hqualified := resolveNames_renamed_qualified hholds hresolved hroot
    rw [← hlast] at hqualified
    rw [Registry.resolveFunction, hredirected, Node.ident, pathNames_concat,
      pathNames_implementationFront hcontainer hmodule]
    exact hqualified.trans ⟨fun htext _ _ => htext, fun htext => htext rfl hmodule⟩
  · refine iff_of_true (hown ?_) fun hfront hmodule => absurd ⟨hfront, hmodule⟩ hbare
    apply implementationFront_of_ne
    tauto

/-- The names of a container and of what it is read as. -/
theorem exists_qualified {container : String} {names : List String}
    (hnames : (parsePath? container).map Node.pathNames = some names) :
    ∃ qualified, parsePath? container = some qualified ∧ qualified.pathNames = names :=
  Option.map_eq_some_iff.mp hnames

theorem namesPath_singleton (name : String) :
    namesPath [name] = .phrase .path ([] ++ [.phrase .segment (.leaf (.ident name) :: [])]) := rfl

set_option maxRecDepth 100000 in
/-- A call of `F` in another module calls `crate::hr::__impl_F`. -/
theorem resolveFunction_implementationPath_elsewhere :
    let pair := plainPair "crate::hr" "F" []
    let registry := Registry.after [.register (.pair pair)]
    registry.resolveFunction (namesPath ["F"]) "crate" = .pair pair ∧
      registry.renamed.resolveFunction
          (implementationPath (namesPath ["F"]) pair.implementation.name pair.virtual.container
            "crate") "crate" =
        .unpaired ⟨"crate::hr", "__impl_F"⟩ := by
  have hinserted : ∀ inserted,
      .register (.pair inserted) ∈ [Operation.register (.pair (plainPair "crate::hr" "F" []))] →
        Pair.derive? inserted.virtual = some inserted := by
    intro inserted hmem
    cases List.mem_singleton.mp hmem
    rfl
  have hresolved :
      (Registry.after [.register (.pair (plainPair "crate::hr" "F" []))]).resolveFunction
        (namesPath ["F"]) "crate" = .pair (plainPair "crate::hr" "F" []) := rfl
  have hplace : FunctionKey.mk (plainPair "crate::hr" "F" []).virtual.container
      (implementationPrefix ++ (plainPair "crate::hr" "F" []).virtual.name) =
        ⟨"crate::hr", "__impl_F"⟩ := by decide
  have hcontainer : (plainPair "crate::hr" "F" []).virtual.container = "crate::hr" := rfl
  obtain ⟨qualified, hqualified, hnames⟩ :=
    @exists_qualified "crate::hr" ["crate", "hr"] (by decide +kernel)
  have hroot : qualified.pathNames.head? = some "crate" := by rw [hnames]; rfl
  rw [← hcontainer] at hqualified
  rw [namesPath_singleton] at hresolved ⊢
  -- from here on the pair stays folded, or the parser would be unfolded with it
  generalize plainPair "crate::hr" "F" [] = pair at *
  have hlands := (resolveFunction_implementationPath hinserted hqualified hroot hresolved).2.2.mpr
  rw [hplace] at hlands
  refine ⟨hresolved, hlands fun _ _ => ?_⟩
  rw [Node.pathText, hnames, hcontainer]
  decide

set_option maxRecDepth 100000 in
/-- A container with blanks is not found by its own path, and an implementation of another name is
called by that name. -/
theorem renamed_resolveFunction_blank :
    (let pair := plainPair "crate :: hr" "F" []
      let registry := Registry.after [.register (.pair pair)]
      (parsePath? "crate :: hr").map Node.pathNames = some ["crate", "hr"] ∧
      registry.resolveFunction (namesPath ["F"]) "crate" = .pair pair ∧
      registry.renamed.resolveFunction
          (implementationPath (namesPath ["F"]) pair.implementation.name "crate :: hr" "crate")
          "crate" =
        .notVirtual) ∧
    ∃ pair, virtualImplementation.resolveFunction (namesPath ["F"]) "crate" = .pair pair ∧
      implementationPath (namesPath ["F"]) pair.implementation.name pair.virtual.container "crate" =
        namesPath ["G"] := by
  refine ⟨⟨by decide +kernel, rfl, ?_⟩, ?_⟩
  · have hnames : (implementationPath (namesPath ["F"])
        (plainPair "crate :: hr" "F" []).implementation.name "crate :: hr" "crate").pathNames =
          ["crate", "hr", "__impl_F"] := by decide +kernel
    rw [Registry.resolveFunction, hnames]
    rfl
  · refine ⟨_, rfl, rfl⟩

end Landing

end EntityTables.Call
