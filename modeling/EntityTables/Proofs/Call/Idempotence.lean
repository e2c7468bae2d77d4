import EntityTables.Proofs.Call.Counting
import EntityTables.Proofs.Call.Freshness
import EntityTables.Proofs.Syntax.Items

/-!
# Redirecting twice

Redirected calls call implementations, which are no virtual functions, and a call that is kept means
the same whatever was redirected in it. So a second pass over a redirected file finds the calls that
the first one kept, and none to redirect.
-/

namespace EntityTables.Call

open EntityTables.Syntax EntityTables.Text

/-! ### Trees that are alike -/

section Alike

variable {node other : Node} {parts others : List Node}

theorem AlikeAll.append_inv {first second : List Node}
    (halike : AlikeAll (first ++ second) others) :
    ∃ others₁ others₂, others = others₁ ++ others₂ ∧ AlikeAll first others₁ ∧
      AlikeAll second others₂ := by
  induction first generalizing others with
  | nil => exact ⟨[], others, rfl, .nil, halike⟩
  | cons node rest ih =>
      obtain ⟨other, tail, rfl, hnode, htail⟩ := halike.cons_inv
      obtain ⟨others₁, others₂, rfl, hfirst, hsecond⟩ := ih htail
      exact ⟨other :: others₁, others₂, rfl, .cons hnode hfirst, hsecond⟩

/-- What is alike a path that ends in a segment does so. -/
theorem exists_segment_alike (hends : endsInSegment parts = true) (halike : AlikeAll parts others) :
    ∃ front token rest, others = front ++ [.phrase .segment (.leaf token :: rest)] := by
  obtain ⟨front, token, rest, rfl⟩ := exists_segment_of_endsInSegment hends
  obtain ⟨otherFront, last, rfl, -, hlast⟩ := halike.append_inv
  obtain ⟨segment, nothing, rfl, hsegment, hnothing⟩ := hlast.cons_inv
  obtain rfl := hnothing.nil_inv
  obtain ⟨inner, rfl, hinner⟩ := hsegment.phrase_inv (by decide)
  obtain ⟨head, tail, rfl, hhead, -⟩ := hinner.cons_inv
  cases hhead
  exact ⟨otherFront, token, tail, rfl⟩

theorem exists_path_alike {own path : Node} (hwell : wellFormed node = true)
    (halike : Alike node (.phrase .pathExpr [own, path])) : ∃ front token rest,
      path = .phrase .path (front ++ [.phrase .segment (.leaf token :: rest)]) := by
  obtain ⟨inner, rfl, hinner⟩ := halike.symm.phrase_inv (by decide)
  obtain ⟨attributes, tail, rfl, -, htail⟩ := hinner.cons_inv
  obtain ⟨written, nothing, rfl, hpath, hnothing⟩ := htail.cons_inv
  obtain rfl := hnothing.nil_inv
  rw [wellFormed, Bool.and_eq_true] at hwell
  obtain ⟨pathParts, rfl⟩ := exists_parts_of_is hwell.1
  obtain ⟨otherParts, rfl, hparts⟩ := hpath.symm.phrase_inv (by decide)
  have hwritten : wellFormed (.phrase .path pathParts) = true :=
    wellFormed_of_mem hwell.2 (by simp)
  rw [wellFormed, Bool.and_eq_true] at hwritten
  obtain ⟨front, token, rest, rfl⟩ := exists_segment_alike hwritten.1 hparts
  exact ⟨front, token, rest, rfl⟩

theorem plainArgument_alike (hwell : wellFormed node = true) (halike : Alike node other) :
    PlainArgument other := by
  rintro parts rfl
  obtain ⟨inner, rfl, hinner⟩ := halike.symm.phrase_inv (by decide)
  rw [wellFormed, Bool.and_eq_true] at hwell
  obtain ⟨left, sign, value, rfl⟩ := exists_sides_of_isPlainAssignment hwell.1
  obtain ⟨attributes, tail, rfl, hattributes, htail⟩ := hinner.symm.cons_inv
  obtain ⟨otherLeft, tail, rfl, -, htail⟩ := htail.cons_inv
  obtain ⟨otherSign, tail, rfl, hsign, htail⟩ := htail.cons_inv
  obtain ⟨otherValue, tail, rfl, -, htail⟩ := htail.cons_inv
  obtain rfl := htail.nil_inv
  obtain ⟨own, rfl, hown⟩ := hattributes.phrase_inv (by decide)
  obtain rfl := hown.nil_inv
  cases hsign
  exact ⟨otherLeft, sign, otherValue, rfl⟩

end Alike

/-! ### The calls that are left -/

theorem Alike.plainTypePath? {node other path : Node} (halike : Alike node other)
    (hpath : node.plainTypePath? = some path) : ∃ otherPath,
      other.plainTypePath? = some otherPath ∧ otherPath.pathText = path.pathText := by
  unfold Node.plainTypePath? at hpath
  split at hpath
  · cases hpath
    obtain ⟨parts, rfl, hparts⟩ := halike.phrase_inv (by decide)
    obtain ⟨otherPath, rest, rfl, hsame, hrest⟩ := hparts.cons_inv
    obtain rfl := hrest.nil_inv
    exact ⟨otherPath, rfl, congrArg ("::".intercalate ·) (pathNames_alike hsame)⟩
  · cases hpath

theorem plainText_alike {node other : Node} (halike : Alike node other) (name : String → String) :
    (other.plainTypePath?.map fun path => name path.pathText) =
      node.plainTypePath?.map fun path => name path.pathText := by
  cases hpath : node.plainTypePath? with
  | some path =>
      obtain ⟨otherPath, hother, htext⟩ := halike.plainTypePath? hpath
      rw [hother, Option.map_some, Option.map_some, htext]
  | none =>
      cases hother : other.plainTypePath? with
      | none => rfl
      | some otherPath =>
          obtain ⟨path, hsome, -⟩ := halike.symm.plainTypePath? hother
          exact absurd (hpath.symm.trans hsome) nofun

theorem enter_of_enter_ne {scope : Scope} {kind : Kind} {parts others : List Node}
    (halike : AlikeAll parts others) (hne : scope.enter kind parts ≠ scope) :
    scope.enter kind others = scope.enter kind parts := by
  revert hne halike
  fun_cases Scope.enter scope kind parts
  all_goals intro halike hne
  · obtain ⟨_, rest, rfl, -, hrest⟩ := halike.cons_inv
    obtain ⟨_, rest, rfl, -, hrest⟩ := hrest.cons_inv
    obtain ⟨_, rest, rfl, -, hrest⟩ := hrest.cons_inv
    obtain ⟨_, rest, rfl, -, hrest⟩ := hrest.cons_inv
    obtain ⟨word, rest, rfl, hword, hrest⟩ := hrest.cons_inv
    obtain ⟨_, rest, rfl, -, hrest⟩ := hrest.cons_inv
    obtain rfl := hrest.nil_inv
    cases hword
    rfl
  · obtain ⟨_, rest, rfl, -, hrest⟩ := halike.cons_inv
    obtain ⟨_, rest, rfl, -, hrest⟩ := hrest.cons_inv
    obtain ⟨_, rest, rfl, -, hrest⟩ := hrest.cons_inv
    obtain ⟨_, rest, rfl, -, hrest⟩ := hrest.cons_inv
    obtain ⟨_, rest, rfl, -, hrest⟩ := hrest.cons_inv
    obtain ⟨selfType, rest, rfl, hself, hrest⟩ := hrest.cons_inv
    obtain ⟨_, rest, rfl, -, hrest⟩ := hrest.cons_inv
    obtain ⟨_, rest, rfl, -, hrest⟩ := hrest.cons_inv
    obtain rfl := hrest.nil_inv
    exact congrArg (Scope.mk scope.module) (plainText_alike hself (nameWithin scope.module))
  · rfl
  · exact absurd rfl hne

/-- An item opens the same scope whatever was redirected in it. -/
theorem enter_alike {parts others : List Node} (halike : AlikeAll parts others) (scope : Scope)
    (kind : Kind) : scope.enter kind others = scope.enter kind parts := by
  by_cases hparts : scope.enter kind parts = scope
  · by_cases hothers : scope.enter kind others = scope
    · rw [hparts, hothers]
    · exact (enter_of_enter_ne halike.symm hothers).symm
  · exact enter_of_enter_ne halike hparts

section Left

variable {registry : Registry} {module : String} {counted : Resolution → Bool}

/-- The calls that count and do not mean a pair. -/
def keptOf (counted : Resolution → Bool) (resolution : Resolution) : Bool :=
  counted resolution && !resolution.isPair

theorem keptOf_pair (pair : Pair) : keptOf counted (.pair pair) = false := Bool.and_false _

theorem keptOf_of_ne_pair {resolution : Resolution} (hne : ∀ pair, resolution ≠ .pair pair) :
    keptOf counted resolution = counted resolution := by
  cases resolution with
  | pair pair => exact absurd rfl (hne pair)
  | unpaired => exact Bool.and_true _
  | ambiguous => exact Bool.and_true _
  | unverified => exact Bool.and_true _
  | notVirtual => exact Bool.and_true _

theorem callCount_redirectCall (hregistry : ∀ key pair, registry.pairs.find? key = some pair →
      registry.Settles pair) (hnot : counted .notVirtual = false) {kind : Kind}
    {parts others : List Node} (hwell : wellFormedAll parts = true)
    (halike : AlikeAll parts others) {scope : Scope} {target : Target} {pair : Pair}
    (hpair : registry.resolve scope target = .pair pair) {call : CallExpr}
    {redirected : RedirectedCall}
    (hcall : CallExpr.ofNode? (.phrase kind others) = some call)
    (hok : redirectCall call pair scope.module = .ok redirected) :
    callCount registry counted scope redirected.expr =
      callCountAll registry counted scope others := by
  obtain ⟨key, hkey⟩ := exists_find?_of_resolve hpair
  have hsettles := hregistry key pair hkey
  have harguments : ∀ body, Node.group .paren body ∈ others → ∀ node ∈ body,
      PlainArgument node := by
    intro body hbody node hnode
    obtain ⟨written, hwritten, hsame⟩ := halike.symm.exists_of_mem hbody
    cases hsame with
    | group hinner =>
        obtain ⟨own, hown, hlike⟩ := hinner.exists_of_mem hnode
        have hgroup : wellFormedAll _ = true := wellFormed_of_mem hwell hwritten
        exact plainArgument_alike (wellFormed_of_mem hgroup hown) hlike.symm
  unfold CallExpr.ofNode? at hcall
  split at hcall
  · next attributes own path body heq =>
      cases heq
      cases hcall
      have hcallee : Node.phrase .pathExpr [own, path] ∈
          [attributes, .phrase .pathExpr [own, path], .group .paren body] := by simp
      obtain ⟨written, hwritten, hsame⟩ := halike.symm.exists_of_mem hcallee
      obtain ⟨front, token, rest, rfl⟩ :=
        exists_path_alike (wellFormed_of_mem hwell hwritten) hsame.symm
      exact callCount_redirectCall_function hsettles hnot (harguments body (by simp)) hok
  · next attributes receiver dot name turbofish body heq =>
      cases heq
      cases hcall
      exact callCount_redirectCall_method hsettles hnot (harguments body (by simp)) hok
  · cases hcall

theorem enter_of_mem_callKinds {kind : Kind} (hkind : kind ∈ callKinds) (scope : Scope)
    (parts : List Node) : scope.enter kind parts = scope := by
  fun_cases Scope.enter scope kind parts
  · exact absurd hkind (by decide)
  · exact absurd hkind (by decide)
  · exact absurd hkind (by decide)
  · rfl

mutual

/-- The calls that are left in a redirected tree are those that mean no pair. -/
theorem callCount_redirected
    (hregistry : ∀ key pair, registry.pairs.find? key = some pair → registry.Settles pair)
    (hnot : counted .notVirtual = false) {ancestors : List Node} : {node out : Node} →
    wellFormed node = true → Redirected registry module ancestors node out →
      callCount registry counted (scopeAround module ancestors) out =
        callCount registry (keptOf counted) (scopeAround module ancestors) node
  | .leaf _, _, _, .leaf => rfl
  | .group _ _, _, hwell, .group hbody => callCountAll_redirected hregistry hnot hwell hbody
  | .phrase kind parts, _, hwell, @Redirected.kept _ _ _ _ _ outs hparts hkept => by
      rw [wellFormed, Bool.and_eq_true] at hwell
      have hall := callCountAll_redirected hregistry hnot hwell.2 hparts
      rw [scopeAround_cons] at hall
      have hsame : registry.meaningHere? (scopeAround module ancestors) (.phrase kind outs) =
          registry.meaningHere? (scopeAround module ancestors) (.phrase kind parts) :=
        resolution_alike hparts.alike registry (scopeAround module ancestors)
      have hcounted : (registry.meaningHere? (scopeAround module ancestors)
            (.phrase kind parts)).any counted =
          (registry.meaningHere? (scopeAround module ancestors)
            (.phrase kind parts)).any (keptOf counted) := by
        cases htarget : target? (.phrase kind parts) with
        | none => rw [Registry.meaningHere?, htarget]; rfl
        | some target =>
            rw [Registry.meaningHere?, htarget]
            exact (keptOf_of_ne_pair fun pair => hkept target pair htarget).symm
      rw [callCount, callCount, enter_alike hparts.alike, hall, hsame, hcounted]
  | .phrase kind parts, _, hwell, @Redirected.call _ _ _ _ _ outs target pair call redirected hparts
      htarget hpair hcall hok => by
      rw [wellFormed, Bool.and_eq_true] at hwell
      have hall := callCountAll_redirected hregistry hnot hwell.2 hparts
      rw [scopeAround_cons, enter_of_mem_callKinds (kind_of_target? htarget)] at hall
      have hmeaning : registry.meaningHere? (scopeAround module ancestors) (.phrase kind parts) =
          some (.pair pair) := by
        rw [Registry.meaningHere?, htarget]
        exact congrArg some hpair
      rw [callCount_redirectCall hregistry hnot hwell.2 hparts.alike hpair hcall hok, hall,
        callCount, enter_of_mem_callKinds (kind_of_target? htarget), hmeaning, Option.any_some,
        keptOf_pair]
      rfl

theorem callCountAll_redirected
    (hregistry : ∀ key pair, registry.pairs.find? key = some pair → registry.Settles pair)
    (hnot : counted .notVirtual = false) {ancestors : List Node} : {nodes outs : List Node} →
    wellFormedAll nodes = true → RedirectedAll registry module ancestors nodes outs →
      callCountAll registry counted (scopeAround module ancestors) outs =
        callCountAll registry (keptOf counted) (scopeAround module ancestors) nodes
  | [], _, _, .nil => rfl
  | _ :: _, _, hwell, .cons hnode hrest => by
      rw [wellFormedAll, Bool.and_eq_true] at hwell
      rw [callCountAll, callCountAll, callCount_redirected hregistry hnot hwell.1 hnode,
        callCountAll_redirected hregistry hnot hwell.2 hrest]

end

end Left

/-! ### A second pass -/

section Again

variable {registry : Registry} {module : String} {counted : Resolution → Bool}

theorem callCountAll_toList_target? {ancestors : List Node} (node : Node) :
    (registry.meanings module ((target? node).map (Site.mk ancestors)).toList).countP counted =
      if (registry.meaningHere? (scopeAround module ancestors) node).any counted then 1 else 0 := by
  unfold Registry.meaningHere?
  cases target? node with
  | none => rfl
  | some target => exact List.countP_singleton

mutual

/-- The calls that count are counted where they stand. -/
theorem countP_meanings {ancestors : List Node} : (node : Node) →
    (registry.meanings module (sites ancestors node)).countP counted =
      callCount registry counted (scopeAround module ancestors) node
  | .leaf _ => rfl
  | .group _ body => countP_meanings_all body
  | .phrase kind parts => by
      rw [sites, Registry.meanings, List.map_append, List.countP_append, callCount,
        ← scopeAround_cons]
      exact congrArg₂ _ (countP_meanings_all parts) (callCountAll_toList_target? _)

theorem countP_meanings_all {ancestors : List Node} : (nodes : List Node) →
    (registry.meanings module (sitesOfAll ancestors nodes)).countP counted =
      callCountAll registry counted (scopeAround module ancestors) nodes
  | [] => rfl
  | node :: rest => by
      rw [sitesOfAll, Registry.meanings, List.map_append, List.countP_append, callCountAll]
      exact congrArg₂ _ (countP_meanings node) (countP_meanings_all rest)

end

/-- After a pass that succeeds, the calls of a file are those that meant no pair. -/
theorem countP_meanings_redirected
    (hregistry : ∀ key pair, registry.pairs.find? key = some pair → registry.Settles pair)
    (hnot : counted .notVirtual = false) {file out : Node} (hwell : wellFormed file = true)
    (hredirected : Redirected registry module [] file out) :
    (registry.meanings module (sites [] out)).countP counted =
      (registry.meanings module (sites [] file)).countP (keptOf counted) := by
  rw [countP_meanings, countP_meanings]
  exact callCount_redirected hregistry hnot hwell hredirected

theorem exists_run_redirectHere {scope : Scope} {expr : Node}
    (hnone : ∀ target pair, target? expr = some target → registry.resolve scope target ≠ .pair pair)
    (report : Report) : ∃ result, (redirectHere registry scope expr).run report = .ok result := by
  unfold redirectHere
  split
  · next call target hcall htarget =>
      split
      · exact ⟨_, rfl⟩
      · exact ⟨_, rfl⟩
      · exact ⟨_, rfl⟩
      · exact ⟨_, rfl⟩
      · next pair hpair => exact absurd hpair (hnone target pair htarget)
  · exact ⟨_, rfl⟩

mutual

/-- Nothing fails where no call means a pair. -/
theorem exists_run_of_no_pair {ancestors : List Node} : (node : Node) →
    (∀ resolution ∈ registry.meanings module (sites ancestors node), resolution.isPair = false) →
      ∀ report, ∃ result,
        (redirectTree registry (scopeAround module ancestors) node).run report = .ok result
  | .leaf _, _, _ => ⟨_, rfl⟩
  | .group delimiter body, hnone, report => by
      obtain ⟨⟨outs, after⟩, hbody⟩ := exists_run_of_no_pair_all body hnone report
      exact ⟨(.group delimiter outs, after), run_bind_eq_ok.mpr ⟨outs, after, hbody, rfl⟩⟩
  | .phrase kind parts, hnone, report => by
      have hinner := fun resolution hmem => hnone resolution (mem_meanings_of_parts hmem)
      obtain ⟨⟨outs, after⟩, hparts⟩ := exists_run_of_no_pair_all parts hinner report
      obtain rfl := (redirectedAll_of_run hparts).1.eq_of_no_pair hinner
      have hhere : ∀ target pair, target? (.phrase kind outs) = some target →
          registry.resolve (scopeAround module ancestors) target ≠ .pair pair := by
        intro target pair htarget hpair
        have hfalse := hnone _ (mem_meanings_of_target htarget)
        rw [Registry.meaning, hpair] at hfalse
        cases hfalse
      obtain ⟨result, hresult⟩ := exists_run_redirectHere hhere after
      rw [redirectTree, ← scopeAround_cons]
      exact ⟨result, run_bind_eq_ok.mpr ⟨outs, after, hparts, hresult⟩⟩

theorem exists_run_of_no_pair_all {ancestors : List Node} : (nodes : List Node) →
    (∀ resolution ∈ registry.meanings module (sitesOfAll ancestors nodes),
      resolution.isPair = false) →
      ∀ report, ∃ result,
        (redirectTrees registry (scopeAround module ancestors) nodes).run report = .ok result
  | [], _, _ => ⟨_, rfl⟩
  | node :: rest, hnone, report => by
      rw [sitesOfAll, Registry.meanings, List.map_append] at hnone
      obtain ⟨⟨out, middle⟩, hnode⟩ := exists_run_of_no_pair node
        (fun resolution hmem => hnone resolution (List.mem_append_left _ hmem)) report
      obtain ⟨⟨outs, after⟩, hrest⟩ := exists_run_of_no_pair_all rest
        (fun resolution hmem => hnone resolution (List.mem_append_right _ hmem)) middle
      exact ⟨(out :: outs, after), run_bind_eq_ok.mpr
        ⟨out, middle, hnode, run_bind_eq_ok.mpr ⟨outs, after, hrest, rfl⟩⟩⟩

end

theorem keptOf_isPair : keptOf Resolution.isPair = fun _ => false := by
  funext resolution
  cases resolution <;> rfl

theorem keptOf_isUnpaired : keptOf Resolution.isUnpaired = Resolution.isUnpaired := by
  funext resolution
  cases resolution <;> rfl

theorem keptOf_isUndecided : keptOf Resolution.isUndecided = Resolution.isUndecided := by
  funext resolution
  cases resolution <;> rfl

/-- A second pass keeps everything, and counts what the first one kept. -/
theorem redirectIn_again
    (hregistry : ∀ key pair, registry.pairs.find? key = some pair → registry.Settles pair)
    {file out : Node} (hwell : wellFormed file = true) {report : Report}
    (hok : redirectIn registry module file = .ok (out, report)) :
    redirectIn registry module out = .ok (out, { report with redirected := 0 }) := by
  obtain ⟨rfl, hredirected, -⟩ := redirectIn_eq_ok hok
  have hleft : ∀ counted : Resolution → Bool, counted .notVirtual = false →
      (registry.meanings module (sites [] out)).countP counted =
        (registry.meanings module (sites [] file)).countP (keptOf counted) :=
    fun counted hnot => countP_meanings_redirected hregistry hnot hwell hredirected
  have hpairs := hleft Resolution.isPair rfl
  rw [keptOf_isPair, List.countP_false] at hpairs
  have hnone : ∀ resolution ∈ registry.meanings module (sites [] out),
      resolution.isPair = false := fun resolution hmem =>
    Bool.eq_false_iff.mpr (List.countP_eq_zero.mp hpairs resolution hmem)
  obtain ⟨⟨again, counts⟩, hagain⟩ := exists_run_of_no_pair out hnone Report.none
  have hrun : redirectIn registry module out = .ok (again, counts) := hagain
  obtain ⟨rfl, -, hsame⟩ := redirectIn_eq_ok hrun
  have hout : again = out := hsame hpairs
  have hunpaired := hleft Resolution.isUnpaired rfl
  have hundecided := hleft Resolution.isUndecided rfl
  rw [keptOf_isUnpaired] at hunpaired
  rw [keptOf_isUndecided] at hundecided
  rw [hrun, hout, hpairs, hunpaired, hundecided]
  rfl

end Again

/-! ### Registries that settle their pairs -/

section Settled

variable {registry : Registry} {key : FunctionKey} {pair : Pair}

/-- Every pair of a registry is the one that belongs to its virtual function. -/
def Registry.Derived (registry : Registry) : Prop :=
  ∀ key pair, registry.pairs.find? key = some pair → Pair.derive? pair.virtual = some pair

theorem derive?_of_pairOf? {virtual : VirtualFunction} {signature : Signature}
    (hpair : Registry.pairOf? virtual signature = some pair) :
    Pair.derive? pair.virtual = some pair := by
  rw [virtual_of_pairOf? hpair]
  exact (Option.filter_eq_some_iff.mp hpair).1

theorem Registry.Derived.link (hderived : registry.Derived) (hsorted : registry.pairs.Sorted)
    (key : FunctionKey) : (registry.link key).Derived := by
  intro other pair hpair
  by_cases hother : key = other
  · subst hother
    cases hvirtual : registry.virtuals.find? key with
    | none =>
        rw [link_of_not_declared hvirtual] at hpair
        exact hderived key pair hpair
    | some virtual =>
        cases himplementation : registry.implementations.find? key with
        | none =>
            rw [link_of_not_implemented himplementation] at hpair
            exact hderived key pair hpair
        | some signature =>
            rw [find?_pairs_link hsorted hvirtual himplementation] at hpair
            exact derive?_of_pairOf? hpair
  · rw [find?_pairs_link_of_ne hsorted hother] at hpair
    exact hderived other pair hpair

theorem Registry.Derived.register (hderived : registry.Derived) (hsorted : registry.pairs.Sorted) :
    (registration : Registration) →
      (∀ pair, registration = .pair pair → Pair.derive? pair.virtual = some pair) →
        (registry.register registration).Derived
  | .pair inserted, hinserted => by
      intro other pair hpair
      have hinsert := Keyed.find?_insert registry.pairs inserted.virtual.key other inserted
      have hfind := hinsert.symm.trans hpair
      split at hfind
      · cases hfind
        exact hinserted inserted rfl
      · exact hderived other pair hfind
  | .virtual function, _ => by
      have hdeclared : Registry.Derived
          { registry with virtuals := registry.virtuals.insert function.key function } := hderived
      exact hdeclared.link hsorted _
  | .implementation container signature, _ => by
      change (registry.insertImplementation container signature).Derived
      unfold Registry.insertImplementation
      split
      · next name _ =>
          have hadded : Registry.Derived { registry with
              implementations := registry.implementations.insert ⟨container, name⟩ signature } :=
            hderived
          exact hadded.link hsorted _
      · exact hderived

/-- If the pairs that are inserted as a whole are derived ones, all pairs are. -/
theorem derived_registerAll (registrations : List Registration)
    (hinserted : ∀ pair, .pair pair ∈ registrations → Pair.derive? pair.virtual = some pair) :
    (Registry.empty.registerAll registrations).Derived := by
  induction registrations using List.reverseRecOn with
  | nil => exact fun key pair hpair => by cases hpair
  | append_singleton rest last ih =>
      rw [registerAll_append]
      have hrest := ih fun pair hmem => hinserted pair (List.mem_append_left _ hmem)
      refine hrest.register (holds_registerAll rest).sortedPairs last fun pair hlast => ?_
      exact hinserted pair (List.mem_append_right _ (List.mem_singleton.mpr hlast.symm))

theorem not_mem_fileRegistrations (container : String) (file : Node) :
    .pair pair ∉ fileRegistrations container file := by
  have hfunction : ∀ container attributes signature,
      .pair pair ∉ functionRegistrations container attributes signature := by
    intro container attributes signature hmem
    unfold functionRegistrations at hmem
    split at hmem
    · cases hmem
    · split at hmem
      · cases List.mem_singleton.mp hmem
      · split at hmem
        · cases List.mem_singleton.mp hmem
        · cases hmem
  intro hmem
  obtain ⟨placed, -, hitem⟩ := List.mem_flatMap.mp hmem
  unfold itemRegistrations at hitem
  split at hitem
  · exact hfunction _ _ _ hitem
  · split at hitem
    · cases hitem
    · obtain ⟨member, -, hmember⟩ := List.mem_flatMap.mp hitem
      unfold memberRegistrations at hmember
      split at hmember
      · exact hfunction _ _ _ hmember
      · cases hmember
  · cases hitem

theorem derived_after {operations : List Operation}
    (hinserted : ∀ pair, .register (.pair pair) ∈ operations →
      Pair.derive? pair.virtual = some pair) : (Registry.after operations).Derived := by
  rw [after_eq]
  refine derived_registerAll _ fun pair hmem => ?_
  obtain ⟨operation, hoperation, hpair⟩ := List.mem_flatMap.mp hmem
  cases operation with
  | register registration =>
      cases List.mem_singleton.mp hpair
      exact hinserted pair hoperation
  | scan container file => exact absurd hpair (not_mem_fileRegistrations container file)

theorem Registry.Holds.key_of_mem {registrations : List Registration}
    (hholds : registry.Holds registrations) {function : VirtualFunction}
    (hmem : (key, function) ∈ registry.virtuals) : function.key = key := by
  rw [Keyed.mem_iff_find? hholds.sortedVirtuals, hholds.virtuals] at hmem
  exact key_of_declared? hmem

/-- Whether a name has the prefix of implementations. -/
def hasImplementationPrefix (name : String) : Bool :=
  implementationPrefix.toList.isPrefixOf name.toList

theorem hasImplementationPrefix_of_derive? {virtual : VirtualFunction}
    (hpair : Pair.derive? virtual = some pair) :
    hasImplementationPrefix pair.implementation.name = true := by
  obtain ⟨name, hname, rfl⟩ := Option.map_eq_some_iff.mp hpair
  unfold implementationName? at hname
  split at hname
  · cases hname
  · cases hname
    simp [hasImplementationPrefix, String.toList_append]

/-- Derived pairs are settled where virtual functions are named neither `Some` nor as
implementations are. -/
theorem settles_of_names {registrations : List Registration}
    (hholds : registry.Holds registrations) (hderived : registry.Derived)
    (hnames : ∀ function ∈ registry.virtuals.values,
      function.name ≠ "Some" ∧ hasImplementationPrefix function.name = false)
    (hcontainers : ∀ pair ∈ registry.pairs.values, ∀ path,
      parsePath? pair.virtual.container = some path → holdsCall path = false)
    (hpair : registry.pairs.find? key = some pair) : registry.Settles pair := by
  have hlacks : ∀ name, name = "Some" ∨ hasImplementationPrefix name = true →
      registry.Lacks name := by
    rintro name hname ⟨other, function⟩ hmem rfl
    obtain ⟨hsome, hplain⟩ := hnames function (List.mem_map.mpr ⟨_, hmem, rfl⟩)
    rw [← hholds.key_of_mem hmem] at hname
    rcases hname with hname | hname
    · exact hsome hname
    · exact absurd (hplain.symm.trans hname) nofun
  refine ⟨hderived key pair hpair, hlacks "Some" (.inl rfl), ?_, ?_⟩
  · exact hlacks _ (.inr (hasImplementationPrefix_of_derive? (hderived key pair hpair)))
  · exact hcontainers pair (List.mem_map.mpr ⟨_, Keyed.mem_of_find? hpair, rfl⟩)

end Settled

/-! ### Two passes over a text -/

/-- The reports of a pass over a text and of a second one over what the first one gives. -/
def reportsOfPasses (registry : Registry) (text : String) : Option (Report × Report) := do
  let file ← parseFile? text
  let (out, first) ← (redirectIn registry "crate" file).toOption
  let (_, second) ← (redirectIn registry "crate" out).toOption
  return (first, second)

theorem eq_ok_of_toOption {ε α : Type} {result : Except ε α} {value : α}
    (hsome : result.toOption = some value) : result = .ok value := by
  cases result with
  | error error => cases hsome
  | ok value => exact congrArg Except.ok (Option.some.inj hsome)

theorem exists_passes {registry : Registry} {text : String} {first second : Report}
    (hreports : reportsOfPasses registry text = some (first, second)) :
    ∃ file out again, parseFile? text = some file ∧
      redirectIn registry "crate" file = .ok (out, first) ∧
      redirectIn registry "crate" out = .ok (again, second) := by
  obtain ⟨file, hread, hrest⟩ := Option.bind_eq_some_iff.mp hreports
  obtain ⟨⟨out, report⟩, hout, hrest⟩ := Option.bind_eq_some_iff.mp hrest
  obtain ⟨⟨again, counts⟩, hagain, hrest⟩ := Option.bind_eq_some_iff.mp hrest
  cases hrest
  exact ⟨file, out, again, hread, eq_ok_of_toOption hout, eq_ok_of_toOption hagain⟩

/-- **Redirecting twice.** If the pairs of a registry were derived, none of its virtual functions is
named `Some` or as an implementation, and no container of a pair has a call in it, a second pass
over a redirected file succeeds, changes nothing, redirects nothing, and counts the calls that the
first one kept. -/
theorem redirectIn_redirected {operations : List Operation} {module text : String}
    {file out : Node} {report : Report}
    (hinserted : ∀ pair, .register (.pair pair) ∈ operations →
      Pair.derive? pair.virtual = some pair)
    (hnames : ∀ function ∈ (Registry.after operations).virtuals.values,
      function.name ≠ "Some" ∧ hasImplementationPrefix function.name = false)
    (hcontainers : ∀ pair ∈ (Registry.after operations).pairs.values, ∀ path,
      parsePath? pair.virtual.container = some path → holdsCall path = false)
    (hread : parseFile? text = some file)
    (hok : redirectIn (Registry.after operations) module file = .ok (out, report)) :
    redirectIn (Registry.after operations) module out =
      .ok (out, { report with redirected := 0 }) :=
  redirectIn_again (fun _ _ => settles_of_names (holds_after operations) (derived_after hinserted)
    hnames hcontainers) (wellFormed_of_parseFile? hread) hok

/-- `F` has an implementation and `G` has none. -/
def halfPairedOperations : List Operation :=
  [.register (.pair (plainPair "crate" "F" ["x"])),
    .register (.virtual (plainFunction "crate" "G" []))]

set_option maxRecDepth 100000 in
theorem redirectIn_redirected_nested :
    ∃ file out, parseFile? "fn f() { F(G()) }" = some file ∧
      redirectIn (Registry.after halfPairedOperations) "crate" file = .ok (out, ⟨1, 1, 0⟩) ∧
      redirectIn (Registry.after halfPairedOperations) "crate" out = .ok (out, ⟨0, 1, 0⟩) := by
  have hreports : reportsOfPasses (Registry.after halfPairedOperations) "fn f() { F(G()) }" =
      some (⟨1, 1, 0⟩, ⟨0, 1, 0⟩) := by decide +kernel
  obtain ⟨file, out, -, hread, hout, -⟩ := exists_passes hreports
  refine ⟨file, out, hread, hout, redirectIn_redirected ?_ (by decide +kernel) ?_ hread hout⟩
  · intro pair hmem
    rcases List.mem_cons.mp hmem with heq | hmem
    · cases heq
      rfl
    · cases List.mem_singleton.mp hmem
  · have hlacks : ∀ pair ∈ (Registry.after halfPairedOperations).pairs.values,
        (parsePath? pair.virtual.container).all (!holdsCall ·) = true := by decide +kernel
    intro pair hmem path hpath
    have hpair := hlacks pair hmem
    rw [hpath] at hpair
    exact Bool.not_inj hpair

/-- `F` stands in a container that has a call of it. -/
def callingContainer : Registry :=
  Registry.after [.register (.pair (plainPair "g<{ F() }>" "F" []))]

/-- `F` has an implementation that is not its own but the virtual function `G`. -/
def virtualImplementation : Registry :=
  let pair := plainPair "crate" "F" []
  Registry.after
    [.register (.virtual (plainFunction "crate" "G" [])),
      .register (.pair { pair with implementation := { pair.implementation with name := "G" } })]

set_option maxRecDepth 100000 in
/-- A container with a call puts the call into every redirected call, and an implementation that is
a virtual function is called as one. -/
theorem redirectIn_differs_again :
    (∀ registry ∈ [callingContainer, virtualImplementation],
      ∀ function ∈ registry.virtuals.values,
        function.name ≠ "Some" ∧ hasImplementationPrefix function.name = false) ∧
    (∃ file out again, parseFile? "fn f() { F() }" = some file ∧
      redirectIn callingContainer "crate" file = .ok (out, ⟨1, 0, 0⟩) ∧
      redirectIn callingContainer "crate" out = .ok (again, ⟨1, 0, 0⟩)) ∧
    ∃ file out again, parseFile? "fn f() { F() }" = some file ∧
      redirectIn virtualImplementation "crate" file = .ok (out, ⟨1, 0, 0⟩) ∧
      redirectIn virtualImplementation "crate" out = .ok (again, ⟨0, 1, 0⟩) :=
  ⟨by decide +kernel, exists_passes (by decide +kernel), exists_passes (by decide +kernel)⟩

end EntityTables.Call
