import EntityTables.Proofs.Call.Site
import EntityTables.Proofs.Schema.References

/-!
# What redirecting a file changes and counts

The pass goes from the inside out and keeps its scope as it goes. A call is judged when the calls in
it have been redirected already; by then it still means what it meant in the original text. So the
pass redirects exactly the calls that mean a pair in the original text, counts every call once by
what it means there, and changes nothing else.
-/

namespace EntityTables.Call

open EntityTables.Syntax EntityTables.Schema

/-! ### Counting calls by what they mean -/

namespace Resolution

def isPair : Resolution → Bool
  | .pair _ => true
  | _ => false

def isUnpaired : Resolution → Bool
  | .unpaired _ => true
  | _ => false

/-- Whether several functions may be meant, or it is not known that any is. -/
def isUndecided : Resolution → Bool
  | .ambiguous _ | .unverified _ => true
  | _ => false

end Resolution

/-- A report with one more call of some meaning. -/
def Report.count (report : Report) : Resolution → Report
  | .pair _ => { report with redirected := report.redirected + 1 }
  | .unpaired _ => { report with unpaired := report.unpaired + 1 }
  | .ambiguous _ | .unverified _ => { report with ambiguous := report.ambiguous + 1 }
  | .notVirtual => report

theorem foldl_count (report : Report) (resolutions : List Resolution) :
    resolutions.foldl Report.count report =
      ⟨report.redirected + resolutions.countP (·.isPair),
        report.unpaired + resolutions.countP (·.isUnpaired),
        report.ambiguous + resolutions.countP (·.isUndecided)⟩ := by
  induction resolutions generalizing report with
  | nil => rfl
  | cons resolution rest ih =>
      rw [List.foldl_cons, ih]
      cases resolution <;>
        simp only [Report.count, List.countP_cons, Resolution.isPair, Resolution.isUnpaired,
          Resolution.isUndecided, if_true, Bool.false_eq_true, if_false, Nat.add_zero] <;>
        congr 1 <;> omega

/-! ### The tree that comes out -/

mutual

/-- The second tree is the first one with every call that means a pair replaced by its redirected
form, which is made of the call with the calls in it already replaced. What a call means is judged
in the first tree. -/
inductive Redirected (registry : Registry) (module : String) :
    List Node → Node → Node → Prop
  | leaf {ancestors token} : Redirected registry module ancestors (.leaf token) (.leaf token)
  | group {ancestors delimiter body out} : RedirectedAll registry module ancestors body out →
      Redirected registry module ancestors (.group delimiter body) (.group delimiter out)
  | kept {ancestors kind parts out} :
      RedirectedAll registry module (.phrase kind parts :: ancestors) parts out →
      (∀ target pair, target? (.phrase kind parts) = some target →
        registry.meaning module ⟨ancestors, target⟩ ≠ .pair pair) →
      Redirected registry module ancestors (.phrase kind parts) (.phrase kind out)
  | call {ancestors kind parts out target pair call redirected} :
      RedirectedAll registry module (.phrase kind parts :: ancestors) parts out →
      target? (.phrase kind parts) = some target →
      registry.meaning module ⟨ancestors, target⟩ = .pair pair →
      CallExpr.ofNode? (.phrase kind out) = some call →
      redirectCall call pair (moduleAround module ancestors) = .ok redirected →
      Redirected registry module ancestors (.phrase kind parts) redirected.expr

inductive RedirectedAll (registry : Registry) (module : String) :
    List Node → List Node → List Node → Prop
  | nil {ancestors} : RedirectedAll registry module ancestors [] []
  | cons {ancestors node out rest outs} : Redirected registry module ancestors node out →
      RedirectedAll registry module ancestors rest outs →
      RedirectedAll registry module ancestors (node :: rest) (out :: outs)

end

theorem kind_of_target? {kind : Kind} {parts : List Node} {target : Target}
    (htarget : target? (.phrase kind parts) = some target) : kind ∈ callKinds := by
  obtain ⟨call, hcall, -⟩ := Option.map_eq_some_iff.mp htarget
  unfold CallExpr.ofNode? at hcall
  split at hcall
  · next heq =>
      cases heq
      decide
  · next heq =>
      cases heq
      decide
  · cases hcall

theorem exists_phrase_behind (bindings : List Binding) (mutableReceiver : Bool) {kind : Kind}
    (hkind : kind ∈ callKinds) (parts : List Node) : ∃ other ∈ callKinds, ∃ others,
      behind bindings mutableReceiver (.phrase kind parts) = .phrase other others := by
  unfold behind
  split
  · exact ⟨kind, hkind, parts, rfl⟩
  · exact ⟨.matchExpr, by decide, _, rfl⟩

/-- A redirected call is a call or a match. -/
theorem exists_phrase_of_redirectCall {call : CallExpr} {pair : Pair} {module : String}
    {redirected : RedirectedCall} (hok : redirectCall call pair module = .ok redirected) :
    ∃ kind ∈ callKinds, ∃ parts, redirected.expr = .phrase kind parts := by
  obtain ⟨bound, -, hredirected⟩ := bind_eq_ok_iff.mp hok
  cases hredirected
  simp only [redirectedExpr]
  cases call.callee with
  | function attributes path => exact exists_phrase_behind _ _ (by decide) _
  | method receiver dot name turbofish => exact exists_phrase_behind _ _ (by decide) _

mutual

/-- Redirecting changes no form outside of calls. -/
theorem Redirected.alike {registry : Registry} {module : String} {ancestors : List Node} :
    {node out : Node} → Redirected registry module ancestors node out → Alike node out
  | .leaf _, _, .leaf => .leaf
  | .group _ _, _, .group hbody => .group hbody.alike
  | .phrase _ _, _, .kept hparts _ => .phrase hparts.alike
  | .phrase _ _, _, .call _ htarget _ _ hok => by
      obtain ⟨kind, hkind, parts, hexpr⟩ := exists_phrase_of_redirectCall hok
      rw [hexpr]
      exact .call (kind_of_target? htarget) hkind

theorem RedirectedAll.alike {registry : Registry} {module : String} {ancestors : List Node} :
    {nodes outs : List Node} → RedirectedAll registry module ancestors nodes outs →
      AlikeAll nodes outs
  | [], _, .nil => .nil
  | _ :: _, _, .cons hnode hrest => .cons hnode.alike hrest.alike

end

/-! ### A step of the pass and the whole pass -/

theorem run_bind_eq_ok {α β : Type} {step : Passing α} {next : α → Passing β}
    {report : Report} {result : β × Report} :
    (step >>= next).run report = .ok result ↔
      ∃ a middle, step.run report = .ok (a, middle) ∧ (next a).run middle = .ok result := by
  rw [StateT.run_bind, bind_eq_ok_iff]
  constructor
  · rintro ⟨⟨a, middle⟩, hstep, hnext⟩
    exact ⟨a, middle, hstep, hnext⟩
  · rintro ⟨a, middle, hstep, hnext⟩
    exact ⟨(a, middle), hstep, hnext⟩

theorem run_pure_eq_ok {α : Type} {a : α} {report : Report} {result : α × Report} :
    (pure a : Passing α).run report = .ok result ↔ result = (a, report) := by
  rw [StateT.run_pure]
  exact ⟨fun h => (Except.ok.inj h).symm, fun h => h ▸ rfl⟩

section Step

variable {registry : Registry} {scope : Scope} {expr out : Node} {report after : Report}

/-- At a call, the pass counts what the call means. It makes a redirected call if that is a pair,
and keeps the call otherwise. -/
theorem redirectHere_eq_ok {target : Target} (htarget : target? expr = some target)
    (hrun : (redirectHere registry scope expr).run report = .ok (out, after)) :
    after = report.count (registry.resolve scope target) ∧
      (((∀ pair, registry.resolve scope target ≠ .pair pair) ∧ out = expr) ∨
        ∃ pair call redirected, registry.resolve scope target = .pair pair ∧
          CallExpr.ofNode? expr = some call ∧
          redirectCall call pair scope.module = .ok redirected ∧ out = redirected.expr) := by
  obtain ⟨call, hcall, -⟩ := Option.map_eq_some_iff.mp htarget
  -- A call that is kept is counted by the state alone.
  have hkept : ∀ step : Report → Report,
      ((do modify step; return expr) : Passing Node).run report = .ok (out, after) →
        after = step report ∧ out = expr := by
    intro step hrun
    obtain ⟨done, middle, hmodify, hpure⟩ := run_bind_eq_ok.mp hrun
    cases hmodify
    cases run_pure_eq_ok.mp hpure
    exact ⟨rfl, rfl⟩
  unfold redirectHere at hrun
  simp only [hcall, htarget] at hrun
  cases hresolve : registry.resolve scope target with
  | pair pair =>
      rw [hresolve] at hrun
      obtain ⟨redirected, middle, hredirect, hrun⟩ := run_bind_eq_ok.mp hrun
      obtain ⟨done, counted, hmodify, hpure⟩ := run_bind_eq_ok.mp hrun
      obtain ⟨value, hvalue, hlift⟩ := bind_eq_ok_iff.mp hredirect
      cases hlift
      cases hmodify
      cases run_pure_eq_ok.mp hpure
      exact ⟨rfl, .inr ⟨pair, call, redirected, rfl, hcall, hvalue, rfl⟩⟩
  | unpaired key =>
      rw [hresolve] at hrun
      obtain ⟨hafter, hout⟩ := hkept _ hrun
      exact ⟨hafter, .inl ⟨nofun, hout⟩⟩
  | ambiguous keys =>
      rw [hresolve] at hrun
      obtain ⟨hafter, hout⟩ := hkept _ hrun
      exact ⟨hafter, .inl ⟨nofun, hout⟩⟩
  | unverified keys =>
      rw [hresolve] at hrun
      obtain ⟨hafter, hout⟩ := hkept _ hrun
      exact ⟨hafter, .inl ⟨nofun, hout⟩⟩
  | notVirtual =>
      rw [hresolve] at hrun
      cases run_pure_eq_ok.mp hrun
      exact ⟨rfl, .inl ⟨nofun, rfl⟩⟩

theorem redirectHere_eq_ok_of_no_target (htarget : target? expr = none)
    (hrun : (redirectHere registry scope expr).run report = .ok (out, after)) :
    after = report ∧ out = expr := by
  unfold redirectHere at hrun
  rw [htarget] at hrun
  split at hrun
  · next h => cases h
  · cases run_pure_eq_ok.mp hrun
    exact ⟨rfl, rfl⟩

end Step

/-- What the calls of some sites mean, in their order. -/
def Registry.meanings (registry : Registry) (module : String) (sites : List Site) :
    List Resolution :=
  sites.map (registry.meaning module)

section Run

variable {registry : Registry} {module : String}

theorem redirected_of_phrase {ancestors : List Node} {kind : Kind} {parts others : List Node}
    {out : Node} {report after : Report}
    (hparts : RedirectedAll registry module (.phrase kind parts :: ancestors) parts others)
    (hrun : (redirectHere registry (scopeAround module ancestors) (.phrase kind others)).run
      report = .ok (out, after)) :
    Redirected registry module ancestors (.phrase kind parts) out ∧
      after = (registry.meanings module
        ((target? (.phrase kind parts)).map (Site.mk ancestors)).toList).foldl Report.count
          report := by
  have hsame : (target? (.phrase kind others)).map _ = (target? (.phrase kind parts)).map _ :=
    resolution_alike hparts.alike registry (scopeAround module ancestors)
  cases htarget : target? (.phrase kind parts) with
  | none =>
      rw [htarget, Option.map_none, Option.map_eq_none_iff] at hsame
      obtain ⟨rfl, rfl⟩ := redirectHere_eq_ok_of_no_target hsame hrun
      refine ⟨.kept hparts fun target pair hsome => ?_, rfl⟩
      exact absurd (htarget.symm.trans hsome) nofun
  | some target =>
      rw [htarget, Option.map_some, Option.map_eq_some_iff] at hsame
      obtain ⟨other, hother, hresolve⟩ := hsame
      obtain ⟨hafter, hout⟩ := redirectHere_eq_ok hother hrun
      rw [hresolve] at hafter hout
      refine ⟨?_, hafter⟩
      rcases hout with ⟨hnone, rfl⟩ | ⟨pair, call, redirected, hpair, hcall, hok, rfl⟩
      · refine .kept hparts fun own pair hsome => ?_
        cases htarget.symm.trans hsome
        exact hnone pair
      · exact .call hparts htarget hpair hcall hok

theorem foldl_meanings_append (first second : List Site) (report : Report) :
    (registry.meanings module (first ++ second)).foldl Report.count report =
      (registry.meanings module second).foldl Report.count
        ((registry.meanings module first).foldl Report.count report) := by
  rw [Registry.meanings, List.map_append, List.foldl_append]
  rfl

mutual

theorem redirected_of_run {ancestors : List Node} : {node out : Node} → {report after : Report} →
    (redirectTree registry (scopeAround module ancestors) node).run report = .ok (out, after) →
      Redirected registry module ancestors node out ∧
        after = (registry.meanings module (sites ancestors node)).foldl Report.count report
  | .leaf token, out, report, after, hrun => by
      rw [redirectTree] at hrun
      cases run_pure_eq_ok.mp hrun
      exact ⟨.leaf, rfl⟩
  | .group delimiter body, out, report, after, hrun => by
      rw [redirectTree] at hrun
      obtain ⟨others, middle, hbody, hrun⟩ := run_bind_eq_ok.mp hrun
      obtain ⟨hredirected, rfl⟩ := redirectedAll_of_run hbody
      cases run_pure_eq_ok.mp hrun
      exact ⟨.group hredirected, rfl⟩
  | .phrase kind parts, out, report, after, hrun => by
      rw [redirectTree, ← scopeAround_cons] at hrun
      obtain ⟨others, middle, hparts, hrun⟩ := run_bind_eq_ok.mp hrun
      obtain ⟨hredirected, rfl⟩ := redirectedAll_of_run hparts
      rw [sites, foldl_meanings_append]
      exact redirected_of_phrase hredirected hrun

theorem redirectedAll_of_run {ancestors : List Node} : {nodes outs : List Node} →
    {report after : Report} →
    (redirectTrees registry (scopeAround module ancestors) nodes).run report = .ok (outs, after) →
      RedirectedAll registry module ancestors nodes outs ∧
        after = (registry.meanings module (sitesOfAll ancestors nodes)).foldl Report.count report
  | [], outs, report, after, hrun => by
      rw [redirectTrees] at hrun
      cases run_pure_eq_ok.mp hrun
      exact ⟨.nil, rfl⟩
  | node :: rest, outs, report, after, hrun => by
      rw [redirectTrees] at hrun
      obtain ⟨out, middle, hnode, hrun⟩ := run_bind_eq_ok.mp hrun
      obtain ⟨others, final, hrest, hrun⟩ := run_bind_eq_ok.mp hrun
      obtain ⟨hout, rfl⟩ := redirected_of_run hnode
      obtain ⟨hothers, rfl⟩ := redirectedAll_of_run hrest
      cases run_pure_eq_ok.mp hrun
      rw [sitesOfAll, foldl_meanings_append]
      exact ⟨.cons hout hothers, rfl⟩

end

section Meanings

variable {ancestors : List Node} {kind : Kind} {parts : List Node} {resolution : Resolution}

theorem mem_meanings_of_parts
    (hmem : resolution ∈
      registry.meanings module (sitesOfAll (.phrase kind parts :: ancestors) parts)) :
    resolution ∈ registry.meanings module (sites ancestors (.phrase kind parts)) := by
  rw [sites, Registry.meanings, List.map_append]
  exact List.mem_append_left _ hmem

theorem mem_meanings_of_target {target : Target}
    (htarget : target? (.phrase kind parts) = some target) :
    registry.meaning module ⟨ancestors, target⟩ ∈
      registry.meanings module (sites ancestors (.phrase kind parts)) := by
  rw [sites, Registry.meanings, List.map_append, htarget]
  exact List.mem_append_right _ List.mem_cons_self

end Meanings

mutual

/-- Without calls that mean a pair, nothing changes. -/
theorem Redirected.eq_of_no_pair {ancestors : List Node} : {node out : Node} →
    (∀ resolution ∈ registry.meanings module (sites ancestors node), resolution.isPair = false) →
      Redirected registry module ancestors node out → out = node
  | .leaf _, _, _, .leaf => rfl
  | .group delimiter _, _, hnone, .group hbody =>
      congrArg (Node.group delimiter) (hbody.eq_of_no_pair hnone)
  | .phrase kind _, _, hnone, .kept hparts _ =>
      congrArg (Node.phrase kind)
        (hparts.eq_of_no_pair fun resolution hmem =>
          hnone resolution (mem_meanings_of_parts hmem))
  | .phrase _ _, _, hnone, .call _ htarget hpair _ _ => by
      have hfalse := hnone _ (mem_meanings_of_target htarget)
      rw [hpair] at hfalse
      cases hfalse

theorem RedirectedAll.eq_of_no_pair {ancestors : List Node} : {nodes outs : List Node} →
    (∀ resolution ∈ registry.meanings module (sitesOfAll ancestors nodes),
      resolution.isPair = false) →
      RedirectedAll registry module ancestors nodes outs → outs = nodes
  | [], _, _, .nil => rfl
  | _ :: _, _, hnone, .cons hnode hrest => by
      rw [sitesOfAll, Registry.meanings, List.map_append] at hnone
      rw [hnode.eq_of_no_pair fun resolution hmem => hnone resolution
          (List.mem_append_left _ hmem),
        hrest.eq_of_no_pair fun resolution hmem => hnone resolution (List.mem_append_right _ hmem)]

end

end Run

/-- **Redirecting a file.** If a file can be redirected, the report counts the calls of the original
file by what they mean in it: those that mean a pair, those that mean a function without
implementation, and those for which it is not decided. What comes out is the file with each call
that means a pair replaced; if there is none, it is the file itself. -/
theorem redirectIn_eq_ok {registry : Registry} {module : String} {file out : Node}
    {report : Report} (hok : redirectIn registry module file = .ok (out, report)) :
    let meanings := registry.meanings module (sites [] file)
    report = ⟨meanings.countP (·.isPair), meanings.countP (·.isUnpaired),
        meanings.countP (·.isUndecided)⟩ ∧
      Redirected registry module [] file out ∧ (report.redirected = 0 → out = file) := by
  intro meanings
  obtain ⟨hredirected, hreport⟩ := @redirected_of_run registry module [] file out .none report hok
  have hcounts : report = ⟨meanings.countP (·.isPair), meanings.countP (·.isUnpaired),
      meanings.countP (·.isUndecided)⟩ := by
    rw [hreport, foldl_count]
    simp only [Report.none, Nat.zero_add]
    rfl
  refine ⟨hcounts, hredirected, fun hzero => ?_⟩
  rw [hcounts] at hzero
  refine hredirected.eq_of_no_pair fun resolution hmem => ?_
  exact Bool.eq_false_iff.mpr fun hpair => List.countP_eq_zero.mp hzero resolution hmem hpair

/-! ### Calls in and around a module -/

/-- A function of some parameters in a container. -/
def plainFunction (container name : String) (parameters : List String) : VirtualFunction where
  name := name
  container := container
  receiver := false
  parameters := parameters.map fun parameter => ⟨parameter, namedType "i32"⟩
  output := .empty .returnType

/-- The pair of a function whose name is not raw. -/
def plainPair (container name : String) (parameters : List String) : Pair :=
  (Pair.derive? (plainFunction container name parameters)).getD default

/-- A call of a function by its name. -/
def plainCall (name : String) (arguments : List Node) : Node :=
  .phrase .callExpr [.empty .attributes, nameExpr name, parens arguments]

/-- `F` has an implementation and `G` has none. -/
def halfPaired : Registry :=
  (Registry.ofPairs [plainPair "crate" "F" ["x"]]).insertVirtual (plainFunction "crate" "G" [])

theorem redirectIn_eq_ok_nested :
    ∃ out, redirectIn halfPaired "crate" (plainCall "F" [plainCall "G" []]) =
        .ok (out, ⟨1, 1, 0⟩) ∧
      Redirected halfPaired "crate" [] (plainCall "F" [plainCall "G" []]) out :=
  ⟨_, rfl, (redirectIn_eq_ok rfl).2.1⟩

/-- A module item with its contents. -/
def isInlineModule : Node → Bool
  | .phrase .modItem [_, _, _, _, .leaf (.ident _), .group .brace _] => true
  | _ => false

/-- A module whose contents are in another file, with the call `F()` in one of its attributes. -/
def outlyingModule : Node :=
  .phrase .modItem
    [.phrase .attributes [attributeOf [pathOf [segmentOf "doc"], .punct "=", plainCall "F" []]],
      .empty .visibility, .empty .qualifiers, .ident "mod", .ident "hr", .punct ";"]

/-- The attributes of a module count as inside of it, also where its contents are not. -/
theorem redirectIn_outlyingModule :
    let registry := (Registry.ofPairs [plainPair "crate" "F" []]).insertVirtual
      (plainFunction "crate::hr" "F" [])
    ∃ site ∈ sites [] outlyingModule, site.ancestors.any isInlineModule = false ∧
      registry.resolve ⟨"crate", none⟩ site.target = .pair (plainPair "crate" "F" []) ∧
      redirectIn registry "crate" outlyingModule = .ok (outlyingModule, ⟨0, 1, 0⟩) := by
  refine ⟨_, List.mem_singleton_self _, ?_, ?_, ?_⟩
  · rfl
  · rfl
  · rfl

end EntityTables.Call
