import EntityTables.Call.Pass
import EntityTables.Proofs.Syntax.Form
import Mathlib.Data.List.Basic

/-!
# The calls of a file

A call stands at a site: inside of other phrases, the innermost of which comes first. The modules
around a site and the innermost implementation or trait around it decide what its call means. So
does its target, of which only little is read: the names of a path or of a method, whether a
receiver is `self`, and whether an argument has a name. Trees that differ only inside of calls agree
in all that.
-/

namespace EntityTables.Call

open EntityTables.Syntax EntityTables.Text

/-! ### Sites -/

/-- A call with the phrases around it, from the inside out. -/
structure Site where
  ancestors : List Node
  target : Target

/-- The name of a module item. -/
def moduleName? : Node → Option String
  | .phrase .modItem [_, _, _, _, .leaf (.ident name), _] => some name
  | _ => none

/-- The module of a place, from the module of the file and the phrases around the place. -/
def moduleAround (module : String) : List Node → String
  | [] => module
  | node :: rest =>
    match moduleName? node with
    | some name => nameWithin (moduleAround module rest) name
    | none => moduleAround module rest

/-- The container that `self` has at a place: that of the innermost implementation or trait. -/
def selfAround (module : String) : List Node → Option String
  | [] => none
  | node :: rest =>
    match node with
    | .phrase .implItem [_, _, _, _, _, selfType, _, _] =>
      selfType.plainTypePath?.map fun path => nameWithin (moduleAround module rest) path.pathText
    | .phrase .traitItem _ => none
    | _ => selfAround module rest

def scopeAround (module : String) (ancestors : List Node) : Scope :=
  ⟨moduleAround module ancestors, selfAround module ancestors⟩

theorem scopeAround_cons (module : String) (ancestors : List Node) (kind : Kind)
    (parts : List Node) :
    scopeAround module (.phrase kind parts :: ancestors) =
      (scopeAround module ancestors).enter kind parts := by
  unfold Scope.enter
  split
  · rfl
  · rfl
  · rfl
  · next htrait hmod himpl =>
      have hmodule : moduleName? (.phrase kind parts) = none := by
        unfold moduleName?
        split
        · next h =>
            cases h
            exact (hmod _ _ _ _ _ _ rfl rfl).elim
        · rfl
      have hself : selfAround module (.phrase kind parts :: ancestors) =
          selfAround module ancestors := by
        unfold selfAround
        split
        · next h =>
            cases h
            exact (himpl _ _ _ _ _ _ _ _ rfl rfl).elim
        · next h =>
            cases h
            exact (htrait rfl).elim
        · rw [← selfAround.eq_def]
      rw [scopeAround, scopeAround, moduleAround, hmodule, hself]

mutual

/-- The calls in a tree, those inside of a call before it. -/
def sites (ancestors : List Node) : Node → List Site
  | .leaf _ => []
  | .group _ body => sitesOfAll ancestors body
  | .phrase kind parts =>
    sitesOfAll (.phrase kind parts :: ancestors) parts ++
      ((target? (.phrase kind parts)).map (Site.mk ancestors)).toList

def sitesOfAll (ancestors : List Node) : List Node → List Site
  | [] => []
  | node :: rest => sites ancestors node ++ sitesOfAll ancestors rest

end

/-- What the call of a site means, in a file that is some module. -/
def Registry.meaning (registry : Registry) (module : String) (site : Site) : Resolution :=
  registry.resolve (scopeAround module site.ancestors) site.target

/-! ### Trees that differ inside of calls -/

/-- The kinds of calls and of what takes their place. -/
def callKinds : List Kind := [.callExpr, .methodCallExpr, .matchExpr]

mutual

/-- Two trees have the same form outside of calls and matches. -/
inductive Alike : Node → Node → Prop
  | leaf {token} : Alike (.leaf token) (.leaf token)
  | group {delimiter body other} :
    AlikeAll body other → Alike (.group delimiter body) (.group delimiter other)
  | phrase {kind parts other} :
    AlikeAll parts other → Alike (.phrase kind parts) (.phrase kind other)
  | call {kind otherKind parts other} :
    kind ∈ callKinds → otherKind ∈ callKinds → Alike (.phrase kind parts) (.phrase otherKind other)

inductive AlikeAll : List Node → List Node → Prop
  | nil : AlikeAll [] []
  | cons {node other rest others} :
    Alike node other → AlikeAll rest others → AlikeAll (node :: rest) (other :: others)

end

mutual

theorem Alike.symm : {node other : Node} → Alike node other → Alike other node
  | .leaf _, _, .leaf => .leaf
  | .group _ _, _, .group hbody => .group hbody.symm
  | .phrase _ _, _, .phrase hparts => .phrase hparts.symm
  | .phrase _ _, _, .call hkind hother => .call hother hkind

theorem AlikeAll.symm : {nodes others : List Node} → AlikeAll nodes others → AlikeAll others nodes
  | [], _, .nil => .nil
  | _ :: _, _, .cons hnode hrest => .cons hnode.symm hrest.symm

end

section Alike

variable {node other : Node} {parts others : List Node}

theorem Alike.phrase_inv {kind : Kind} (hkind : kind ∉ callKinds)
    (halike : Alike (.phrase kind parts) other) :
    ∃ others, other = .phrase kind others ∧ AlikeAll parts others := by
  cases halike with
  | phrase hparts => exact ⟨_, rfl, hparts⟩
  | call hcall => exact absurd hcall hkind

theorem Alike.identName? (halike : Alike node other) : other.identName? = node.identName? := by
  cases halike <;> rfl

theorem Alike.isPunct (text : String) (halike : Alike node other) :
    other.isPunct text = node.isPunct text := by
  cases halike <;> rfl

theorem Alike.is_eq {kind : Kind} (hkind : kind ∉ callKinds) (halike : Alike node other) :
    other.is kind = node.is kind := by
  cases halike with
  | leaf => rfl
  | group => rfl
  | phrase => rfl
  | @call own otherKind parts others hown hother =>
      have hne : ∀ call ∈ callKinds, (some call == some kind) = false := by
        intro call hmem
        refine beq_false_of_ne fun heq => hkind ?_
        exact Option.some.inj heq ▸ hmem
      exact (hne otherKind hother).trans (hne own hown).symm

theorem segmentName_alike (halike : AlikeAll parts others) :
    Node.segmentName (.phrase .segment others) = Node.segmentName (.phrase .segment parts) := by
  cases halike with
  | nil => rfl
  | cons hhead hrest =>
      simp only [Node.segmentName, Node.parts, List.head?_cons, Option.bind_some, hhead.identName?]

/-- The names of the segments among some parts. -/
theorem segmentNames_alike (halike : AlikeAll parts others) :
    (others.filter (Node.is .segment)).map Node.segmentName =
      (parts.filter (Node.is .segment)).map Node.segmentName := by
  induction parts generalizing others with
  | nil => cases halike; rfl
  | cons node rest ih =>
      cases halike with
      | @cons node other rest others hnode hrest =>
          have his : other.is .segment = node.is .segment := hnode.is_eq (by decide)
          by_cases hsegment : node.is .segment = true
          · obtain ⟨inner, rfl⟩ := exists_parts_of_is hsegment
            obtain ⟨otherInner, rfl, hinner⟩ := hnode.phrase_inv (by decide)
            rw [List.filter_cons_of_pos hsegment, List.filter_cons_of_pos (his.trans hsegment),
              List.map_cons, List.map_cons, ih hrest, segmentName_alike hinner]
          · rw [List.filter_cons_of_neg hsegment, List.filter_cons_of_neg (his ▸ hsegment),
              ih hrest]

theorem segments_of_ne {kind : Kind} (hpath : kind ≠ .path) (hqualified : kind ≠ .qualifiedPath)
    (parts : List Node) : Node.segments (.phrase kind parts) = [] := by
  unfold Node.segments
  split
  · next h =>
      cases h
      exact absurd rfl hpath
  · next h =>
      cases h
      exact absurd rfl hqualified
  · rfl

theorem qualifiedSegments_cons (node : Node) (rest : List Node) :
    Node.segments (.phrase .qualifiedPath (node :: rest)) =
      Node.segments (.phrase .qualifiedPath [node]) ++
        Node.segments (.phrase .qualifiedPath rest) := by
  simp only [Node.segments, List.flatMap_cons, List.flatMap_nil, List.append_nil]

theorem qualifiedSegments_of_ne {kind : Kind} (hpath : kind ≠ .path) (hsegment : kind ≠ .segment)
    (parts : List Node) : Node.segments (.phrase .qualifiedPath [.phrase kind parts]) = [] := by
  simp only [Node.segments, List.flatMap_cons, List.flatMap_nil, List.append_nil]
  split
  · next h =>
      cases h
      exact absurd rfl hpath
  · next h =>
      cases h
      exact absurd rfl hsegment
  · rfl

theorem qualifiedNames_singleton_alike (halike : Alike node other) :
    (Node.segments (.phrase .qualifiedPath [other])).map Node.segmentName =
      (Node.segments (.phrase .qualifiedPath [node])).map Node.segmentName := by
  have hcall : ∀ call ∈ callKinds, ∀ parts,
      Node.segments (.phrase .qualifiedPath [.phrase call parts]) = [] := by
    intro call hmem parts
    refine qualifiedSegments_of_ne ?_ ?_ parts
    · rintro rfl
      exact absurd hmem (by decide)
    · rintro rfl
      exact absurd hmem (by decide)
  cases halike with
  | leaf => rfl
  | group => rfl
  | @phrase kind parts others hparts =>
      by_cases hpath : kind = .path
      · subst hpath
        simp only [Node.segments, List.flatMap_cons, List.flatMap_nil, List.append_nil]
        exact segmentNames_alike hparts
      · by_cases hsegment : kind = .segment
        · subst hsegment
          exact congrArg (· :: []) (segmentName_alike hparts)
        · rw [qualifiedSegments_of_ne hpath hsegment, qualifiedSegments_of_ne hpath hsegment]
  | call hkind hother => rw [hcall _ hkind, hcall _ hother]

theorem qualifiedNames_alike (halike : AlikeAll parts others) :
    (Node.segments (.phrase .qualifiedPath others)).map Node.segmentName =
      (Node.segments (.phrase .qualifiedPath parts)).map Node.segmentName := by
  induction parts generalizing others with
  | nil => cases halike; rfl
  | cons node rest ih =>
      cases halike with
      | cons hnode hrest =>
          rw [qualifiedSegments_cons, List.map_append, ih hrest,
            qualifiedNames_singleton_alike hnode, ← List.map_append, ← qualifiedSegments_cons]

theorem pathNames_alike (halike : Alike node other) : other.pathNames = node.pathNames := by
  have hcall : ∀ call ∈ callKinds, ∀ parts, Node.segments (.phrase call parts) = [] := by
    intro call hmem parts
    refine segments_of_ne ?_ ?_ parts
    · rintro rfl
      exact absurd hmem (by decide)
    · rintro rfl
      exact absurd hmem (by decide)
  unfold Node.pathNames
  cases halike with
  | leaf => rfl
  | group => rfl
  | @phrase kind parts others hparts =>
      by_cases hpath : kind = .path
      · subst hpath
        exact segmentNames_alike hparts
      · by_cases hqualified : kind = .qualifiedPath
        · subst hqualified
          exact qualifiedNames_alike hparts
        · rw [segments_of_ne hpath hqualified, segments_of_ne hpath hqualified]
  | call hkind hother => rw [hcall _ hkind, hcall _ hother]

theorem eq_of_soleName? {name : String} (hname : node.soleName? = some name) :
    node = .phrase .path [.phrase .segment [.leaf (.ident name)]] := by
  unfold Node.soleName? at hname
  split at hname
  · cases hname
    rfl
  · cases hname

/-- What is alike a path of a single name is that path. -/
theorem Alike.soleName? (halike : Alike node other) {name : String}
    (hname : node.soleName? = some name) : other.soleName? = some name := by
  obtain rfl := eq_of_soleName? hname
  obtain ⟨parts, rfl, hparts⟩ := halike.phrase_inv (by decide)
  cases hparts with
  | cons hsegment hrest =>
      cases hrest
      obtain ⟨segment, rfl, hinner⟩ := hsegment.phrase_inv (by decide)
      cases hinner with
      | cons hleaf hrest =>
          cases hrest
          cases hleaf
          rfl

theorem soleName?_alike (halike : Alike node other) : other.soleName? = node.soleName? := by
  cases hname : node.soleName? with
  | some name => exact halike.soleName? hname
  | none =>
      cases hother : other.soleName? with
      | none => rfl
      | some name => exact (hname.symm.trans (halike.symm.soleName? hother)).symm

theorem AlikeAll.cons_inv (halike : AlikeAll (node :: parts) others) :
    ∃ other rest, others = other :: rest ∧ Alike node other ∧ AlikeAll parts rest := by
  cases halike with
  | cons hnode hrest => exact ⟨_, _, rfl, hnode, hrest⟩

theorem AlikeAll.nil_inv (halike : AlikeAll [] others) : others = [] := by
  cases halike
  rfl

theorem Alike.isSelf (halike : Alike node other) (hself : isSelf node = true) :
    isSelf other = true := by
  unfold Call.isSelf at hself
  split at hself
  · obtain ⟨parts, rfl, hparts⟩ := halike.phrase_inv (by decide)
    obtain ⟨attributes, rest, rfl, -, hrest⟩ := hparts.cons_inv
    obtain ⟨path, rest, rfl, hpath, hrest⟩ := hrest.cons_inv
    obtain rfl := hrest.nil_inv
    exact (congrArg (· == some "self") (soleName?_alike hpath)).trans hself
  · cases hself

theorem isSelf_alike (halike : Alike node other) : isSelf other = isSelf node :=
  Bool.eq_iff_iff.mpr ⟨halike.symm.isSelf, halike.isSelf⟩

theorem Alike.assignedName? (halike : Alike node other) {name : String}
    (hname : assignedName? node = some name) : assignedName? other = some name := by
  unfold Call.assignedName? at hname
  split at hname
  · obtain ⟨parts, rfl, hparts⟩ := halike.phrase_inv (by decide)
    obtain ⟨attributes, rest, rfl, hattributes, hrest⟩ := hparts.cons_inv
    obtain ⟨path, rest, rfl, hpath, hrest⟩ := hrest.cons_inv
    obtain rfl := hrest.nil_inv
    obtain ⟨inner, rfl, hinner⟩ := hattributes.phrase_inv (by decide)
    obtain rfl := hinner.nil_inv
    exact hpath.soleName? hname
  · cases hname

theorem Alike.isNamed (halike : Alike node other) (hnamed : (Argument.ofExpr node).isNamed) :
    (Argument.ofExpr other).isNamed := by
  unfold Argument.ofExpr at hnamed
  split at hnamed
  · obtain ⟨parts, rfl, hparts⟩ := halike.phrase_inv (by decide)
    obtain ⟨attributes, rest, rfl, -, hrest⟩ := hparts.cons_inv
    obtain ⟨left, rest, rfl, hleft, hrest⟩ := hrest.cons_inv
    obtain ⟨sign, rest, rfl, -, hrest⟩ := hrest.cons_inv
    obtain ⟨value, rest, rfl, -, hrest⟩ := hrest.cons_inv
    obtain rfl := hrest.nil_inv
    split at hnamed
    · next name hname =>
        rw [Argument.ofExpr, hleft.assignedName? hname]
        rfl
    · cases hnamed
  · cases hnamed

theorem AlikeAll.exists_of_mem (halike : AlikeAll parts others) (hmem : node ∈ parts) :
    ∃ other ∈ others, Alike node other := by
  induction parts generalizing others with
  | nil => cases hmem
  | cons head rest ih =>
      obtain ⟨other, tail, rfl, hhead, htail⟩ := halike.cons_inv
      rcases List.mem_cons.mp hmem with rfl | hmem
      · exact ⟨other, List.mem_cons_self, hhead⟩
      · obtain ⟨found, hfound, hnode⟩ := ih htail hmem
        exact ⟨found, List.mem_cons_of_mem other hfound, hnode⟩

theorem AlikeAll.hasNamed (halike : AlikeAll parts others)
    (hnamed : (argumentsOf parts).any (·.isNamed)) : (argumentsOf others).any (·.isNamed) := by
  simp only [argumentsOf, List.any_map, List.any_filter, List.any_eq_true, Bool.and_eq_true,
    Function.comp_apply] at hnamed ⊢
  obtain ⟨node, hmem, hpunct, hnode⟩ := hnamed
  obtain ⟨other, hother, halike⟩ := halike.exists_of_mem hmem
  exact ⟨other, hother, by rw [halike.isPunct]; exact hpunct, halike.isNamed hnode⟩

theorem hasNamed_alike (halike : AlikeAll parts others) :
    (argumentsOf others).any (·.isNamed) = (argumentsOf parts).any (·.isNamed) :=
  Bool.eq_iff_iff.mpr ⟨halike.symm.hasNamed, halike.hasNamed⟩

/-- What is alike a call of some target is a call, of a target that resolves in the same way. -/
theorem AlikeAll.exists_target? {kind : Kind} (halike : AlikeAll parts others) {target : Target}
    (htarget : target? (.phrase kind parts) = some target) :
    ∃ other, target? (.phrase kind others) = some other ∧
      ∀ registry : Registry, ∀ scope,
        registry.resolve scope other = registry.resolve scope target := by
  obtain ⟨call, hcall, rfl⟩ := Option.map_eq_some_iff.mp htarget
  unfold CallExpr.ofNode? at hcall
  split at hcall
  · next attributes own path body heq =>
      cases heq
      cases hcall
      obtain ⟨attributes, rest, rfl, -, hrest⟩ := halike.cons_inv
      obtain ⟨callee, rest, rfl, hcallee, hrest⟩ := hrest.cons_inv
      obtain ⟨arguments, rest, rfl, harguments, hrest⟩ := hrest.cons_inv
      obtain rfl := hrest.nil_inv
      obtain ⟨inner, rfl, hinner⟩ := hcallee.phrase_inv (by decide)
      obtain ⟨own, rest, rfl, -, hrest⟩ := hinner.cons_inv
      obtain ⟨otherPath, rest, rfl, hpath, hrest⟩ := hrest.cons_inv
      obtain rfl := hrest.nil_inv
      cases harguments with
      | group =>
          refine ⟨.function otherPath, rfl, fun registry scope => ?_⟩
          exact congrArg (registry.resolveNames · scope.module) (pathNames_alike hpath)
  · next attributes receiver dot name turbofish body heq =>
      cases heq
      cases hcall
      obtain ⟨attributes, rest, rfl, -, hrest⟩ := halike.cons_inv
      obtain ⟨otherReceiver, rest, rfl, hreceiver, hrest⟩ := hrest.cons_inv
      obtain ⟨dot, rest, rfl, -, hrest⟩ := hrest.cons_inv
      obtain ⟨leaf, rest, rfl, hleaf, hrest⟩ := hrest.cons_inv
      obtain ⟨turbofish, rest, rfl, -, hrest⟩ := hrest.cons_inv
      obtain ⟨arguments, rest, rfl, harguments, hrest⟩ := hrest.cons_inv
      obtain rfl := hrest.nil_inv
      cases hleaf
      cases harguments with
      | group hbody =>
          refine ⟨_, rfl, fun registry scope => ?_⟩
          simp only [Registry.resolve, isSelf_alike hreceiver, hasNamed_alike hbody]
  · cases hcall

/-- What a call means depends on nothing inside of the calls in it. -/
theorem resolution_alike {kind : Kind} (halike : AlikeAll parts others) (registry : Registry)
    (scope : Scope) :
    (target? (.phrase kind others)).map (registry.resolve scope) =
      (target? (.phrase kind parts)).map (registry.resolve scope) := by
  cases htarget : target? (.phrase kind parts) with
  | some target =>
      obtain ⟨other, hother, hresolve⟩ := halike.exists_target? htarget
      rw [hother, Option.map_some, Option.map_some, hresolve]
  | none =>
      cases hother : target? (.phrase kind others) with
      | none => rfl
      | some other =>
          obtain ⟨target, hsome, -⟩ := halike.symm.exists_target? hother
          exact absurd (htarget.symm.trans hsome) nofun

end Alike

end EntityTables.Call
