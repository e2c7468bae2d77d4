import EntityTables.Schema.Reference

/-!
# The path inside the type of a reference

A type names a path of its own, or it is a layer around other types: a reference, parentheses, or
one of the wrappers with its arguments. Through any number of layers a type names the first path
that is named inside, and every type names one path or none.
-/

namespace EntityTables.Schema

open EntityTables.Syntax

/-- A type that is a path names it, unless it is a wrapper with arguments; an object or `impl` type
names the first trait among its bounds. -/
inductive NamesItself : Node → Node → Prop
  | object {parts : List Node} {path : Node}
      (hbound : parts.findSome? Node.boundPath? = some path) :
      NamesItself (.phrase .traitObjectType parts) path
  | impl {parts : List Node} {path : Node}
      (hbound : parts.findSome? Node.boundPath? = some path) :
      NamesItself (.phrase .implTraitType parts) path
  | path {parts : List Node} {last : Node}
      (hlast : (Node.phrase .path parts).segments.getLast? = some last)
      (hplain : last.segmentName ∉ referenceWrappers ∨ last.angleArguments? = none) :
      NamesItself (.phrase .pathType [.phrase .path parts]) (.phrase .path parts)

/-- A type that is a layer, with the types that it is around. -/
inductive IsAround : Node → List Node → Prop
  | reference (front : List Node) (content : Node) :
      IsAround (.phrase .referenceType (front ++ [content])) [content]
  | paren (content : Node) : IsAround (.phrase .parenType [.group .paren [content]]) [content]
  | wrapper (front : List Node) (name : Node) (arguments : List Node)
      (hwrapper : (Node.phrase .segment [name, .phrase .genericArgs arguments]).segmentName ∈
        referenceWrappers) :
      IsAround (.phrase .pathType [.phrase .path (front ++
          [.phrase .segment [name, .phrase .genericArgs arguments]])])
        (arguments.filter Node.isTypeArgument)

mutual

/-- The path that a type names, if it names one. -/
inductive Names : Node → Option Node → Prop
  | itself {type path : Node} (hown : NamesItself type path) : Names type (some path)
  | inside {type : Node} {inner : List Node} {answer : Option Node} (haround : IsAround type inner)
      (hfirst : FirstNamed inner answer) : Names type answer
  | nothing {type : Node} (hown : ∀ path, ¬NamesItself type path)
      (haround : ∀ inner, ¬IsAround type inner) : Names type none

/-- The path of the first of some types that names one. -/
inductive FirstNamed : List Node → Option Node → Prop
  | none : FirstNamed [] none
  | here {type path : Node} {rest : List Node} (hnames : Names type (some path)) :
      FirstNamed (type :: rest) (some path)
  | later {type : Node} {rest : List Node} {answer : Option Node} (hnames : Names type none)
      (hrest : FirstNamed rest answer) : FirstNamed (type :: rest) answer

end

/-! ### One layer -/

section Layer

variable {type path : Node} {inner : List Node} {answer : Option Node}

theorem referencedInLast?_concat (front : List Node) (content : Node) :
    referencedInLast? (front ++ [content]) = referencedPath? content := by
  induction front with
  | nil => rfl
  | cons part front ih =>
      cases front with
      | nil => exact ih
      | cons next front => exact ih

theorem referencedInArguments?_eq (arguments : List Node) :
    referencedInArguments? arguments =
      (arguments.filter Node.isTypeArgument).findSome? referencedPath? := by
  induction arguments with
  | nil => rfl
  | cons argument rest ih =>
      rw [referencedInArguments?, ih]
      by_cases hargument : argument.isTypeArgument
      · rw [if_pos hargument, List.filter_cons_of_pos hargument, List.findSome?_cons]
        cases referencedPath? argument <;> rfl
      · rw [if_neg hargument, List.filter_cons_of_neg hargument]

theorem referencedInSegments?_concat (front : List Node) (name : Node) (arguments : List Node) :
    referencedInSegments? (front ++ [.phrase .segment [name, .phrase .genericArgs arguments]]) =
      referencedInArguments? arguments := by
  induction front with
  | nil => rfl
  | cons part front ih =>
      rw [List.cons_append, referencedInSegments?]
      · exact ih
      · rintro name' arguments' - hnil
        simp at hnil

theorem segments_getLast? (front : List Node) (parts : List Node) :
    (Node.phrase .path (front ++ [.phrase .segment parts])).segments.getLast? =
      some (.phrase .segment parts) := by
  simp [Node.segments, Node.is, Node.kind?]

/-- A layer names what the first of the types inside names. -/
theorem IsAround.referencedPath?_eq (haround : IsAround type inner) :
    referencedPath? type = inner.findSome? referencedPath? := by
  cases haround with
  | reference front content =>
      rw [referencedPath?, referencedInLast?_concat, List.findSome?_singleton]
  | paren content => rw [referencedPath?, List.findSome?_singleton]
  | wrapper front name arguments hwrapper =>
      rw [referencedPath?, segments_getLast?]
      have hcontains := List.contains_iff_mem.mpr hwrapper
      simp only [hcontains, if_true, Node.angleArguments?, Option.isSome_some,
        referencedInSegments?_concat, referencedInArguments?_eq]

theorem NamesItself.referencedPath?_eq (hown : NamesItself type path) :
    referencedPath? type = some path := by
  cases hown with
  | object hbound => rw [referencedPath?, hbound]
  | impl hbound => rw [referencedPath?, hbound]
  | @path parts last hlast hplain =>
      rw [referencedPath?, hlast]
      dsimp only
      by_cases hwrapper : last.segmentName ∈ referenceWrappers
      · have hnone : last.angleArguments? = none := hplain.resolve_left fun hnot => hnot hwrapper
        rw [if_pos (List.contains_iff_mem.mpr hwrapper), if_neg (by simp [hnone])]
      · rw [if_neg (by simpa using hwrapper)]

theorem referencedInSegments?_eq_none {parts : List Node}
    (hparts : ∀ front name arguments,
      parts ≠ front ++ [.phrase .segment [name, .phrase .genericArgs arguments]]) :
    referencedInSegments? parts = none := by
  induction parts with
  | nil => rfl
  | cons part rest ih =>
      rw [referencedInSegments?]
      · apply ih
        intro front name arguments hrest
        exact hparts (part :: front) name arguments (by rw [hrest, List.cons_append])
      · rintro name arguments rfl rfl
        exact hparts [] name arguments rfl

theorem referencedPath?_eq_none (hown : ∀ path, ¬NamesItself type path)
    (haround : ∀ inner, ¬IsAround type inner) : referencedPath? type = none := by
  unfold referencedPath?
  split
  · next parts =>
      rcases List.eq_nil_or_concat parts with rfl | ⟨front, content, rfl⟩
      · rfl
      · rw [List.concat_eq_append] at haround
        exact absurd (.reference front content) (haround _)
  · exact absurd (.paren _) (haround _)
  · exact Option.eq_none_iff_forall_not_mem.mpr fun path hbound => hown path (.object hbound)
  · exact Option.eq_none_iff_forall_not_mem.mpr fun path hbound => hown path (.impl hbound)
  · next parts =>
      split
      · next last hlast =>
          by_cases hwrapper : last.segmentName ∈ referenceWrappers
          · cases harguments : last.angleArguments? with
            | none => exact absurd (.path hlast (Or.inr harguments)) (hown _)
            | some arguments =>
                rw [if_pos (List.contains_iff_mem.mpr hwrapper),
                  if_pos (Option.isSome_some)]
                apply referencedInSegments?_eq_none
                rintro front name own rfl
                rw [segments_getLast?, Option.some.injEq] at hlast
                subst hlast
                exact haround _ (.wrapper front name own hwrapper)
          · exact absurd (.path hlast (Or.inl hwrapper)) (hown _)
      · rfl
  · rfl

theorem sizeOf_lt_phrase {kind : Kind} {parts : List Node} {part : Node} (hpart : part ∈ parts) :
    sizeOf part < sizeOf (Node.phrase kind parts) := by
  have hsize := List.sizeOf_lt_of_mem hpart
  rw [Node.phrase.sizeOf_spec]
  omega

theorem sizeOf_lt_group {delimiter : Delimiter} {body : List Node} {part : Node}
    (hpart : part ∈ body) : sizeOf part < sizeOf (Node.group delimiter body) := by
  have hsize := List.sizeOf_lt_of_mem hpart
  rw [Node.group.sizeOf_spec]
  omega

theorem IsAround.sizeOf_lt (haround : IsAround type inner) {content : Node}
    (hcontent : content ∈ inner) : sizeOf content < sizeOf type := by
  cases haround with
  | reference front =>
      rw [List.mem_singleton.mp hcontent]
      exact sizeOf_lt_phrase (by simp)
  | paren =>
      rw [List.mem_singleton.mp hcontent]
      calc sizeOf _
          < sizeOf (Node.group .paren [_]) := sizeOf_lt_group List.mem_cons_self
        _ < _ := sizeOf_lt_phrase List.mem_cons_self
  | wrapper front name arguments =>
      calc sizeOf content
          < sizeOf (Node.phrase .genericArgs arguments) :=
            sizeOf_lt_phrase (List.mem_filter.mp hcontent).1
        _ < sizeOf (Node.phrase .segment [name, .phrase .genericArgs arguments]) :=
            sizeOf_lt_phrase (by simp)
        _ < sizeOf (Node.phrase .path (front ++
              [.phrase .segment [name, .phrase .genericArgs arguments]])) :=
            sizeOf_lt_phrase (by simp)
        _ < _ := sizeOf_lt_phrase List.mem_cons_self

end Layer

/-! ### All layers -/

mutual

theorem Names.referencedPath?_eq {type : Node} {answer : Option Node} :
    Names type answer → referencedPath? type = answer
  | .itself hown => hown.referencedPath?_eq
  | .inside haround hfirst => haround.referencedPath?_eq.trans hfirst.findSome?_eq
  | .nothing hown haround => referencedPath?_eq_none hown haround

theorem FirstNamed.findSome?_eq {inner : List Node} {answer : Option Node} :
    FirstNamed inner answer → inner.findSome? referencedPath? = answer
  | .none => rfl
  | .here hnames => by rw [List.findSome?_cons, hnames.referencedPath?_eq]
  | .later hnames hrest => by
      rw [List.findSome?_cons, hnames.referencedPath?_eq, hrest.findSome?_eq]

end

theorem firstNamed_findSome? {inner : List Node}
    (hinner : ∀ content ∈ inner, Names content (referencedPath? content)) :
    FirstNamed inner (inner.findSome? referencedPath?) := by
  induction inner with
  | nil => exact .none
  | cons content rest ih =>
      have hcontent := hinner content List.mem_cons_self
      have hrest := ih fun other hmem => hinner other (List.mem_cons_of_mem _ hmem)
      rw [List.findSome?_cons]
      cases hpath : referencedPath? content with
      | none =>
          rw [hpath] at hcontent
          exact .later hcontent hrest
      | some path =>
          rw [hpath] at hcontent
          exact .here hcontent

theorem names_referencedPath? (type : Node) : Names type (referencedPath? type) := by
  by_cases hown : ∃ path, NamesItself type path
  · obtain ⟨path, hpath⟩ := hown
    rw [hpath.referencedPath?_eq]
    exact .itself hpath
  · by_cases haround : ∃ inner, IsAround type inner
    · obtain ⟨inner, hinner⟩ := haround
      rw [hinner.referencedPath?_eq]
      apply Names.inside hinner
      apply firstNamed_findSome?
      intro content hcontent
      exact names_referencedPath? content
    · rw [not_exists] at hown haround
      rw [referencedPath?_eq_none hown haround]
      exact .nothing hown haround
termination_by sizeOf type
decreasing_by exact hinner.sizeOf_lt hcontent

/-- Every type names the path that is found in it, and nothing else. -/
theorem names_iff {type : Node} {answer : Option Node} :
    Names type answer ↔ referencedPath? type = answer := by
  constructor
  · exact Names.referencedPath?_eq
  · rintro rfl
    exact names_referencedPath? type

end EntityTables.Schema
