import EntityTables.Proofs.Expansion.MarkedItem
import EntityTables.Proofs.Schema.Checking
import EntityTables.Proofs.Unit.Interface

/-!
# Expanding the marker of a table

The marker of a table takes the markers of properties off the fields of a struct and off the methods
of a trait, and changes nothing else. What is left is accepted again, though nothing that the check
reads is there any more, and stays as it is.
-/

namespace EntityTables.Expansion

open EntityTables.Syntax

/-! ### What is taken off -/

/-- An attribute that names the marker of a property, bare or under the name of this tool. -/
def IsPropertyMarker (attr : Node) : Prop :=
  ∃ marker ∈ ["column", "primary_key", "references"],
    attr.attributePath.pathNames = [marker] ∨ attr.attributePath.pathNames = ["tablegen", marker]

/-- Attributes, and those of them that are no markers of properties, in the same order. -/
inductive Kept : List Node → List Node → Prop
  | nil : Kept [] []
  | marker {attr : Node} {attributes kept : List Node} (hmarker : IsPropertyMarker attr)
      (hrest : Kept attributes kept) : Kept (attr :: attributes) kept
  | other {attr : Node} {attributes kept : List Node} (hother : ¬IsPropertyMarker attr)
      (hrest : Kept attributes kept) : Kept (attr :: attributes) (attr :: kept)

/-- A field, or a comma between fields, and what is left of it. -/
inductive FieldStripped : Node → Node → Prop
  | comma : FieldStripped (.punct ",") (.punct ",")
  | named {attributes kept : List Node} (visibility name colon type : Node)
      (hkept : Kept attributes kept) : FieldStripped
        (.phrase .field [.phrase .attributes attributes, visibility, name, colon, type])
        (.phrase .field [.phrase .attributes kept, visibility, name, colon, type])
  | unnamed {attributes kept : List Node} (visibility type : Node) (hkept : Kept attributes kept) :
      FieldStripped (.phrase .tupleField [.phrase .attributes attributes, visibility, type])
        (.phrase .tupleField [.phrase .attributes kept, visibility, type])

/-- The parts of a body, and what is left of them: attributes of which some are left, and all that
is no attributes. -/
inductive BodyStripped : List Node → List Node → Prop
  | nil : BodyStripped [] []
  | attributes {attributes kept parts left : List Node} (hkept : Kept attributes kept)
      (hne : kept ≠ []) (hrest : BodyStripped parts left) :
      BodyStripped (.phrase .attributes attributes :: parts) (.phrase .attributes kept :: left)
  | emptied {attributes parts left : List Node} (hkept : Kept attributes [])
      (hrest : BodyStripped parts left) : BodyStripped (.phrase .attributes attributes :: parts) left
  | statement {statement : Node} {parts left : List Node}
      (hstatement : statement.is .attributes = false) (hrest : BodyStripped parts left) :
      BodyStripped (statement :: parts) (statement :: left)

/-- A member of a trait, and what is left of it. A method loses markers in front of it and those at
the front of its body, if it has one. -/
inductive MemberStripped : Node → Node → Prop
  | abstract {attributes kept : List Node} (signature : Node) (hkept : Kept attributes kept) :
      MemberStripped (.phrase .traitFn [.phrase .attributes attributes, signature, .punct ";"])
        (.phrase .traitFn [.phrase .attributes kept, signature, .punct ";"])
  | provided {attributes kept parts left : List Node} (signature : Node)
      (hkept : Kept attributes kept) (hbody : BodyStripped parts left) : MemberStripped
        (.phrase .traitFn [.phrase .attributes attributes, signature, .group .brace parts])
        (.phrase .traitFn [.phrase .attributes kept, signature, .group .brace left])
  | other {member : Node} (hother : member.is .traitFn = false) : MemberStripped member member

/-- A struct without fields or with named ones, or a trait, and what is left of it. -/
inductive Stripped : Node → Node → Prop
  | unit (attributes visibility keyword name generics : Node) (predicates : List Node) : Stripped
      (.phrase .structItem [attributes, visibility, keyword, name, generics,
        .phrase .whereClause predicates, .punct ";"])
      (.phrase .structItem [attributes, visibility, keyword, name, generics,
        .phrase .whereClause predicates, .punct ";"])
  | struct (attributes visibility keyword name generics : Node)
      (predicates : List Node) {fields left : List Node}
      (hfields : List.Forall₂ FieldStripped fields left) : Stripped
        (.phrase .structItem [attributes, visibility, keyword, name, generics,
          .phrase .whereClause predicates, .group .brace fields])
        (.phrase .structItem [attributes, visibility, keyword, name, generics,
          .phrase .whereClause predicates, .group .brace left])
  | trait (attributes visibility qualifiers keyword name generics supertraits predicates : Node)
      {members left : List Node} (hmembers : List.Forall₂ MemberStripped members left) : Stripped
        (.phrase .traitItem [attributes, visibility, qualifiers, keyword, name, generics,
          supertraits, predicates, .group .brace members])
        (.phrase .traitItem [attributes, visibility, qualifiers, keyword, name, generics,
          supertraits, predicates, .group .brace left])

section Stripping

variable {attributes kept parts left : List Node} {attr member field : Node}

theorem isMarker_iff {marker : String} : attr.isMarker marker = true ↔
    attr.attributePath.pathNames = [marker] ∨
      attr.attributePath.pathNames = ["tablegen", marker] := by
  unfold Node.isMarker
  split
  · next only heq => simp [heq]
  · next front only heq => simp [heq]
  · next hone htwo =>
      constructor
      · exact nofun
      · rintro (heq | heq)
        · exact absurd heq (hone _)
        · exact absurd heq (htwo _ _)

theorem isPropertyMarker_iff : isPropertyMarker attr = true ↔ IsPropertyMarker attr := by
  unfold isPropertyMarker IsPropertyMarker
  simp only [List.any_eq_true, isMarker_iff]
  rfl

theorem kept_iff : Kept attributes kept ↔
    kept = attributes.filter fun attr => !isPropertyMarker attr := by
  constructor
  · intro hkept
    induction hkept with
    | nil => rfl
    | marker hmarker _ ih => simpa [isPropertyMarker_iff.mpr hmarker] using ih
    | other hother _ ih =>
        have hno := Bool.eq_false_iff.mpr fun hmarker => hother (isPropertyMarker_iff.mp hmarker)
        simpa [hno] using ih
  · rintro rfl
    induction attributes with
    | nil => exact .nil
    | cons attr rest ih =>
        cases hmarker : isPropertyMarker attr with
        | true =>
            rw [List.filter_cons_of_neg (by simp [hmarker])]
            exact .marker (isPropertyMarker_iff.mp hmarker) ih
        | false =>
            rw [List.filter_cons_of_pos (by simp [hmarker])]
            exact .other (fun his => by simp [isPropertyMarker_iff.mpr his] at hmarker) ih

theorem kept_filter (attributes : List Node) :
    Kept attributes (attributes.filter fun attr => !isPropertyMarker attr) := kept_iff.mpr rfl

/-- What is kept has no marker of a property. -/
theorem Kept.anyMarker_eq_false (hkept : Kept attributes kept) {marker : String}
    (hmarker : marker ∈ propertyMarkers) : Node.anyMarker marker kept = false := by
  rw [kept_iff.mp hkept]
  refine List.any_eq_false.mpr fun attr hmem his => ?_
  have hno := (List.mem_filter.mp hmem).2
  have hyes : isPropertyMarker attr = true := List.any_eq_true.mpr ⟨marker, hmarker, his⟩
  rw [hyes] at hno
  cases hno

theorem Kept.again (hkept : Kept attributes kept) : Kept kept kept := by
  rw [kept_iff] at hkept ⊢
  rw [hkept, List.filter_filter]
  simp

/-! ### Fields -/

theorem fieldStripped_stripField (hfield : field = .punct "," ∨ IsField field) :
    FieldStripped field (stripField field) := by
  rcases hfield with rfl | hfield
  · exact .comma
  · cases hfield with
    | named attributes visibility name colon type =>
        exact .named visibility (.leaf (.ident name)) colon type (kept_filter attributes)
    | unnamed attributes visibility type => exact .unnamed visibility type (kept_filter attributes)

theorem FieldStripped.again {left : Node} (hfield : FieldStripped field left) :
    stripField left = left := by
  cases hfield with
  | comma => rfl
  | named visibility name colon type hkept =>
      rw [stripField, stripAttributes, ← kept_iff.mp hkept.again]
  | unnamed visibility type hkept =>
      rw [stripField, stripAttributes, ← kept_iff.mp hkept.again]

/-! ### Methods -/

theorem stripPart?_of_ne (hkept : Kept attributes kept) (hne : kept ≠ []) :
    stripPart? (.phrase .attributes attributes) = some (.phrase .attributes kept) := by
  rw [stripPart?, stripAttributes, ← kept_iff.mp hkept]
  cases kept with
  | nil => exact absurd rfl hne
  | cons first others => rfl

theorem stripPart?_of_kept_nil (hkept : Kept attributes []) :
    stripPart? (.phrase .attributes attributes) = none := by
  rw [stripPart?, stripAttributes, ← kept_iff.mp hkept]
  rfl

theorem stripPart?_statement {statement : Node} (hstatement : statement.is .attributes = false) :
    stripPart? statement = some statement := by
  unfold stripPart?
  split
  · cases hstatement
  · rfl

theorem bodyStripped_filterMap (parts : List Node) :
    BodyStripped parts (parts.filterMap stripPart?) := by
  induction parts with
  | nil => exact .nil
  | cons part rest ih =>
      cases hpart : part.is .attributes with
      | false =>
          rw [List.filterMap_cons_some (stripPart?_statement hpart)]
          exact .statement hpart ih
      | true =>
          obtain ⟨attributes, rfl⟩ := exists_parts_of_is hpart
          have hkept := kept_filter attributes
          generalize attributes.filter (fun attr => !isPropertyMarker attr) = kept at hkept
          cases kept with
          | nil =>
              rw [List.filterMap_cons_none (stripPart?_of_kept_nil hkept)]
              exact .emptied hkept ih
          | cons first others =>
              have hne : first :: others ≠ [] := List.cons_ne_nil _ _
              rw [List.filterMap_cons_some (stripPart?_of_ne hkept hne)]
              exact .attributes hkept hne ih

theorem BodyStripped.again (hbody : BodyStripped parts left) : left.filterMap stripPart? = left := by
  induction hbody with
  | nil => rfl
  | attributes hkept hne _ ih =>
      rw [List.filterMap_cons_some (stripPart?_of_ne hkept.again hne), ih]
  | emptied _ _ ih => exact ih
  | statement hstatement _ ih =>
      rw [List.filterMap_cons_some (stripPart?_statement hstatement), ih]

theorem memberStripped_stripMember (hmember : IsTraitMember member) :
    MemberStripped member (stripMember member) := by
  cases hmember with
  | attributes parts => exact .other rfl
  | other parts hkind =>
      rcases hkind with rfl | rfl | rfl
      · exact .other rfl
      · exact .other rfl
      · exact .other rfl
  | method attributes hsignature hbody =>
      rcases hbody with rfl | ⟨statements, rfl⟩
      · exact .abstract _ (kept_filter attributes)
      · exact .provided _ (kept_filter attributes) (bodyStripped_filterMap statements)

theorem stripMember_other (hother : member.is .traitFn = false) : stripMember member = member := by
  unfold stripMember
  split
  · cases hother
  · rfl

theorem MemberStripped.again {left : Node} (hmember : MemberStripped member left) :
    stripMember left = left := by
  cases hmember with
  | abstract signature hkept =>
      rw [stripMember, stripAttributes, ← kept_iff.mp hkept.again]
      rfl
  | provided signature hkept hbody =>
      rw [stripMember, stripAttributes, ← kept_iff.mp hkept.again, stripBody, hbody.again]
  | other hother => exact stripMember_other hother

/-! ### Items -/

theorem forall₂_map_right {α : Type} {R : α → α → Prop} {change : α → α} {items : List α}
    (hitems : ∀ item ∈ items, R item (change item)) : List.Forall₂ R items (items.map change) :=
  List.forall₂_map_right_iff.mpr (List.forall₂_same.mpr hitems)

theorem map_eq_of_forall₂ {α : Type} {R : α → α → Prop} {change : α → α} {items left : List α}
    (hagain : ∀ item left, R item left → change left = left) (hitems : List.Forall₂ R items left) :
    left.map change = left := by
  induction hitems with
  | nil => rfl
  | cons hitem _ ih => rw [List.map_cons, hagain _ _ hitem, ih]

/-- What is left of an item has nothing to take off. -/
theorem Stripped.again {item left : Node} (hitem : Stripped item left) : stripItem left = left := by
  cases hitem with
  | unit => rfl
  | struct _ _ _ _ _ _ hfields =>
      have hleft := map_eq_of_forall₂ (fun _ _ => FieldStripped.again) hfields
      simp only [stripItem, List.map_cons, List.map_nil, mapGroup, hleft]
  | trait _ _ _ _ _ _ _ _ hmembers =>
      have hleft := map_eq_of_forall₂ (fun _ _ => MemberStripped.again) hmembers
      simp only [stripItem, mapGroup, hleft]

end Stripping

end EntityTables.Expansion
