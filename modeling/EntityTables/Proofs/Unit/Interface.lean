import EntityTables.Generated.RecordType
import EntityTables.Proofs.Syntax.ItemForm
import EntityTables.Proofs.Syntax.Items
import EntityTables.Proofs.Unit.Names

/-!
# The properties of interfaces

The properties of a trait are its abstract getters, in the order in which they are declared. A
property may be set if the trait has an abstract method that takes `mut self` in some form and one
value, returns nothing, and is named as the generated setter. The name of the property is compared
as it is written, so a property with a raw name is never one of these.
-/

namespace EntityTables

open EntityTables.Syntax
open EntityTables.Call (isRaw withoutRaw)

/-! ### Getters and setters as they are written -/

/-- The receiver and the parameters among the trees in the parentheses of a signature. -/
def inputsOf (trees : List Node) : List Node :=
  trees.filter fun tree => tree.is .receiver || tree.is .param

/-- A receiver that is written `&self`, perhaps with a lifetime. -/
def IsSharedReceiver (receiver : Node) : Prop :=
  ∃ attributes lifetime : List Node,
    (lifetime = [] ∨ ∃ name, lifetime = [.leaf (.lifetime name)]) ∧
    receiver = .phrase .receiver
      (.phrase .attributes attributes :: .punct "&" :: lifetime ++ [.ident "self"])

/-- A receiver that is written with `mut` in front of `self`. -/
def IsMutableReceiver (receiver : Node) : Prop :=
  ∃ front type : List Node,
    receiver = .phrase .receiver (front ++ .ident "mut" :: .ident "self" :: type)

/-- A method without a body. -/
def abstractMethod (attributes : List Node) (qualifiers keyword : Node) (name : String)
    (generics : Node) (inputs result : List Node) (predicates : Node) : Node :=
  .phrase .traitFn [.phrase .attributes attributes, .phrase .signature [qualifiers, keyword,
    .leaf (.ident name), generics, .group .paren inputs, .phrase .returnType result, predicates],
    .punct ";"]

/-- An abstract method without generic parameters that takes only `&self` and declares a result. -/
def IsGetter (member : Node) (name : String) (type : Node) (attributes : List Node) : Prop :=
  ∃ qualifiers keyword generics inputs arrow predicates receiver,
    member = abstractMethod attributes qualifiers keyword name generics inputs [arrow, type]
      predicates ∧
    generics.parts = [] ∧ inputsOf inputs = [receiver] ∧ IsSharedReceiver receiver

/-- An abstract method that takes `mut self` in some form and one value, and declares no result. -/
def IsSetter (member : Node) (name : String) : Prop :=
  ∃ attributes qualifiers keyword generics inputs predicates receiver value,
    member = abstractMethod attributes qualifiers keyword name generics inputs [] predicates ∧
    inputsOf inputs = [receiver, value] ∧ IsMutableReceiver receiver

/-- Some properties are those of the getters among some members, in the same order, each with the
name, the type and the markers of its getter. -/
inductive GettersOf : List Node → List Property → Prop
  | nil : GettersOf [] []
  | getter {member : Node} {members : List Node} {property : Property}
      {properties : List Property} {attributes : List Node}
      (hgetter : IsGetter member property.name property.type attributes)
      (hread : Property.read property.name property.type attributes property.mutable =
        .ok property)
      (hrest : GettersOf members properties) : GettersOf (member :: members) (property :: properties)
  | other {member : Node} {members : List Node} {properties : List Property}
      (hother : ∀ name type attributes, ¬IsGetter member name type attributes)
      (hrest : GettersOf members properties) : GettersOf (member :: members) properties

/-! ### Receivers -/

section Receivers

variable {receiver : Node}

theorem marks_of_isShared (hshared : IsSharedReceiver receiver) :
    receiver.is .receiver = true ∧ Signature.isReference receiver = true ∧
      Signature.isMutable receiver = false := by
  obtain ⟨attributes, lifetime, rfl | ⟨name, rfl⟩, rfl⟩ := hshared
  · exact ⟨rfl, rfl, rfl⟩
  · exact ⟨rfl, rfl, rfl⟩

theorem isShared_of_marks (hform : IsReceiver receiver)
    (hreference : Signature.isReference receiver = true)
    (hmutable : Signature.isMutable receiver = false) : IsSharedReceiver receiver := by
  cases hform with
  | byReference attributes hlifetime hmutability =>
      rcases hmutability with rfl | rfl
      · exact ⟨attributes, _, hlifetime, by simp⟩
      · simp [Signature.isMutable, Node.parts, Node.isIdent, Node.identName?, Node.ident] at hmutable
  | byValue attributes hmutability htype =>
      rcases hmutability with rfl | rfl <;> rcases htype with rfl | ⟨_, _, rfl⟩ <;>
        simp [Signature.isReference, Node.parts, Node.isPunct, Node.ident, Node.punct] at hreference

theorem marks_of_isMutable (hmutable : IsMutableReceiver receiver) :
    receiver.is .receiver = true ∧ Signature.isMutable receiver = true := by
  obtain ⟨front, type, rfl⟩ := hmutable
  simp [Signature.isMutable, Node.is, Node.kind?, Node.parts, Node.isIdent, Node.identName?,
    Node.ident]

theorem isMutable_of_marks (hform : IsReceiver receiver)
    (hmutable : Signature.isMutable receiver = true) : IsMutableReceiver receiver := by
  cases hform with
  | @byReference attributes lifetime _ hlifetime hmutability =>
      rcases hmutability with rfl | rfl
      · rcases hlifetime with rfl | ⟨_, rfl⟩ <;> cases hmutable
      · exact ⟨.phrase .attributes attributes :: .punct "&" :: lifetime, [], by simp⟩
  | @byValue attributes _ type hmutability htype =>
      rcases hmutability with rfl | rfl
      · rcases htype with rfl | ⟨_, _, rfl⟩ <;> cases hmutable
      · exact ⟨[.phrase .attributes attributes], type, by simp⟩

/-- What stands in parentheses and is a receiver has the form of one. -/
theorem isReceiver_of_mem {inputs : List Node}
    (hinputs : All (fun node => node = .punct "," ∨ IsInput node) inputs)
    (hmem : receiver ∈ inputsOf inputs) (hreceiver : receiver.is .receiver = true) :
    IsReceiver receiver := by
  rcases hinputs receiver (List.mem_filter.mp hmem).1 with rfl | hinput
  · cases hreceiver
  · cases hinput with
    | receiver hform => exact hform
    | param parts => cases hreceiver
    | rest parts => cases hreceiver

end Receivers

namespace Declaration

variable {member : Node} {method : Method}

/-! ### Members as methods -/

theorem getterType?_eq_some_iff {signature : Signature} {type : Node} :
    getterType? signature = some type ↔ signature.hasGenerics = false ∧
      signature.outputType? = some type ∧ ∃ receiver, signature.inputs = [receiver] ∧
        receiver.is .receiver = true ∧ Signature.isReference receiver = true ∧
        Signature.isMutable receiver = false := by
  unfold getterType?
  split
  · next receiver heq =>
      rw [heq]
      split
      · next hall =>
          simp only [Bool.and_eq_true, Bool.not_eq_true'] at hall
          obtain ⟨⟨⟨hgenerics, hreceiver⟩, hreference⟩, hmutable⟩ := hall
          simp [hgenerics, hreceiver, hreference, hmutable]
      · next hall =>
          simp only [Bool.and_eq_true, Bool.not_eq_true'] at hall
          constructor
          · intro hnone
            cases hnone
          · rintro ⟨hgenerics, -, _, heq, hreceiver, hreference, hmutable⟩
            cases heq
            exact absurd ⟨⟨⟨hgenerics, hreceiver⟩, hreference⟩, hmutable⟩ hall
  · next hother =>
      constructor
      · intro hnone
        cases hnone
      · rintro ⟨-, -, receiver, heq, -⟩
        exact absurd heq (hother receiver)

theorem withoutFront?_eq_some_iff {front name rest : String} :
    withoutFront? front name = some rest ↔ name = front ++ rest := by
  unfold withoutFront?
  rw [← String.toList_inj, String.toList_append]
  split
  · next hfront =>
      obtain ⟨others, hothers⟩ := List.isPrefixOf_iff_prefix.mp hfront
      rw [← hothers, ← String.length_toList, List.drop_left, List.append_cancel_left_eq,
        Option.some.injEq, ← String.toList_inj, String.toList_ofList]
  · next hfront =>
      constructor
      · nofun
      · intro hname
        exact absurd (List.isPrefixOf_iff_prefix.mpr ⟨_, hname.symm⟩) hfront

theorem setterTarget?_eq_some_iff {signature : Signature} {property : String} :
    setterTarget? signature = some property ↔ signature.name = "set_" ++ property ∧
      signature.outputType? = none ∧ ∃ receiver value, signature.inputs = [receiver, value] ∧
        receiver.is .receiver = true ∧ Signature.isMutable receiver = true := by
  unfold setterTarget?
  split
  · next own receiver value hown heq =>
      rw [heq, ← withoutFront?_eq_some_iff, hown]
      split
      · next hall =>
          simp only [Bool.and_eq_true, Option.isNone_iff_eq_none] at hall
          obtain ⟨⟨hresult, hreceiver⟩, hmutable⟩ := hall
          simp [hresult, hreceiver, hmutable]
      · next hall =>
          simp only [Bool.and_eq_true, Option.isNone_iff_eq_none] at hall
          constructor
          · nofun
          · rintro ⟨-, hresult, _, _, heq, hreceiver, hmutable⟩
            cases heq
            exact absurd ⟨⟨hresult, hreceiver⟩, hmutable⟩ hall
  · next hother =>
      constructor
      · nofun
      · rintro ⟨hname, -, receiver, value, heq, -⟩
        exact absurd heq (hother _ receiver value (withoutFront?_eq_some_iff.mpr hname))

/-- The property that a member is read as, if it is a getter; `targets` are the properties that
have a setter. -/
def getterOf? (targets : List String) (member : Node) :
    Option (Except Marker.ArgumentError Property) :=
  (method? member).bind fun method =>
    if method.isAbstract then
      (getterType? method.signature).map fun type =>
        Property.read method.signature.name type method.attributes
          (targets.contains method.signature.name)
    else none

/-- The property that a member sets, if it is a setter. -/
def setterOf? (member : Node) : Option String :=
  (method? member).bind fun method =>
    if method.isAbstract then setterTarget? method.signature else none

theorem filterMap_abstract {α : Type} (read : Method → Option α) (members : List Node) :
    ((members.filterMap method?).filter (·.isAbstract)).filterMap read =
      members.filterMap fun member => (method? member).bind fun method =>
        if method.isAbstract then read method else none := by
  rw [List.filterMap_filter, List.filterMap_filterMap]

theorem methodProperties_eq (members : List Node) :
    methodProperties (members.filterMap method?) =
      Property.collect (members.filterMap (getterOf? (members.filterMap setterOf?))) := by
  unfold methodProperties
  dsimp only
  rw [filterMap_abstract, filterMap_abstract]
  rfl

theorem method?_abstractMethod {attributes : List Node} {qualifiers keyword : Node} {name : String}
    {generics : Node} {inputs result : List Node} {predicates : Node} :
    method? (abstractMethod attributes qualifiers keyword name generics inputs result predicates) =
      some ⟨attributes, ⟨name, !generics.parts.isEmpty, inputsOf inputs, .phrase .returnType result⟩,
        true⟩ := rfl

/-- A member that is read as an abstract method is one. -/
theorem exists_abstractMethod (hmember : IsTraitMember member) (hmethod : method? member = some method)
    (habstract : method.isAbstract = true) :
    ∃ attributes qualifiers keyword name generics inputs result predicates,
      member = abstractMethod attributes qualifiers keyword name generics inputs result predicates ∧
      All (fun node => node = .punct "," ∨ IsInput node) inputs ∧
      (result = [] ∨ ∃ arrow type, result = [arrow, type]) := by
  cases hmember with
  | attributes parts => cases hmethod
  | other parts hkind =>
      rcases hkind with rfl | rfl | rfl <;> cases hmethod
  | method attributes hsignature hbody =>
      cases hsignature with
      | signature qualifiers keyword generics predicates hname hinputs hresult =>
          rcases hbody with rfl | ⟨statements, rfl⟩
          · exact ⟨_, _, _, _, _, _, _, _, rfl, hinputs, hresult⟩
          · cases hmethod
            cases habstract

theorem outputType?_eq_some_iff {name : String} {hasGenerics : Bool} {inputs result : List Node}
    {type : Node} :
    Signature.outputType? ⟨name, hasGenerics, inputs, .phrase .returnType result⟩ = some type ↔
      ∃ arrow, result = [arrow, type] := by
  unfold Signature.outputType?
  dsimp only
  split
  · next heq =>
      cases heq
      simp
  · next hother =>
      constructor
      · nofun
      · rintro ⟨arrow, rfl⟩
        exact absurd rfl (hother _ _)

theorem getterOf?_eq_some_iff (hmember : IsTraitMember member) {targets : List String}
    {read : Except Marker.ArgumentError Property} :
    getterOf? targets member = some read ↔ ∃ name type attributes,
      IsGetter member name type attributes ∧
        read = Property.read name type attributes (targets.contains name) := by
  constructor
  · intro hread
    obtain ⟨method, hmethod, hread⟩ := Option.bind_eq_some_iff.mp hread
    split at hread
    · next habstract =>
        obtain ⟨type, htype, rfl⟩ := Option.map_eq_some_iff.mp hread
        obtain ⟨attributes, qualifiers, keyword, name, generics, inputs, result, predicates, rfl,
          hinputs, -⟩ := exists_abstractMethod hmember hmethod habstract
        rw [method?_abstractMethod] at hmethod
        cases hmethod
        obtain ⟨hgenerics, houtput, receiver, heq, hreceiver, hshared⟩ :=
          getterType?_eq_some_iff.mp htype
        obtain ⟨arrow, rfl⟩ := outputType?_eq_some_iff.mp houtput
        replace heq : inputsOf inputs = [receiver] := heq
        have hform : IsReceiver receiver :=
          isReceiver_of_mem hinputs (heq ▸ List.mem_cons_self) hreceiver
        exact ⟨name, type, attributes, ⟨_, _, _, _, _, _, receiver, rfl, by simpa using hgenerics, heq,
          isShared_of_marks hform hshared.1 hshared.2⟩, rfl⟩
    · cases hread
  · rintro ⟨name, type, attributes, ⟨qualifiers, keyword, generics, inputs, arrow, predicates,
      receiver, rfl, hgenerics, hinputs, hshared⟩, rfl⟩
    refine Option.bind_eq_some_iff.mpr ⟨_, method?_abstractMethod, ?_⟩
    refine Option.map_eq_some_iff.mpr ⟨type, getterType?_eq_some_iff.mpr ?_, rfl⟩
    refine ⟨?_, outputType?_eq_some_iff.mpr ⟨arrow, rfl⟩, receiver, hinputs, marks_of_isShared hshared⟩
    rw [hgenerics]
    rfl

theorem outputType?_eq_none_iff {name : String} {hasGenerics : Bool} {inputs result : List Node}
    (hresult : result = [] ∨ ∃ arrow type, result = [arrow, type]) :
    Signature.outputType? ⟨name, hasGenerics, inputs, .phrase .returnType result⟩ = none ↔
      result = [] := by
  rcases hresult with rfl | ⟨arrow, type, rfl⟩
  · exact ⟨fun _ => rfl, fun _ => rfl⟩
  · exact ⟨nofun, nofun⟩

theorem setterOf?_eq_some_iff (hmember : IsTraitMember member) {property : String} :
    setterOf? member = some property ↔ IsSetter member ("set_" ++ property) := by
  constructor
  · intro hread
    obtain ⟨method, hmethod, hread⟩ := Option.bind_eq_some_iff.mp hread
    split at hread
    · next habstract =>
        obtain ⟨attributes, qualifiers, keyword, name, generics, inputs, result, predicates, rfl,
          hinputs, hresult⟩ := exists_abstractMethod hmember hmethod habstract
        rw [method?_abstractMethod] at hmethod
        cases hmethod
        obtain ⟨hname, houtput, receiver, value, heq, hreceiver, hmutable⟩ :=
          setterTarget?_eq_some_iff.mp hread
        obtain rfl : name = "set_" ++ property := hname
        obtain rfl := (outputType?_eq_none_iff hresult).mp houtput
        replace heq : inputsOf inputs = [receiver, value] := heq
        have hform : IsReceiver receiver :=
          isReceiver_of_mem hinputs (heq ▸ List.mem_cons_self) hreceiver
        exact ⟨_, _, _, _, _, _, receiver, value, rfl, heq, isMutable_of_marks hform hmutable⟩
    · cases hread
  · rintro ⟨attributes, qualifiers, keyword, generics, inputs, predicates, receiver, value, rfl, hinputs,
      hmutable⟩
    refine Option.bind_eq_some_iff.mpr ⟨_, method?_abstractMethod, ?_⟩
    exact setterTarget?_eq_some_iff.mpr ⟨rfl, (outputType?_eq_none_iff (Or.inl rfl)).mpr rfl, receiver,
      value, hinputs, marks_of_isMutable hmutable⟩

end Declaration

/-! ### Traits -/

theorem Property.name_of_read {name : String} {type : Node} {attributes : List Node}
    {mutable : Bool} {property : Property} (hread : read name type attributes mutable = .ok property) :
    property.name = name ∧ property.type = type ∧ property.mutable = mutable := by
  obtain ⟨column, references, -, -, rfl⟩ := read_eq_ok_iff.mp hread
  exact ⟨rfl, rfl, rfl⟩

theorem join_eq_none_iff {errors : List Marker.ArgumentError} :
    Marker.ArgumentError.join errors = none ↔ errors = [] := by
  rcases errors with _ | ⟨first, _ | ⟨second, rest⟩⟩
  · exact ⟨fun _ => rfl, fun _ => rfl⟩
  · exact ⟨nofun, nofun⟩
  · exact ⟨nofun, nofun⟩

/-- Properties are collected if each of them was read. -/
theorem Property.eq_map_of_collect {results : List (Except Marker.ArgumentError Property)}
    {properties : List Property} (hcollect : collect results = .ok properties) :
    results = properties.map .ok := by
  unfold collect at hcollect
  dsimp only at hcollect
  split at hcollect
  · cases hcollect
  · next hjoin =>
      cases hcollect
      have hnone := List.filterMap_eq_nil_iff.mp (join_eq_none_iff.mp hjoin)
      clear hjoin
      induction results with
      | nil => rfl
      | cons result rest ih =>
          have hrest := ih fun other hmem => hnone other (List.mem_cons_of_mem _ hmem)
          cases result with
          | error error => cases hnone _ List.mem_cons_self
          | ok property =>
              rw [List.filterMap_cons_some (show (Except.ok property : Except Marker.ArgumentError
                Property).toOption = some property from rfl), List.map_cons, ← hrest]

theorem Property.collect_map_ok (properties : List Property) :
    collect (properties.map .ok) = .ok properties := by
  unfold collect
  dsimp only
  rw [join_eq_none_iff.mpr (List.filterMap_eq_nil_iff.mpr fun result hmem => ?_)]
  · rw [List.filterMap_map]
    exact congrArg Except.ok List.filterMap_some
  · obtain ⟨property, -, rfl⟩ := List.mem_map.mp hmem
    rfl

/-- The properties that are read from members are those of the getters. -/
theorem gettersOf_of_filterMap {members : List Node} {targets : List String}
    {properties : List Property} (hmembers : All IsTraitMember members)
    (hread : members.filterMap (Declaration.getterOf? targets) = properties.map .ok) :
    GettersOf members properties ∧
      ∀ property ∈ properties, property.mutable = targets.contains property.name := by
  induction members generalizing properties with
  | nil =>
      obtain rfl := List.map_eq_nil_iff.mp hread.symm
      exact ⟨.nil, fun _ hmem => nomatch hmem⟩
  | cons member rest ih =>
      have hrest : All IsTraitMember rest := fun other hmem => hmembers other (List.mem_cons_of_mem _ hmem)
      have hmember := hmembers member List.mem_cons_self
      cases hgetter : Declaration.getterOf? targets member with
      | none =>
          rw [List.filterMap_cons_none hgetter] at hread
          obtain ⟨hgetters, hmutable⟩ := ih hrest hread
          refine ⟨.other (fun name type attributes hown => ?_) hgetters, hmutable⟩
          have hsome : Declaration.getterOf? targets member = some _ :=
            (Declaration.getterOf?_eq_some_iff hmember).mpr ⟨name, type, attributes, hown, rfl⟩
          rw [hgetter] at hsome
          cases hsome
      | some read =>
          rw [List.filterMap_cons_some hgetter] at hread
          obtain ⟨property, others, rfl, rfl, hothers⟩ := List.map_eq_cons_iff.mp hread.symm
          obtain ⟨hgetters, hmutable⟩ := ih hrest hothers.symm
          obtain ⟨name, type, attributes, hown, hok⟩ :=
            (Declaration.getterOf?_eq_some_iff hmember).mp hgetter
          obtain ⟨rfl, rfl, hcan⟩ := Property.name_of_read hok.symm
          refine ⟨.getter hown (hcan ▸ hok.symm) hgetters, fun other hmem => ?_⟩
          rcases List.mem_cons.mp hmem with rfl | hmem
          · exact hcan
          · exact hmutable other hmem

/-- A member that is read as a setter is one by its name. -/
theorem mem_setters_iff {members : List Node} (hmembers : All IsTraitMember members)
    {property : String} : property ∈ members.filterMap Declaration.setterOf? ↔
      ∃ member ∈ members, IsSetter member ("set_" ++ property) := by
  rw [List.mem_filterMap]
  constructor
  · rintro ⟨member, hmem, hsetter⟩
    exact ⟨member, hmem, (Declaration.setterOf?_eq_some_iff (hmembers member hmem)).mp hsetter⟩
  · rintro ⟨member, hmem, hsetter⟩
    exact ⟨member, hmem, (Declaration.setterOf?_eq_some_iff (hmembers member hmem)).mpr hsetter⟩

theorem isWord_of_isSetter {member : Node} {name : String} (hmember : wellFormed member = true)
    (hsetter : IsSetter member name) : isWord name = true := by
  obtain ⟨_, _, _, _, _, _, _, _, rfl, -, -⟩ := hsetter
  simp only [abstractMethod, wellFormed, wellFormedAll, Bool.and_eq_true] at hmember
  obtain ⟨-, -, ⟨-, -, -, hname, -⟩, -⟩ := hmember
  exact hname

/-- Behind a front that starts no raw identifier, no raw identifier continues a word. -/
theorem isRaw_of_isWord_append {name : String} (hword : isWord ("set_" ++ name) = true) :
    isRaw name = false := by
  have hplain : isRaw ("set_" ++ name) = false := by
    rw [isRaw, String.toList_append]
    rfl
  rw [isWord, withoutRaw, if_neg (by simp [hplain]), isIdentifier, String.toList_append] at hword
  have hall := List.all_eq_true.mp (all_of_isIdentifierChars hword)
  rw [Bool.eq_false_iff, isRaw, Ne, List.isPrefixOf_iff_prefix]
  rintro ⟨rest, hname⟩
  have hmark := hall '#' (by rw [← hname]; simp)
  exact absurd hmark (by decide)

/-- An item that is a trait with a name, supertraits and a body. -/
def IsTraitWith (item : Node) (name : String) (supertraits body : Node) : Prop :=
  ∃ attributes visibility qualifiers keyword generics predicates,
    item = .phrase .traitItem [attributes, visibility, qualifiers, keyword, .leaf (.ident name),
      generics, supertraits, predicates, body]

theorem members_of_isTraitWith {item supertraits body : Node} {name : String}
    (htrait : IsTraitWith item name supertraits body) (hitem : IsItem item) :
    All IsTraitMember body.parts := by
  obtain ⟨_, _, _, _, _, _, rfl⟩ := htrait
  cases hitem with
  | traitItem _ _ _ _ _ _ _ _ hmembers => exact hmembers
  | other _ hkind => exact absurd rfl hkind.2.1

theorem properties_of_ofTrait {module name : String} {attributes : List Node}
    {supertraits body : Node} {declaration : Declaration}
    (hread : Declaration.ofTrait module name attributes supertraits body = .ok declaration) :
    Declaration.methodProperties (body.parts.filterMap Declaration.method?) =
      .ok declaration.properties := by
  obtain ⟨properties, hproperties, hread⟩ := Declaration.ofTrait_eq_ok_iff.mp hread
  obtain ⟨table, -, rfl⟩ := Declaration.ofShape_eq_ok_iff.mp hread
  exact hproperties

/-- **The properties of an interface.** The properties of a trait in a text are those of its
getters, in declaration order. A property may be set exactly if its name is not raw and the trait
has a setter with the name that the generated setter has. -/
theorem interface_properties {text module name : String} {file supertraits body : Node}
    {placed : PlacedItem} {declaration : Declaration} (hfile : parseFile? text = some file)
    (hplaced : placed ∈ placeItems module (file.parts.drop 1))
    (htrait : IsTraitWith placed.item name supertraits body)
    (hread : Declaration.ofTrait placed.module name placed.item.attributes supertraits body =
      .ok declaration) :
    GettersOf body.parts declaration.properties ∧
      ∀ property ∈ declaration.properties, ∀ setter : Generated.Setter,
        setter.property = property.name → (property.mutable = true ↔
          isRaw property.name = false ∧ ∃ member ∈ body.parts, IsSetter member setter.method) := by
  have hmembers := members_of_isTraitWith htrait
    (isItem_of_mem_placeItems (isFile_of_parseFile? hfile).items hplaced)
  have hwell : wellFormed placed.item = true := by
    refine wellFormed_of_mem_placeItems (wellFormedAll_subset (List.drop_subset 1 _) ?_) hplaced
    exact wellFormedAll_parts (wellFormed_of_parseFile? hfile)
  have hproperties := properties_of_ofTrait hread
  rw [Declaration.methodProperties_eq] at hproperties
  obtain ⟨hgetters, hmutable⟩ :=
    gettersOf_of_filterMap hmembers (Property.eq_map_of_collect hproperties)
  refine ⟨hgetters, fun property hmem setter hsetter => ?_⟩
  have hmethod (hplain : isRaw property.name = false) :
      setter.method = "set_" ++ property.name := by
    rw [Generated.Setter.method, hsetter, withoutRaw, if_neg (by simp [hplain])]
  rw [hmutable property hmem, List.contains_iff_mem, mem_setters_iff hmembers]
  constructor
  · rintro ⟨member, hmember, hown⟩
    have hbody : wellFormed body = true := by
      obtain ⟨_, _, _, _, _, _, heq⟩ := htrait
      rw [heq] at hwell
      exact wellFormed_of_mem (wellFormedAll_parts hwell) (by simp [Node.parts])
    have hword := isWord_of_isSetter (wellFormed_of_mem (wellFormedAll_parts hbody) hmember) hown
    have hplain := isRaw_of_isWord_append hword
    exact ⟨hplain, member, hmember, hmethod hplain ▸ hown⟩
  · rintro ⟨hplain, member, hmember, hown⟩
    exact ⟨member, hmember, hmethod hplain ▸ hown⟩

section Instances

/-- A trait with two properties, both of which have a setter. -/
def noteText : String :=
  "trait Note: Entity \x7b fn kind(&self) -> i32; fn set_kind(&mut self, kind: i32); " ++
    "fn r#type(&self) -> i32; fn set_type(mut self, value: i32); \x7d"

/-- The body of the trait that a text consists of, and what the trait is declared as. -/
def declaredTrait? (text : String) : Option (Node × Declaration) := do
  let file ← parseFile? text
  match file.parts.drop 1 with
  | [.phrase .traitItem [attributes, visibility, qualifiers, keyword, .leaf (.ident name), generics,
      supertraits, predicates, body]] =>
    let item := Node.phrase .traitItem [attributes, visibility, qualifiers, keyword,
      .leaf (.ident name), generics, supertraits, predicates, body]
    let declaration ← (Declaration.ofTrait "crate" name item.attributes supertraits body).toOption
    return (body, declaration)
  | _ => none

theorem exists_trait_of_declaredTrait? {text : String} {body : Node} {declaration : Declaration}
    (hdeclared : declaredTrait? text = some (body, declaration)) :
    ∃ file placed name supertraits, parseFile? text = some file ∧
      placed ∈ placeItems "crate" (file.parts.drop 1) ∧
      IsTraitWith placed.item name supertraits body ∧
      Declaration.ofTrait placed.module name placed.item.attributes supertraits body =
        .ok declaration := by
  obtain ⟨file, hfile, hdeclared⟩ := Option.bind_eq_some_iff.mp hdeclared
  split at hdeclared
  · next attributes visibility qualifiers keyword name generics supertraits predicates body heq =>
      obtain ⟨own, hown, hdeclared⟩ := Option.bind_eq_some_iff.mp hdeclared
      cases hdeclared
      refine ⟨file, ⟨"crate", _⟩, name, supertraits, hfile, ?_,
        ⟨attributes, visibility, qualifiers, keyword, generics, predicates, rfl⟩, ?_⟩
      · rw [heq, placeItems, placeItem, List.singleton_append]
        · exact List.mem_cons_self
        · rintro _ _ _ _ _ _ ⟨⟩
      · cases hread : Declaration.ofTrait "crate" name (Node.phrase .traitItem [attributes,
            visibility, qualifiers, keyword, .leaf (.ident name), generics, supertraits, predicates,
            body]).attributes supertraits body with
        | error error =>
            rw [hread] at hown
            cases hown
        | ok read =>
            rw [hread] at hown
            exact congrArg Except.ok (Option.some.inj hown)
  · cases hdeclared

/-- What the properties of a trait are named and whether they may be set, and the properties that
have a setter. -/
def propertiesOfText? (text : String) : Option (List (String × Bool) × List String) :=
  (declaredTrait? text).map fun (body, declaration) =>
    (declaration.properties.map fun property => (property.name, property.mutable),
      body.parts.filterMap Declaration.setterOf?)

theorem exists_trait_note : ∃ body declaration, declaredTrait? noteText = some (body, declaration) ∧
    declaration.properties.map (fun property => (property.name, property.mutable)) =
      [("kind", true), ("r#type", false)] ∧
    body.parts.filterMap Declaration.setterOf? = ["kind", "type"] := by
  have hproperties : propertiesOfText? noteText =
      some ([("kind", true), ("r#type", false)], ["kind", "type"]) := by
    decide +kernel
  obtain ⟨⟨body, declaration⟩, hdeclared, hproperties⟩ := Option.map_eq_some_iff.mp hproperties
  exact ⟨body, declaration, hdeclared, Prod.mk.inj hproperties⟩

/-- The kind of a note may be set, and the trait has the setter that the record will have. -/
theorem interface_properties_note : ∃ file placed name supertraits body declaration member,
    parseFile? noteText = some file ∧ placed ∈ placeItems "crate" (file.parts.drop 1) ∧
      IsTraitWith placed.item name supertraits body ∧
      Declaration.ofTrait placed.module name placed.item.attributes supertraits body =
        .ok declaration ∧
      GettersOf body.parts declaration.properties ∧
      declaration.properties.map (·.name) = ["kind", "r#type"] ∧
      member ∈ body.parts ∧ IsSetter member "set_kind" := by
  obtain ⟨body, declaration, hdeclared, hproperties, -⟩ := exists_trait_note
  obtain ⟨file, placed, name, supertraits, hfile, hplaced, htrait, hread⟩ :=
    exists_trait_of_declaredTrait? hdeclared
  obtain ⟨hgetters, hmutable⟩ := interface_properties hfile hplaced htrait hread
  have hkind : ("kind", true) ∈ declaration.properties.map fun property =>
      (property.name, property.mutable) := by
    rw [hproperties]
    decide
  obtain ⟨kind, hmem, heq⟩ := List.mem_map.mp hkind
  obtain ⟨hname, hcan⟩ := Prod.mk.inj heq
  obtain ⟨-, member, hmember, hsetter⟩ := (hmutable kind hmem ⟨kind.name, kind.type⟩ rfl).mp hcan
  have hnames : declaration.properties.map (·.name) = ["kind", "r#type"] := by
    have hfirst := congrArg (List.map Prod.fst) hproperties
    rwa [List.map_map] at hfirst
  have hword : "set_" ++ withoutRaw "kind" = "set_kind" := by decide
  have hmethod : Generated.Setter.method ⟨kind.name, kind.type⟩ = "set_kind" := by
    rw [Generated.Setter.method, hname]
    exact hword
  exact ⟨file, placed, name, supertraits, body, declaration, member, hfile, hplaced, htrait, hread,
    hgetters, hnames, hmember, hmethod ▸ hsetter⟩

/-- The property of a note with a raw name may not be set, although the trait has the setter that
its record will have. -/
theorem interface_rawProperty : ∃ file placed name supertraits body declaration property member,
    parseFile? noteText = some file ∧ placed ∈ placeItems "crate" (file.parts.drop 1) ∧
      IsTraitWith placed.item name supertraits body ∧
      Declaration.ofTrait placed.module name placed.item.attributes supertraits body =
        .ok declaration ∧
      property ∈ declaration.properties ∧ property.name = "r#type" ∧ property.mutable = false ∧
      member ∈ body.parts ∧
      IsSetter member (Generated.Setter.method ⟨property.name, property.type⟩) := by
  obtain ⟨body, declaration, hdeclared, hproperties, hsetters⟩ := exists_trait_note
  obtain ⟨file, placed, name, supertraits, hfile, hplaced, htrait, hread⟩ :=
    exists_trait_of_declaredTrait? hdeclared
  have hmembers := members_of_isTraitWith htrait
    (isItem_of_mem_placeItems (isFile_of_parseFile? hfile).items hplaced)
  have htype : "type" ∈ body.parts.filterMap Declaration.setterOf? := by
    rw [hsetters]
    decide
  obtain ⟨member, hmember, hsetter⟩ := (mem_setters_iff hmembers).mp htype
  have hraw : ("r#type", false) ∈ declaration.properties.map fun property =>
      (property.name, property.mutable) := by
    rw [hproperties]
    decide
  obtain ⟨property, hmem, heq⟩ := List.mem_map.mp hraw
  obtain ⟨hname, hcannot⟩ := Prod.mk.inj heq
  have hword : "set_" ++ withoutRaw "r#type" = "set_" ++ "type" := by decide
  have hmethod : Generated.Setter.method ⟨property.name, property.type⟩ = "set_" ++ "type" := by
    rw [Generated.Setter.method, hname]
    exact hword
  exact ⟨file, placed, name, supertraits, body, declaration, property, member, hfile, hplaced, htrait,
    hread, hmem, hname, hcannot, hmember, hmethod ▸ hsetter⟩

end Instances

end EntityTables
