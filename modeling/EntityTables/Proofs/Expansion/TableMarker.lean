import EntityTables.Proofs.Expansion.Stripping

/-!
# The marker of a table

The marker of a table accepts an item if the declaration that the item makes with the marker on it
passes its check. What is left of an accepted item is accepted again: it makes a declaration of the
same shape, whose properties are read without markers and so without errors.
-/

namespace EntityTables

open EntityTables.Syntax

namespace SourceUnit

variable {unit : SourceUnit} {declaration : Declaration} {module name : String}
  {attributes body : List Node}

theorem tables_insert_of_nil (hnil : unit.declarations = []) (declaration : Declaration) :
    (unit.insert declaration).tables = [declaration].filter (·.isTable) := by
  have hfree : unit.get? declaration.key = none := by rw [get?, hnil, List.find?_nil]
  rw [tables, declarations_insert, hfree]
  simp [hnil]

theorem tables_insert_of_isTable (htable : declaration.isTable = true) :
    (empty.insert declaration).tables = [declaration] :=
  (tables_insert_of_nil rfl declaration).trans (List.filter_cons_of_pos htable)

theorem exists_of_addRead {read : Except Marker.ArgumentError Declaration}
    (hok : empty.addRead read = .ok unit) :
    ∃ declaration, read = .ok declaration ∧ unit = empty.insert declaration := by
  cases read with
  | error error => cases hok
  | ok declaration => exact ⟨declaration, rfl, (Except.ok.inj hok).symm⟩

/-- A struct makes one declaration; only without fields it may carry the configuration. -/
theorem exists_of_addStruct (hok : empty.addStruct module name attributes body = .ok unit) :
    ∃ declaration, Declaration.ofStruct module name attributes body = .ok declaration ∧
      unit.tables = [declaration].filter (·.isTable) ∧
      (Node.anyMarker "tablegen_config" attributes = true → declaration.kind = .unitStruct) := by
  obtain ⟨declaration, hread, ⟨-, configured, hset, rfl⟩ | ⟨hplain, rfl⟩⟩ :=
    addStruct_eq_ok_iff.mp hok
  · obtain ⟨hkind, -, marker, -, rfl⟩ := setConfig_eq_ok_iff.mp hset
    exact ⟨declaration, hread, tables_insert_of_nil rfl declaration, fun _ => hkind⟩
  · exact ⟨declaration, hread, tables_insert_of_nil rfl declaration, fun h => nomatch hplain ▸ h⟩

theorem addStruct_of_unmarked (hread : Declaration.ofStruct module name attributes body =
    .ok declaration) (hplain : Node.anyMarker "tablegen_config" attributes = false) :
    empty.addStruct module name attributes body = .ok (empty.insert declaration) :=
  addStruct_eq_ok_iff.mpr ⟨declaration, hread, .inr ⟨hplain, rfl⟩⟩

end SourceUnit

namespace Expansion

section Accepting

variable {marker : ExpandingMarker} {arguments item : List Node} {tree output : Node}

/-- The unit in which an item is checked depends on the tree of the item alone. -/
theorem unitOf_of_itemOf? {kind : Kind} {attributes rest : List Node}
    (hread : itemOf? item = some (.phrase kind (.phrase .attributes attributes :: rest)))
    (hkind : kind ≠ .modItem ∧ kind ≠ .verbatim) :
    unitOf marker arguments item = (SourceUnit.empty.addItem ⟨"crate",
      .phrase kind (.phrase .attributes (markerNode marker arguments :: attributes) :: rest)⟩).mapError
        .refused := by
  obtain ⟨marked, hfile, hmarked⟩ := fileOf?_markerTokens marker arguments hread
  cases hmarked with
  | written => exact absurd rfl hkind.2
  | attributed =>
      have hplaced : placeItems "crate" [Node.phrase kind
          (.phrase .attributes (markerNode marker arguments :: attributes) :: rest)] = _ :=
        placeItems_of_not_mod "crate" fun other hmem => by
          rw [List.mem_singleton.mp hmem, is_phrase]
          exact decide_eq_false hkind.1
      unfold unitOf
      rw [hfile]
      dsimp only [SourceUnit.addFile, Node.parts, List.drop]
      rw [hplaced, List.map_singleton, SourceUnit.addItems]
      cases SourceUnit.empty.addItem ⟨"crate", .phrase kind
          (.phrase .attributes (markerNode marker arguments :: attributes) :: rest)⟩ with
      | error error => rfl
      | ok unit => rfl

theorem expandTable_eq_ok_iff : expandTable arguments item tree = .ok output ↔
    (∃ unit declaration rest kind, unitOf .table arguments item = .ok unit ∧
      unit.tables = declaration :: rest ∧ Schema.checkDeclaration declaration = .ok kind) ∧
    output = stripItem tree := by
  rw [expandTable, bind_eq_ok_iff]
  constructor
  · rintro ⟨unit, hunit, hrest⟩
    cases htables : unit.tables with
    | nil =>
        simp only [htables] at hrest
        cases hrest
    | cons declaration rest =>
        cases hcheck : Schema.checkDeclaration declaration with
        | error error =>
            simp only [htables, hcheck] at hrest
            cases hrest
        | ok kind =>
            simp only [htables, hcheck] at hrest
            cases hrest
            exact ⟨⟨unit, declaration, rest, kind, hunit, htables, hcheck⟩, rfl⟩
  · rintro ⟨⟨unit, declaration, rest, kind, hunit, htables, hcheck⟩, rfl⟩
    refine ⟨unit, hunit, ?_⟩
    simp only [htables, hcheck]
    rfl

end Accepting

/-! ### Properties without markers -/

/-- A property that was read and refers to nothing. -/
def IsPlain (result : Except Marker.ArgumentError Property) : Prop :=
  ∃ property, result = .ok property ∧ property.references = none

section Properties

variable {attributes kept : List Node} {field member left : Node}
  {result : Except Marker.ArgumentError Property}

/-- Without markers a property is read without errors. -/
theorem isPlain_read (hkept : Kept attributes kept) (name : String) (type : Node) (mutable : Bool) :
    IsPlain (Property.read name type kept mutable) := by
  have hcolumn : Marker.Column.find? kept = .ok none := by
    rw [Marker.Column.find?, hkept.anyMarker_eq_false (by decide)]
    rfl
  have hreference : Marker.Reference.find? kept = .ok none := by
    rw [Marker.Reference.find?, hkept.anyMarker_eq_false (by decide)]
    rfl
  rw [Property.read, hcolumn, hreference]
  exact ⟨_, rfl, rfl⟩

theorem isPlain_of_fieldStripped (hfield : FieldStripped field left)
    (hread : Declaration.fieldProperty? left = some result) : IsPlain result := by
  unfold Declaration.fieldProperty? at hread
  split at hread
  · cases hread
    cases hfield with
    | named _ _ _ _ hkept => exact isPlain_read hkept _ _ _
  · cases hread

theorem isPlain_of_memberStripped (hmember : MemberStripped member left) {targets : List String}
    (hread : Declaration.getterOf? targets left = some result) : IsPlain result := by
  obtain ⟨method, hmethod, hread⟩ := Option.bind_eq_some_iff.mp hread
  obtain ⟨kept, attributes, hkept, hown⟩ : ∃ kept attributes, Kept attributes kept ∧
      method.attributes = kept := by
    unfold Declaration.method? at hmethod
    split at hmethod
    · obtain ⟨signature, -, rfl⟩ := Option.map_eq_some_iff.mp hmethod
      cases hmember with
      | abstract _ hkept => exact ⟨_, _, hkept, rfl⟩
      | provided _ hkept _ => exact ⟨_, _, hkept, rfl⟩
      | other hother => cases hother
    · cases hmethod
  split at hread
  · obtain ⟨type, -, rfl⟩ := Option.map_eq_some_iff.mp hread
    rw [hown]
    exact isPlain_read hkept _ _ _
  · cases hread

/-- Plain properties are collected, and none of them refers to anything. -/
theorem exists_of_collect_isPlain {results : List (Except Marker.ArgumentError Property)}
    (hplain : ∀ result ∈ results, IsPlain result) : ∃ properties,
      Property.collect results = .ok properties ∧
        ∀ property ∈ properties, property.references = none := by
  suffices hmap : ∃ properties : List Property, results = properties.map .ok ∧
      ∀ property ∈ properties, property.references = none by
    obtain ⟨properties, rfl, hnone⟩ := hmap
    exact ⟨properties, Property.collect_map_ok properties, hnone⟩
  induction results with
  | nil => exact ⟨[], rfl, fun _ hmem => absurd hmem List.not_mem_nil⟩
  | cons result rest ih =>
      obtain ⟨property, rfl, hproperty⟩ := hplain result List.mem_cons_self
      obtain ⟨properties, rfl, hrest⟩ := ih fun other hmem =>
        hplain other (List.mem_cons_of_mem _ hmem)
      exact ⟨property :: properties, rfl, List.forall_mem_cons.mpr ⟨hproperty, hrest⟩⟩

/-- Of two lists in a relation, each item on the right stands in it with some item. -/
theorem exists_of_mem_forall₂ {α : Type} {R : α → α → Prop} {items left : List α}
    (hitems : List.Forall₂ R items left) {last : α} (hmem : last ∈ left) :
    ∃ item, R item last := by
  induction hitems with
  | nil => cases hmem
  | cons hitem _ ih =>
      rcases List.mem_cons.mp hmem with rfl | hmem
      · exact ⟨_, hitem⟩
      · exact ih hmem

theorem exists_of_fieldsStripped {fields left : List Node}
    (hfields : List.Forall₂ FieldStripped fields left) : ∃ properties,
      Property.collect (left.filterMap Declaration.fieldProperty?) = .ok properties ∧
        ∀ property ∈ properties, property.references = none := by
  refine exists_of_collect_isPlain fun result hmem => ?_
  obtain ⟨field, hfield, hread⟩ := List.mem_filterMap.mp hmem
  obtain ⟨before, hstripped⟩ := exists_of_mem_forall₂ hfields hfield
  exact isPlain_of_fieldStripped hstripped hread

theorem exists_of_membersStripped {members left : List Node}
    (hmembers : List.Forall₂ MemberStripped members left) : ∃ properties,
      Declaration.methodProperties (left.filterMap Declaration.method?) = .ok properties ∧
        ∀ property ∈ properties, property.references = none := by
  rw [Declaration.methodProperties_eq]
  refine exists_of_collect_isPlain fun result hmem => ?_
  obtain ⟨member, hmember, hread⟩ := List.mem_filterMap.mp hmem
  obtain ⟨before, hstripped⟩ := exists_of_mem_forall₂ hmembers hmember
  exact isPlain_of_memberStripped hstripped hread

end Properties

/-! ### Declarations -/

section Declarations

variable {module name : String} {attributes : List Node} {declaration : Declaration}

/-- The marker in front of all attributes is the one that is read. -/
theorem find?_markerNode (arguments others : List Node) :
    Marker.Table.find? (markerNode .table arguments :: others) =
      (Marker.Table.read (markerNode .table arguments)).map some := by
  have hmarker : Node.isMarker "table" (markerNode .table arguments) = true := rfl
  rw [Marker.Table.find?, List.find?_cons_of_pos hmarker]
  rfl

/-- The kind of an interface does not depend on its properties. -/
theorem entityKind_interface {key : Key} {table : Option Marker.Table} {based : Bool}
    {properties others : List Property} {kind : Schema.EntityKind}
    (hkind : Schema.entityKind ⟨key, name, table, .interface based properties⟩ = .ok kind) :
    Schema.entityKind ⟨key, name, table, .interface based others⟩ = .ok kind := by
  cases based with
  | false => cases hkind
  | true => exact hkind

theorem checkDeclaration_of_plain {kind : Schema.EntityKind}
    (hkind : Schema.entityKind declaration = .ok kind)
    (hplain : ∀ property ∈ declaration.properties, property.references = none) :
    Schema.checkDeclaration declaration = .ok kind := by
  have hnone : declaration.properties.filter (fun property => property.references.isSome) = [] :=
    List.filter_eq_nil_iff.mpr fun property hmem => by simp [hplain property hmem]
  rw [Schema.checkDeclaration_eq, hkind, hnone]
  rfl

end Declarations

/-! ### Expanding again -/

section Again

variable {arguments item tokens : List Node} {tree output : Node}

theorem expand_table_of_itemOf? (hread : itemOf? item = some tree) :
    expand .table arguments item = expandTable arguments item tree := by
  rw [expand, hread]

/-- Tokens that read as the same item expand to the same. -/
theorem expand_table_congr {kind : Kind} {attributes rest : List Node}
    (hform : tree = .phrase kind (.phrase .attributes attributes :: rest))
    (hkind : kind ≠ .modItem ∧ kind ≠ .verbatim) (hitem : itemOf? item = some tree)
    (htokens : itemOf? tokens = some tree) :
    expand .table arguments tokens = expand .table arguments item := by
  subst hform
  rw [expand_table_of_itemOf? hitem, expand_table_of_itemOf? htokens]
  unfold expandTable
  rw [unitOf_of_itemOf? hitem hkind, unitOf_of_itemOf? htokens hkind]

/-- An item expands if the unit with the item alone has a table that passes its check. -/
theorem expand_table_eq_ok_iff {kind : Kind} {attributes rest : List Node}
    (hread : itemOf? item = some (.phrase kind (.phrase .attributes attributes :: rest)))
    (hkind : kind ≠ .modItem ∧ kind ≠ .verbatim) : expand .table arguments item = .ok output ↔
      (∃ unit declaration others own, SourceUnit.empty.addItem ⟨"crate", .phrase kind
          (.phrase .attributes (markerNode .table arguments :: attributes) :: rest)⟩ = .ok unit ∧
        unit.tables = declaration :: others ∧ Schema.checkDeclaration declaration = .ok own) ∧
      output = stripItem (.phrase kind (.phrase .attributes attributes :: rest)) := by
  rw [expand_table_of_itemOf? hread, expandTable_eq_ok_iff, unitOf_of_itemOf? hread hkind]
  simp only [mapError_eq_ok_iff]

variable {attributes : List Node} {visibility keyword generics : Node} {name : String}

/-- The only declaration of a unit, if it is a table. -/
theorem of_filter_isTable {declared declaration : Declaration} {others : List Declaration}
    (htables : [declared].filter (·.isTable) = declaration :: others) :
    declaration = declared ∧ declared.isTable = true := by
  cases htable : declared.isTable with
  | false => simp [htable] at htables
  | true =>
      rw [List.filter_cons_of_pos htable] at htables
      exact ⟨(List.cons.inj htables).1.symm, rfl⟩

/-- A struct whose fields lose their markers is accepted again. -/
theorem expand_table_fields {predicates fields left : List Node}
    (hitem : itemOf? item = some (.phrase .structItem [.phrase .attributes attributes, visibility,
      keyword, .leaf (.ident name), generics, .phrase .whereClause predicates,
      .group .brace fields]))
    (htokens : itemOf? tokens = some (.phrase .structItem [.phrase .attributes attributes,
      visibility, keyword, .leaf (.ident name), generics, .phrase .whereClause predicates,
      .group .brace left]))
    (hfields : List.Forall₂ FieldStripped fields left)
    (hok : expand .table arguments item = .ok output) : ∃ again,
      expand .table arguments tokens = .ok again := by
  obtain ⟨⟨unit, declaration, others, own, hunit, htables, -⟩, -⟩ :=
    (expand_table_eq_ok_iff hitem (by decide)).mp hok
  obtain ⟨declared, hread, hown, hconfig⟩ := SourceUnit.exists_of_addStruct hunit
  obtain ⟨-, htable⟩ := of_filter_isTable (hown.symm.trans htables)
  obtain ⟨shape, hshape, hread⟩ := Declaration.ofStruct_eq_ok_iff.mp hread
  obtain ⟨table, hfind, rfl⟩ := Declaration.ofShape_eq_ok_iff.mp hread
  obtain ⟨properties, -, rfl⟩ := Declaration.structShape_named_eq_ok_iff.mp hshape
  have hunmarked : Node.anyMarker "tablegen_config" (markerNode .table arguments :: attributes) =
      false := Bool.eq_false_iff.mpr fun hmarker => nomatch hconfig hmarker
  obtain ⟨plain, hcollect, hnone⟩ := exists_of_fieldsStripped hfields
  let again : Declaration := ⟨.within "crate" name, name, table, .struct false plain⟩
  have hagain : Declaration.ofStruct "crate" name (markerNode .table arguments :: attributes)
      [.phrase .whereClause predicates, .group .brace left] = .ok again := by
    refine Declaration.ofStruct_eq_ok_iff.mpr ⟨_, ?_, Declaration.ofShape_eq_ok_iff.mpr ⟨table, hfind, rfl⟩⟩
    exact Declaration.structShape_named_eq_ok_iff.mpr ⟨plain, hcollect, rfl⟩
  have haccepted := SourceUnit.addStruct_of_unmarked hagain hunmarked
  have hchecked : Schema.checkDeclaration again = .ok .struct := checkDeclaration_of_plain rfl hnone
  exact ⟨_, (expand_table_eq_ok_iff htokens (by decide)).mpr
    ⟨⟨_, again, [], .struct, haccepted, SourceUnit.tables_insert_of_isTable htable, hchecked⟩, rfl⟩⟩

/-- A trait whose methods lose their markers is accepted again. -/
theorem expand_table_methods {qualifiers supertraits predicates : Node} {members left : List Node}
    (hitem : itemOf? item = some (.phrase .traitItem [.phrase .attributes attributes, visibility,
      qualifiers, keyword, .leaf (.ident name), generics, supertraits, predicates,
      .group .brace members]))
    (htokens : itemOf? tokens = some (.phrase .traitItem [.phrase .attributes attributes,
      visibility, qualifiers, keyword, .leaf (.ident name), generics, supertraits, predicates,
      .group .brace left]))
    (hmembers : List.Forall₂ MemberStripped members left)
    (hok : expand .table arguments item = .ok output) : ∃ again,
      expand .table arguments tokens = .ok again := by
  obtain ⟨⟨unit, declaration, others, own, hunit, htables, hcheck⟩, -⟩ :=
    (expand_table_eq_ok_iff hitem (by decide)).mp hok
  obtain ⟨declared, hread, rfl⟩ := SourceUnit.exists_of_addRead hunit
  obtain ⟨rfl, htable⟩ :=
    of_filter_isTable ((SourceUnit.tables_insert_of_nil rfl declared).symm.trans htables)
  obtain ⟨properties, -, hread⟩ := Declaration.ofTrait_eq_ok_iff.mp hread
  obtain ⟨table, hfind, rfl⟩ := Declaration.ofShape_eq_ok_iff.mp hread
  obtain ⟨hkind, -⟩ := Schema.checkDeclaration_eq_ok hcheck
  obtain ⟨plain, hcollect, hnone⟩ := exists_of_membersStripped hmembers
  let again : Declaration := ⟨.within "crate" name, name, table,
    .interface (Declaration.extendsEntity supertraits) plain⟩
  have hagain : Declaration.ofTrait "crate" name (Node.attributes (.phrase .traitItem
      [.phrase .attributes (markerNode .table arguments :: attributes), visibility, qualifiers,
        keyword, .leaf (.ident name), generics, supertraits, predicates, .group .brace left]))
      supertraits (.group .brace left) = .ok again := by
    refine Declaration.ofTrait_eq_ok_iff.mpr ⟨plain, hcollect, Declaration.ofShape_eq_ok_iff.mpr ⟨table, ?_, rfl⟩⟩
    exact (find?_markerNode arguments _).trans ((find?_markerNode arguments _).symm.trans hfind)
  have haccepted := congrArg SourceUnit.empty.addRead hagain
  have hchecked : Schema.checkDeclaration again = .ok own :=
    checkDeclaration_of_plain (entityKind_interface hkind) hnone
  exact ⟨_, (expand_table_eq_ok_iff htokens (by decide)).mpr
    ⟨⟨_, again, [], own, haccepted, SourceUnit.tables_insert_of_isTable htable, hchecked⟩, rfl⟩⟩

end Again

/-! ### The marker of a table -/

section Main

variable {arguments item : List Node} {tree output : Node}

/-- A struct whose fields have no names is no table. -/
theorem not_expand_table_unnamed {attributes fields : List Node} {visibility keyword generics : Node}
    {name : String} {predicates : Node} (hread : itemOf? item = some (.phrase .structItem
      [.phrase .attributes attributes, visibility, keyword, .leaf (.ident name), generics,
        .group .paren fields, predicates, .punct ";"])) :
    expand .table arguments item ≠ .ok output := by
  intro hok
  obtain ⟨⟨unit, declaration, others, own, hunit, htables, hcheck⟩, -⟩ :=
    (expand_table_eq_ok_iff hread (by decide)).mp hok
  obtain ⟨declared, hdeclared, hown, -⟩ := SourceUnit.exists_of_addStruct hunit
  obtain ⟨rfl, -⟩ := of_filter_isTable (hown.symm.trans htables)
  obtain ⟨shape, hshape, hdeclared⟩ := Declaration.ofStruct_eq_ok_iff.mp hdeclared
  obtain ⟨table, -, rfl⟩ := Declaration.ofShape_eq_ok_iff.mp hdeclared
  rw [Declaration.structShape_unnamed] at hshape
  cases hshape
  obtain ⟨hkind, -⟩ := Schema.checkDeclaration_eq_ok hcheck
  cases hkind

/-- **The marker of a table strips the markers of properties.** If a struct or a trait expands, the
result is the item with exactly the markers of properties taken off its fields or its methods. All
tokens that read as the result expand to it again. -/
theorem expand_table_strips (hread : itemOf? item = some tree)
    (hkind : tree.is .structItem = true ∨ tree.is .traitItem = true)
    (hok : expand .table arguments item = .ok output) : Stripped tree output ∧
      ∀ tokens, itemOf? tokens = some output → expand .table arguments tokens = .ok output := by
  have hitem := isItem_of_itemOf? hread
  cases hitem with
  | @structItem attributes visibility keyword name generics body hname hbody =>
      obtain ⟨-, rfl⟩ := (expand_table_eq_ok_iff hread (by decide)).mp hok
      cases hbody with
      | unit predicates =>
          refine ⟨.unit .., fun tokens htokens => ?_⟩
          exact (expand_table_congr rfl (by decide) hread htokens).trans hok
      | named predicates hfields =>
          have hall := forall₂_map_right fun field hmem => fieldStripped_stripField (hfields field hmem)
          have hstripped := Stripped.struct (.phrase .attributes attributes) visibility keyword
            (.leaf (.ident name)) generics predicates hall
          refine ⟨hstripped, fun tokens htokens => ?_⟩
          obtain ⟨again, hagain⟩ := expand_table_fields hread htokens hall hok
          obtain ⟨-, rfl⟩ := (expand_table_eq_ok_iff htokens (by decide)).mp hagain
          exact hagain.trans (congrArg Except.ok hstripped.again)
      | unnamed predicates hfields => exact absurd hok (not_expand_table_unnamed hread)
  | @traitItem attributes visibility qualifiers keyword name generics supertraits predicates members
      hname hmembers =>
      obtain ⟨-, rfl⟩ := (expand_table_eq_ok_iff hread (by decide)).mp hok
      have hall := forall₂_map_right fun member hmem => memberStripped_stripMember (hmembers member hmem)
      have hstripped := Stripped.trait (.phrase .attributes attributes) visibility qualifiers keyword
        (.leaf (.ident name)) generics supertraits predicates hall
      refine ⟨hstripped, fun tokens htokens => ?_⟩
      obtain ⟨again, hagain⟩ := expand_table_methods hread htokens hall hok
      obtain ⟨-, rfl⟩ := (expand_table_eq_ok_iff htokens (by decide)).mp hagain
      exact hagain.trans (congrArg Except.ok hstripped.again)
  | modItem => rcases hkind with hkind | hkind <;> cases hkind
  | modFile => rcases hkind with hkind | hkind <;> cases hkind
  | other parts hother =>
      rw [is_phrase, is_phrase, decide_eq_true_eq, decide_eq_true_eq] at hkind
      exact absurd hkind (not_or.mpr ⟨hother.1, hother.2.1⟩)

end Main

/-- The tokens of a trait, with some attributes at a method without a body and some at the front of
the body of another one. -/
def badgeTokens (attributes inner : List Node) : List Node :=
  let method (name : String) : List Node := [.ident "fn", .ident name,
    parens [.punct "&", .ident "self"], .leaf (.punct "-" true), .punct ">", .ident "i32"]
  [.ident "trait", .ident "Badge", .punct ":", .ident "Entity",
    braces (attributes ++ method "id" ++ .punct ";" :: method "size" ++
      [braces (inner ++ [.literal "1"])])]

/-- A trait with markers of properties and with another attribute. -/
def markedBadge : List Node :=
  badgeTokens [.punct "#", brackets [.ident "primary_key"], .punct "#", brackets [.ident "must_use"]]
    [.punct "#", .punct "!", brackets [.ident "column", parens [.ident "ignore"]]]

/-- The same trait without markers of properties. -/
def plainBadge : List Node := badgeTokens [.punct "#", brackets [.ident "must_use"]] []

def badgeArguments : List Node := [.ident "schema", .punct "=", .literal "\"hr\""]

theorem expand_table_strips_badge : ∃ tree output, itemOf? markedBadge = some tree ∧
    expand .table badgeArguments markedBadge = .ok output ∧ Stripped tree output ∧
    itemOf? plainBadge = some output ∧ expand .table badgeArguments plainBadge = .ok output := by
  have hkind : (itemOf? markedBadge).map (Node.is .traitItem) = some true := by decide +kernel
  have hplain : (itemOf? plainBadge).isSome := by decide +kernel
  have hexpand : (expand .table badgeArguments markedBadge).toOption = itemOf? plainBadge := by
    decide +kernel
  obtain ⟨tree, hread, htrait⟩ := Option.map_eq_some_iff.mp hkind
  obtain ⟨output, houtput⟩ := Option.isSome_iff_exists.mp hplain
  have hok := toOption_eq_some_iff.mp (hexpand.trans houtput)
  obtain ⟨hstripped, hagain⟩ := expand_table_strips hread (Or.inr htrait) hok
  exact ⟨tree, output, hread, hok, hstripped, houtput, hagain plainBadge houtput⟩

end Expansion

end EntityTables
