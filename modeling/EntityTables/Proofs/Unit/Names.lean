import EntityTables.Proofs.Syntax.Items
import EntityTables.Proofs.Unit.Contents

/-!
# What declarations are read from

Every declaration of a unit is read from an item of some text: the items of a file are parts of a
well-formed tree, wherever modules place them. What an item declares has the name of the item, which
is a word, and its properties are read with their types and markers.
-/

namespace EntityTables

open EntityTables.Syntax

/-! ### The items of a file -/

/-- The items of a file are well-formed wherever modules place them. -/
theorem wellFormed_of_mem_placeItems {placed : PlacedItem} {module : String} {items : List Node}
    (hitems : wellFormedAll items = true) (hmem : placed ∈ placeItems module items) :
    wellFormed placed.item = true := by
  refine placeItems.induct
    (fun module item => wellFormed item = true → placed ∈ placeItem module item →
      wellFormed placed.item = true)
    (fun module items => wellFormedAll items = true → placed ∈ placeItems module items →
      wellFormed placed.item = true) ?_ ?_ ?_ ?_ module items hitems hmem
  · intro module attributes visibility qualifiers keyword name items ih hitem hmem
    unfold placeItem at hmem
    rcases List.mem_cons.mp hmem with rfl | hmem
    · exact hitem
    · have hparts := wellFormedAll_parts hitem
      rw [wellFormedAll_eq_all, List.all_eq_true] at hparts
      exact ih (hparts (.group .brace items) (by simp [Node.parts])) hmem
  · intro module item hnot hitem hmem
    unfold placeItem at hmem
    split at hmem
    · exact absurd rfl (hnot _ _ _ _ _ _)
    · rw [List.mem_singleton.mp hmem]
      exact hitem
  · intro module _ hmem
    rw [placeItems] at hmem
    cases hmem
  · intro module item rest hitem hrest hitems hmem
    rw [wellFormedAll, Bool.and_eq_true] at hitems
    rw [placeItems] at hmem
    rcases List.mem_append.mp hmem with hmem | hmem
    · exact hitem hitems.1 hmem
    · exact hrest hitems.2 hmem

/-! ### What an item declares -/

namespace Property

variable {property : Property}

/-- A property that was read from the parts of a field or getter. -/
def IsRead (property : Property) : Prop :=
  ∃ name type attributes mutable, read name type attributes mutable = .ok property

theorem read_eq_ok_iff {name : String} {type : Node} {attributes : List Node} {mutable : Bool} :
    read name type attributes mutable = .ok property ↔ ∃ column references,
      Marker.Column.find? attributes = .ok column ∧
      Marker.Reference.find? attributes = .ok references ∧
      property = ⟨name, type, column, Node.anyMarker "primary_key" attributes, references, mutable,
        !isPhantom type⟩ := by
  unfold read
  simp only [bind_eq_ok_iff, pure_eq_ok_iff, exists_and_left]

/-- A property that was read is backed unless its type is that of a marker without a value. -/
theorem IsRead.backed_eq (hread : property.IsRead) :
    property.backed = !isPhantom property.type := by
  obtain ⟨name, type, attributes, mutable, hread⟩ := hread
  obtain ⟨column, references, -, -, rfl⟩ := read_eq_ok_iff.mp hread
  rfl

theorem mem_of_collect {results : List (Except Marker.ArgumentError Property)}
    {properties : List Property} (hcollect : collect results = .ok properties)
    (hmem : property ∈ properties) : .ok property ∈ results := by
  unfold collect at hcollect
  dsimp only at hcollect
  split at hcollect
  · cases hcollect
  · cases hcollect
    obtain ⟨result, hresult, hproperty⟩ := List.mem_filterMap.mp hmem
    cases result with
    | error error => cases hproperty
    | ok own =>
        cases hproperty
        exact hresult

end Property

namespace Declaration

variable {module name : String} {attributes : List Node} {declaration : Declaration} {item : Node}

/-- A declaration that was read from an item: it has the name of the item, and its properties were
read from parts of it. -/
structure ReadFrom (item : Node) (declaration : Declaration) : Prop where
  name : .leaf (.ident declaration.name) ∈ item.parts
  properties : ∀ property ∈ declaration.properties, property.IsRead

theorem ofShape_eq_ok_iff {shape : Shape} : ofShape module name attributes shape = .ok declaration ↔
    ∃ table, Marker.Table.find? attributes = .ok table ∧
      declaration = ⟨.within module name, name, table, shape⟩ := by
  rw [ofShape, bind_eq_ok_iff]
  exact exists_congr fun table => and_congr_right fun _ => pure_eq_ok_iff

theorem ofStruct_eq_ok_iff {body : List Node} :
    ofStruct module name attributes body = .ok declaration ↔ ∃ shape, structShape body = .ok shape ∧
      ofShape module name attributes shape = .ok declaration :=
  bind_eq_ok_iff

theorem ofTrait_eq_ok_iff {supertraits body : Node} :
    ofTrait module name attributes supertraits body = .ok declaration ↔ ∃ properties,
      methodProperties (body.parts.filterMap method?) = .ok properties ∧
        ofShape module name attributes (.interface (extendsEntity supertraits) properties) =
          .ok declaration :=
  bind_eq_ok_iff

theorem structShape_named_eq_ok_iff {predicates : Node} {fields : List Node} {shape : Shape} :
    structShape [predicates, .group .brace fields] = .ok shape ↔
      ∃ properties, Property.collect (fields.filterMap fieldProperty?) = .ok properties ∧
        shape = .struct false properties := by
  rw [structShape, bind_eq_ok_iff]
  exact exists_congr fun properties => and_congr_right fun _ => pure_eq_ok_iff

theorem structShape_unnamed (fields : List Node) (predicates closing : Node) :
    structShape [.group .paren fields, predicates, closing] =
      .ok (.other .tupleStruct) := by
  unfold structShape
  split
  · next heq => cases heq
  · rfl
  · next hother => exact absurd rfl (hother _ _ _)

theorem isRead_of_fieldProperty? {field : Node} {property : Property}
    (hread : fieldProperty? field = some (.ok property)) : property.IsRead := by
  unfold fieldProperty? at hread
  split at hread
  · exact ⟨_, _, _, _, Option.some.inj hread⟩
  · cases hread

theorem ReadFrom.ofStruct {rest : List Node} (hname : .leaf (.ident name) ∈ item.parts)
    (hread : ofStruct module name attributes rest = .ok declaration) :
    declaration.ReadFrom item := by
  obtain ⟨shape, hshape, hread⟩ := ofStruct_eq_ok_iff.mp hread
  obtain ⟨table, -, rfl⟩ := ofShape_eq_ok_iff.mp hread
  refine ⟨hname, fun property hmem => ?_⟩
  unfold structShape at hshape
  split at hshape
  · obtain ⟨properties, hcollect, hpure⟩ := bind_eq_ok_iff.mp hshape
    cases hpure
    obtain ⟨field, -, hfield⟩ := List.mem_filterMap.mp (Property.mem_of_collect hcollect hmem)
    exact isRead_of_fieldProperty? hfield
  · cases hshape
    cases hmem
  · cases hshape
    cases hmem

theorem isRead_of_methodProperties {methods : List Method} {properties : List Property}
    (hread : methodProperties methods = .ok properties) :
    ∀ property ∈ properties, property.IsRead := by
  intro property hmem
  obtain ⟨method, -, hmethod⟩ := List.mem_filterMap.mp (Property.mem_of_collect hread hmem)
  obtain ⟨type, -, hproperty⟩ := Option.map_eq_some_iff.mp hmethod
  exact ⟨_, _, _, _, hproperty⟩

theorem ReadFrom.ofTrait {supertraits body : Node} (hname : .leaf (.ident name) ∈ item.parts)
    (hread : ofTrait module name attributes supertraits body = .ok declaration) :
    declaration.ReadFrom item := by
  obtain ⟨properties, hproperties, hread⟩ := ofTrait_eq_ok_iff.mp hread
  obtain ⟨table, -, rfl⟩ := ofShape_eq_ok_iff.mp hread
  exact ⟨hname, isRead_of_methodProperties hproperties⟩

theorem ReadFrom.other {kind : ItemKind} (hname : .leaf (.ident name) ∈ item.parts)
    (hread : ofShape module name attributes (.other kind) = .ok declaration) :
    declaration.ReadFrom item := by
  obtain ⟨table, -, rfl⟩ := ofShape_eq_ok_iff.mp hread
  exact ⟨hname, fun _ hmem => nomatch hmem⟩

end Declaration

namespace SourceUnit

variable {unit added result : SourceUnit} {placed : PlacedItem} {name : String} {item : Node}

/-- All declarations of a unit were read from well-formed items. -/
def OfItems (unit : SourceUnit) : Prop :=
  ∀ declaration ∈ unit.declarations, ∃ item, wellFormed item = true ∧ declaration.ReadFrom item

theorem OfItems.insert {declaration : Declaration} (hunit : unit.OfItems)
    (hwell : wellFormed item = true) (hread : declaration.ReadFrom item) :
    (unit.insert declaration).OfItems := by
  unfold SourceUnit.insert
  split
  · exact hunit
  · intro other hmem
    rcases List.mem_append.mp hmem with hmem | hmem
    · exact hunit other hmem
    · rw [List.mem_singleton.mp hmem]
      exact ⟨item, hwell, hread⟩

theorem OfItems.addRead {read : Except Marker.ArgumentError Declaration} (hunit : unit.OfItems)
    (hwell : wellFormed item = true)
    (hread : ∀ declaration, read = .ok declaration → declaration.ReadFrom item)
    (hok : unit.addRead read = .ok result) : result.OfItems := by
  cases read with
  | error error => cases hok
  | ok declaration =>
      cases hok
      exact hunit.insert hwell (hread declaration rfl)

theorem OfItems.addStruct {module : String} {attributes rest : List Node}
    (hunit : unit.OfItems) (hwell : wellFormed item = true)
    (hname : .leaf (.ident name) ∈ item.parts)
    (hok : unit.addStruct module name attributes rest = .ok result) : result.OfItems := by
  obtain ⟨declaration, hread, ⟨-, configured, hconfig, rfl⟩ | ⟨-, rfl⟩⟩ :=
    addStruct_eq_ok_iff.mp hok
  · obtain ⟨-, -, marker, -, rfl⟩ := setConfig_eq_ok_iff.mp hconfig
    exact @OfItems.insert { unit with config := _ } item declaration hunit hwell
      (.ofStruct hname hread)
  · exact hunit.insert hwell (.ofStruct hname hread)

theorem OfItems.addOther {module : String} {attributes : List Node} {kind : ItemKind}
    (hunit : unit.OfItems) (hwell : wellFormed item = true)
    (hname : .leaf (.ident name) ∈ item.parts)
    (hok : unit.addOther module name attributes kind = .ok result) : result.OfItems :=
  hunit.addRead hwell (fun _ hread => .other hname hread) hok

theorem declarations_addImpl (unit : SourceUnit) (module : String) (implFor : List Node)
    (selfType : Node) (members : List Node) :
    (unit.addImpl module implFor selfType members).declarations = unit.declarations := by
  unfold addImpl
  split
  · split <;> rfl
  · split
    · dsimp only
      split
      · rfl
      · split <;> rfl
    · rfl

/-- What an item adds to a unit was read from the item. -/
theorem OfItems.addItem (hunit : unit.OfItems) (hwell : wellFormed placed.item = true)
    (hok : unit.addItem placed = .ok result) : result.OfItems := by
  obtain ⟨module, item⟩ := placed
  unfold SourceUnit.addItem at hok
  dsimp only at hok hwell
  split at hok
  · exact hunit.addStruct hwell (by simp [Node.parts]) hok
  · exact hunit.addRead hwell (fun _ hread => .ofTrait (by simp [Node.parts]) hread) hok
  · exact hunit.addOther hwell (by simp [Node.parts]) hok
  · exact hunit.addOther hwell (by simp [Node.parts]) hok
  · exact hunit.addOther hwell (by simp [Node.parts]) hok
  · exact hunit.addOther hwell (by simp [Node.parts]) hok
  · exact hunit.addOther hwell (by simp [Node.parts]) hok
  · split at hok
    · cases hok
      unfold OfItems
      rw [declarations_addImpl]
      exact hunit
    · cases hok
      exact hunit
  · cases hok
    exact hunit

theorem OfItems.addItems {items : List PlacedItem} (hunit : unit.OfItems)
    (hwell : ∀ placed ∈ items, wellFormed placed.item = true)
    (hok : unit.addItems items = (result, none)) : result.OfItems := by
  induction items generalizing unit with
  | nil =>
      cases hok
      exact hunit
  | cons placed rest ih =>
      obtain ⟨next, hnext, hrest⟩ := addItems_cons.mp hok
      refine ih (hunit.addItem (hwell placed List.mem_cons_self) hnext) ?_ hrest
      exact fun other hmem => hwell other (List.mem_cons_of_mem _ hmem)

/-! ### Whole texts -/

theorem exists_file_of_addText {module text : String}
    (hok : unit.addText module text = (result, none)) : ∃ file, parseFile? text = some file ∧
      unit.addItems (placeItems module (file.parts.drop 1)) = (result, none) := by
  delta SourceUnit.addText at hok
  cases hfile : parseFile? text with
  | none =>
      rw [hfile] at hok
      cases hok
  | some file =>
      rw [hfile] at hok
      exact ⟨file, rfl, hok⟩

theorem OfItems.addText {module text : String} (hunit : unit.OfItems)
    (hok : unit.addText module text = (result, none)) : result.OfItems := by
  obtain ⟨file, hfile, hok⟩ := exists_file_of_addText hok
  refine hunit.addItems (fun placed hmem => ?_) hok
  refine wellFormed_of_mem_placeItems (wellFormedAll_subset (List.drop_subset 1 _) ?_) hmem
  exact wellFormedAll_parts (wellFormed_of_parseFile? hfile)

theorem addTexts_cons {text : String × String} {rest : List (String × String)} :
    unit.addTexts (text :: rest) = .ok result ↔
      ∃ next, unit.addText text.1 text.2 = (next, none) ∧ next.addTexts rest = .ok result := by
  obtain ⟨module, contents⟩ := text
  rw [addTexts]
  dsimp only
  obtain ⟨next, error⟩ := unit.addText module contents
  cases error with
  | none => simp
  | some error => simp

/-- In a unit that is made of texts every declaration was read from an item of a text. -/
theorem OfItems.addTexts {texts : List (String × String)} (hunit : unit.OfItems)
    (hok : unit.addTexts texts = .ok result) : result.OfItems := by
  induction texts generalizing unit with
  | nil =>
      cases hok
      exact hunit
  | cons first rest ih =>
      obtain ⟨next, hnext, hrest⟩ := addTexts_cons.mp hok
      exact ih (hunit.addText hnext) hrest

theorem DistinctKeys.addTexts {texts : List (String × String)} (hunit : unit.DistinctKeys)
    (hok : unit.addTexts texts = .ok result) : result.DistinctKeys := by
  induction texts generalizing unit with
  | nil =>
      cases hok
      exact hunit
  | cons first rest ih =>
      obtain ⟨next, hnext, hrest⟩ := addTexts_cons.mp hok
      obtain ⟨file, -, hnext⟩ := exists_file_of_addText hnext
      exact ih (hunit.addItems hnext) hrest

theorem ofItems_empty : empty.OfItems := fun _ hmem => absurd hmem List.not_mem_nil

/-- A unit that is made of texts has one declaration of a key. -/
theorem distinctKeys_of_addTexts {texts : List (String × String)}
    (hok : empty.addTexts texts = .ok unit) : unit.DistinctKeys :=
  DistinctKeys.addTexts (by simp [DistinctKeys, empty]) hok

/-- **Names of a unit.** In a unit that is made of texts every declaration is named by a word. -/
theorem isWord_name_of_addTexts {texts : List (String × String)}
    (hok : empty.addTexts texts = .ok unit) {declaration : Declaration}
    (hmem : declaration ∈ unit.declarations) : isWord declaration.name = true := by
  obtain ⟨item, hwell, hread⟩ := ofItems_empty.addTexts hok declaration hmem
  exact wellFormed_of_mem (wellFormedAll_parts hwell) hread.name

/-- In a unit that is made of texts the properties without a value are those of a marker type. -/
theorem backed_eq_of_addTexts {texts : List (String × String)}
    (hok : empty.addTexts texts = .ok unit) {declaration : Declaration}
    (hmem : declaration ∈ unit.declarations) {property : Property}
    (hproperty : property ∈ declaration.properties) :
    property.backed = !Property.isPhantom property.type := by
  obtain ⟨item, -, hread⟩ := ofItems_empty.addTexts hok declaration hmem
  exact (hread.properties property hproperty).backed_eq

end SourceUnit

end EntityTables
