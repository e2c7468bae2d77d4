import EntityTables.Proofs.Expansion.TableMarker
import EntityTables.Proofs.Unit.Additions

/-!
# What the marker of a table accepts

The marker of a table checks the first table among all declarations of its item. An item that is no
module makes one declaration at most, so what is checked is the item: a struct whose fields have
names, a struct without fields, or a trait that extends `Entity`. An inline module makes no
declaration of its own, and stands for the first table inside it.
-/

namespace EntityTables

open EntityTables.Syntax EntityTables.Schema

/-- An item that is a table, with its declaration: a struct without fields or whose fields have
names, or a trait that extends `Entity`. -/
inductive PlacedItem.MakesTable (placed : PlacedItem) (declaration : Declaration) : Prop
  | struct {attributes body : List Node} {visibility keyword generics : Node} {name : String}
      (hitem : placed.item = .phrase .structItem (.phrase .attributes attributes :: visibility ::
        keyword :: .leaf (.ident name) :: generics :: body))
      (hbody : (∃ predicates, body = [predicates, .punct ";"]) ∨
        ∃ predicates fields, body = [predicates, .group .brace fields])
      (hread : Declaration.ofStruct placed.module name attributes body = .ok declaration)
  | interface {attributes visibility qualifiers keyword generics supertraits predicates body : Node}
      {name : String} (hitem : placed.item = .phrase .traitItem [attributes, visibility, qualifiers,
        keyword, .leaf (.ident name), generics, supertraits, predicates, body])
      (hentity : Declaration.extendsEntity supertraits = true)
      (hread : Declaration.ofTrait placed.module name placed.item.attributes supertraits body =
        .ok declaration)

variable {placed : PlacedItem} {declaration : Declaration} {kind : EntityKind}

/-! ### Where a declaration comes from -/

theorem PlacedItem.mem_declarations_iff : declaration ∈ placed.declarations ↔
    ∃ added, placed.contents = .ok added ∧ declaration ∈ added.declarations := by
  unfold PlacedItem.declarations
  cases placed.contents with
  | ok contents => simp
  | error error => simp

/-- An item stands where it is placed; only what is inside a module is placed along with it. -/
theorem eq_or_isModule_of_mem_placeItem {module : String} {item : Node}
    (hmem : placed ∈ placeItem module item) : placed = ⟨module, item⟩ ∨ item.is .modItem = true := by
  unfold placeItem at hmem
  split at hmem
  · exact .inr rfl
  · exact .inl (List.mem_singleton.mp hmem)

namespace SourceUnit

variable {unit result : SourceUnit}

/-- Every declaration was in a unit before, or one of the items offered it. -/
theorem mem_declarations_addItems {items : List PlacedItem}
    (hok : unit.addItems items = (result, none)) (hmem : declaration ∈ result.declarations) :
    declaration ∈ unit.declarations ∨ ∃ placed ∈ items, declaration ∈ placed.declarations := by
  induction items generalizing unit with
  | nil =>
      cases hok
      exact .inl hmem
  | cons placed rest ih =>
      obtain ⟨next, hnext, hrest⟩ := addItems_cons.mp hok
      obtain ⟨added, hadded, -, rfl⟩ := addItem_eq_ok_iff.mp hnext
      rcases ih hrest with hbefore | ⟨other, hother, hoffered⟩
      · rw [declarations_join, List.mem_append] at hbefore
        refine hbefore.imp_right fun hnew => ⟨placed, List.mem_cons_self, ?_⟩
        exact PlacedItem.mem_declarations_iff.mpr ⟨added, hadded, List.mem_of_mem_filter hnew⟩
      · exact .inr ⟨other, List.mem_cons_of_mem _ hother, hoffered⟩

end SourceUnit

/-! ### Which items are tables -/

/-- Only structs and traits are of a kind that an entity can have. -/
theorem not_entityKind_of_addOther {module name : String} {attributes : List Node}
    {itemKind : ItemKind} {added : SourceUnit}
    (hok : SourceUnit.empty.addOther module name attributes itemKind = .ok added)
    (hmem : declaration ∈ added.declarations) : entityKind declaration ≠ .ok kind := by
  obtain ⟨declared, hread, rfl⟩ := SourceUnit.exists_of_addRead hok
  obtain ⟨table, -, rfl⟩ := Declaration.ofShape_eq_ok_iff.mp hread
  obtain rfl := List.mem_singleton.mp hmem
  intro hkind
  cases itemKind <;> cases hkind

/-- A struct is accepted unless its fields have no names. -/
theorem makesTable_of_ofStruct {module name : String} {attributes body : List Node}
    {visibility keyword generics : Node} (hbody : IsStructBody body)
    (hread : Declaration.ofStruct module name attributes body = .ok declaration)
    (hkind : entityKind declaration = .ok kind) :
    PlacedItem.MakesTable ⟨module, .phrase .structItem (.phrase .attributes attributes ::
      visibility :: keyword :: .leaf (.ident name) :: generics :: body)⟩ declaration := by
  cases hbody with
  | unit predicates => exact .struct rfl (.inl ⟨_, rfl⟩) hread
  | named predicates hfields => exact .struct rfl (.inr ⟨_, _, rfl⟩) hread
  | unnamed predicates hfields =>
      obtain ⟨shape, hshape, hread⟩ := Declaration.ofStruct_eq_ok_iff.mp hread
      obtain ⟨table, -, rfl⟩ := Declaration.ofShape_eq_ok_iff.mp hread
      rw [Declaration.structShape_unnamed] at hshape
      cases hshape
      cases hkind

/-- A trait is accepted if it extends `Entity`. -/
theorem extendsEntity_of_ofTrait {module name : String} {attributes : List Node}
    {supertraits body : Node}
    (hread : Declaration.ofTrait module name attributes supertraits body = .ok declaration)
    (hkind : entityKind declaration = .ok kind) : Declaration.extendsEntity supertraits = true := by
  obtain ⟨properties, -, hread⟩ := Declaration.ofTrait_eq_ok_iff.mp hread
  obtain ⟨table, -, rfl⟩ := Declaration.ofShape_eq_ok_iff.mp hread
  cases hentity : Declaration.extendsEntity supertraits with
  | true => rfl
  | false =>
      rw [hentity] at hkind
      cases hkind

/-- An item that is no struct and no trait declares nothing that is accepted. -/
theorem not_entityKind_of_other {module : String} {own : Kind} {parts : List Node}
    (hother : own ≠ .structItem ∧ own ≠ .traitItem) {added : SourceUnit}
    (hadded : SourceUnit.empty.addItem ⟨module, .phrase own parts⟩ = .ok added)
    (hdeclared : declaration ∈ added.declarations) : entityKind declaration ≠ .ok kind := by
  unfold SourceUnit.addItem at hadded
  dsimp only at hadded
  split at hadded
  · next heq => exact absurd (Node.phrase.inj heq).1 hother.1
  · next heq => exact absurd (Node.phrase.inj heq).1 hother.2
  case h_8 =>
    split at hadded
    · cases hadded
      rw [SourceUnit.declarations_addImpl] at hdeclared
      cases hdeclared
    · cases hadded
      cases hdeclared
  case h_9 =>
    cases hadded
    cases hdeclared
  all_goals exact not_entityKind_of_addOther hadded hdeclared

/-- What an item declares is a table of an accepted kind only if the item is one. -/
theorem makesTable_of_mem_declarations (hitem : IsItem placed.item)
    (hmem : declaration ∈ placed.declarations) (htable : declaration.isTable = true)
    (hkind : entityKind declaration = .ok kind) : placed.MakesTable declaration := by
  obtain ⟨added, hadded, hdeclared⟩ := PlacedItem.mem_declarations_iff.mp hmem
  obtain ⟨module, item⟩ := placed
  cases hitem with
  | structItem attributes visibility keyword generics hname hbody =>
      obtain ⟨declared, hread, htables, -⟩ := SourceUnit.exists_of_addStruct hadded
      have hown : declaration ∈ added.tables := List.mem_filter.mpr ⟨hdeclared, htable⟩
      rw [htables] at hown
      obtain rfl := List.mem_singleton.mp (List.mem_of_mem_filter hown)
      exact makesTable_of_ofStruct hbody hread hkind
  | traitItem attributes visibility qualifiers keyword generics supertraits predicates hname
      hmembers =>
      obtain ⟨declared, hread, rfl⟩ := SourceUnit.exists_of_addRead hadded
      obtain rfl := List.mem_singleton.mp hdeclared
      exact .interface rfl (extendsEntity_of_ofTrait hread hkind) hread
  | modItem => exact absurd hkind (not_entityKind_of_other (by decide) hadded hdeclared)
  | modFile => exact absurd hkind (not_entityKind_of_other (by decide) hadded hdeclared)
  | other parts hother =>
      exact absurd hkind (not_entityKind_of_other ⟨hother.1, hother.2.1⟩ hadded hdeclared)

namespace Expansion

variable {arguments item : List Node} {tree output : Node}

/-- An item under a marker is of the kind that it is of alone. -/
theorem is_of_isMarked {mark marked : Node} (hmarked : IsMarked mark tree marked) (own : Kind) :
    marked.is own = tree.is own := by
  cases hmarked with
  | attributed => rw [is_phrase, is_phrase]
  | written => rw [is_phrase, is_phrase]

/-- A marker and its item are checked in the unit of all items that the item places. -/
theorem exists_marked_of_unitOf {marker : ExpandingMarker} {unit : SourceUnit}
    (hread : itemOf? item = some tree) (hunit : unitOf marker arguments item = .ok unit) :
    ∃ marked, IsMarked (markerNode marker arguments) tree marked ∧ IsItem marked ∧
      SourceUnit.empty.addItems (placeItem "crate" marked) = (unit, none) := by
  obtain ⟨marked, hfile, hmarked⟩ := fileOf?_markerTokens marker arguments hread
  have hisFile : IsFile (.phrase .file [.empty .attributes, marked]) := ⟨_, hfile⟩
  refine ⟨marked, hmarked, hisFile.items marked (by simp [Node.parts]), ?_⟩
  have hitems : placeItems "crate" [marked] = placeItem "crate" marked := by
    rw [placeItems, placeItems, List.append_nil]
  unfold unitOf at hunit
  rw [hfile] at hunit
  dsimp only [SourceUnit.addFile, Node.parts, List.drop] at hunit
  rw [hitems] at hunit
  cases hadded : SourceUnit.empty.addItems (placeItem "crate" marked) with
  | mk own error =>
      rw [hadded] at hunit
      cases error with
      | none => exact congrArg (·, none) (Except.ok.inj hunit)
      | some error => cases hunit

/-- **The marker of a table accepts tables.** If an item expands, the declaration that was checked is
that of a struct without fields or with named ones, or of a trait that extends `Entity`. This is the
item itself, with the marker in front of its attributes, unless the item is a module: then it may be
any item inside. -/
theorem expand_table_accepts (hok : expand .table arguments item = .ok output) :
    ∃ tree marked unit declaration kind placed, itemOf? item = some tree ∧
      IsMarked (markerNode .table arguments) tree marked ∧
      unitOf .table arguments item = .ok unit ∧ unit.tables.head? = some declaration ∧
      checkDeclaration declaration = .ok kind ∧
      placed ∈ placeItem "crate" marked ∧ placed.MakesTable declaration ∧
      (tree.is .modItem = false → placed = ⟨"crate", marked⟩) := by
  obtain ⟨tree, hread⟩ : ∃ tree, itemOf? item = some tree := by
    cases hread : itemOf? item with
    | none =>
        rw [expand, hread] at hok
        cases hok
    | some tree => exact ⟨tree, rfl⟩
  rw [expand_table_of_itemOf? hread] at hok
  obtain ⟨⟨unit, declaration, rest, kind, hunit, htables, hcheck⟩, -⟩ := expandTable_eq_ok_iff.mp hok
  obtain ⟨marked, hmarked, hitem, hadded⟩ := exists_marked_of_unitOf hread hunit
  have hmem : declaration ∈ unit.tables := htables ▸ List.mem_cons_self
  obtain ⟨hdeclared, htable⟩ := List.mem_filter.mp hmem
  obtain hempty | ⟨placed, hplaced, hoffered⟩ := SourceUnit.mem_declarations_addItems hadded hdeclared
  · cases hempty
  have hinside : placed ∈ placeItems "crate" [marked] := by
    rw [placeItems]
    exact List.mem_append_left _ hplaced
  have hform : IsItem placed.item :=
    isItem_of_mem_placeItems (fun other hother => List.mem_singleton.mp hother ▸ hitem) hinside
  have hmakes := makesTable_of_mem_declarations hform hoffered htable (checkDeclaration_eq_ok hcheck).1
  refine ⟨tree, marked, unit, declaration, kind, placed, hread, hmarked, hunit, ?_, hcheck, hplaced,
    hmakes, fun hplain => ?_⟩
  · rw [htables, List.head?_cons]
  · rw [← is_of_isMarked hmarked] at hplain
    exact (eq_or_isModule_of_mem_placeItem hplaced).resolve_right (Bool.eq_false_iff.mp hplain)

/-- The trait of badges expands as itself. -/
theorem expand_table_accepts_badge : ∃ output tree marked declaration kind,
    expand .table badgeArguments markedBadge = .ok output ∧ itemOf? markedBadge = some tree ∧
      tree.is .traitItem = true ∧ IsMarked (markerNode .table badgeArguments) tree marked ∧
      checkDeclaration declaration = .ok kind ∧
      PlacedItem.MakesTable ⟨"crate", marked⟩ declaration := by
  have hkind : (itemOf? markedBadge).map (fun tree => (tree.is .traitItem, tree.is .modItem)) =
      some (true, false) := by
    decide +kernel
  have hexpand : (expand .table badgeArguments markedBadge).toOption.isSome = true := by
    decide +kernel
  obtain ⟨output, houtput⟩ := Option.isSome_iff_exists.mp hexpand
  have hok := toOption_eq_some_iff.mp houtput
  obtain ⟨tree, marked, unit, declaration, kind, placed, hread, hmarked, -, -, hcheck, -, hmakes,
    hplain⟩ := expand_table_accepts hok
  rw [hread, Option.map_some, Option.some.injEq, Prod.mk.injEq] at hkind
  obtain rfl := hplain hkind.2
  exact ⟨output, tree, marked, declaration, kind, hok, hread, hkind.1, hmarked, hcheck, hmakes⟩

/-- A module with a table inside. -/
def staffModule : List Node :=
  [.ident "mod", .ident "staff", braces [.punct "#", brackets [.ident "table"], .ident "struct",
    .ident "Member", braces [.ident "id", .punct ":", .ident "i32"]]]

/-- The marker of a table also accepts a module, for the sake of a table inside. -/
theorem expand_table_staffModule : ∃ tree output unit, itemOf? staffModule = some tree ∧
    expand .table [] staffModule = .ok output ∧ tree.is .modItem = true ∧
    unitOf .table [] staffModule = .ok unit ∧
    unit.tables.map (·.key) = [⟨"crate::staff::Member"⟩] := by
  have hmodule : (itemOf? staffModule).map (Node.is .modItem) = some true := by decide +kernel
  have hexpand : (expand .table [] staffModule).toOption.isSome = true := by decide +kernel
  have hkeys : (unitOf .table [] staffModule).toOption.map (fun unit => unit.tables.map (·.key)) =
      some [⟨"crate::staff::Member"⟩] := by
    decide +kernel
  obtain ⟨tree, hread, hkind⟩ := Option.map_eq_some_iff.mp hmodule
  obtain ⟨output, houtput⟩ := Option.isSome_iff_exists.mp hexpand
  obtain ⟨unit, hunit, htables⟩ := Option.map_eq_some_iff.mp hkeys
  exact ⟨tree, output, unit, hread, toOption_eq_some_iff.mp houtput, hkind,
    toOption_eq_some_iff.mp hunit, htables⟩

end Expansion

end EntityTables
