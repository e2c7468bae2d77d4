import EntityTables.Proofs.Syntax.ItemForm
import EntityTables.Proofs.Unit.Names

/-!
# Names that declarations may have

The grammar gives a struct or a trait no keyword as its name, and a getter none either. Where these
names go into generated code, they can be read there again. A field may be named by an underscore.
-/

namespace EntityTables

open EntityTables.Syntax

namespace Declaration

/-- A declaration whose own name, if it may be a table, and those of its getters are no keywords. -/
structure Named (declaration : Declaration) : Prop where
  own : (∀ kind, declaration.shape ≠ .other kind) → isName declaration.name = true
  getters : ∀ extends_ properties, declaration.shape = .interface extends_ properties →
    ∀ property ∈ properties, isName property.name = true

variable {module name : String} {attributes members : List Node} {declaration : Declaration}
  {item : Node}

theorem Named.ofStruct {rest : List Node} (hname : isName name = true)
    (hread : ofStruct module name attributes rest = .ok declaration) : declaration.Named := by
  obtain ⟨shape, hshape, hread⟩ := ofStruct_eq_ok_iff.mp hread
  obtain ⟨table, -, rfl⟩ := ofShape_eq_ok_iff.mp hread
  refine ⟨fun _ => hname, fun extends_ properties hinterface => ?_⟩
  have hshape : structShape rest = .ok (.interface extends_ properties) := hinterface ▸ hshape
  unfold structShape at hshape
  split at hshape
  · obtain ⟨_, -, hpure⟩ := bind_eq_ok_iff.mp hshape
    cases hpure
  · cases hshape
  · cases hshape

theorem isName_of_method? {member : Node} {method : Method} (hmember : IsTraitMember member)
    (hmethod : method? member = some method) : isName method.signature.name = true := by
  cases hmember with
  | attributes parts => cases hmethod
  | @method attributes signature body hsignature hbody =>
      cases hsignature with
      | signature qualifiers keyword generics predicates hname hinputs hresult =>
          cases hmethod
          exact hname
  | @other kind parts hkind =>
      unfold method? at hmethod
      split at hmethod
      · next heq =>
          cases heq
          rcases hkind with hkind | hkind | hkind <;> cases hkind
      · cases hmethod

theorem Named.ofTrait {supertraits : Node} (hname : isName name = true)
    (hmembers : All IsTraitMember members)
    (hread : ofTrait module name attributes supertraits (.group .brace members) = .ok declaration) :
    declaration.Named := by
  obtain ⟨properties, hproperties, hread⟩ := ofTrait_eq_ok_iff.mp hread
  obtain ⟨table, -, rfl⟩ := ofShape_eq_ok_iff.mp hread
  refine ⟨fun _ => hname, fun extends_ own hshape property hmem => ?_⟩
  cases hshape
  obtain ⟨method, hmethod, hgetter⟩ :=
    List.mem_filterMap.mp (Property.mem_of_collect hproperties hmem)
  obtain ⟨member, hmember, hread⟩ := List.mem_filterMap.mp (List.mem_filter.mp hmethod).1
  obtain ⟨type, -, hproperty⟩ := Option.map_eq_some_iff.mp hgetter
  obtain ⟨_, _, -, -, rfl⟩ := Property.read_eq_ok_iff.mp hproperty
  exact isName_of_method? (hmembers member hmember) hread

theorem Named.other {kind : ItemKind}
    (hread : ofShape module name attributes (.other kind) = .ok declaration) :
    declaration.Named := by
  obtain ⟨table, -, rfl⟩ := ofShape_eq_ok_iff.mp hread
  exact ⟨fun hother => absurd rfl (hother kind), nofun⟩

end Declaration

namespace SourceUnit

variable {unit result : SourceUnit} {placed : PlacedItem} {item : Node}

def Named (unit : SourceUnit) : Prop := ∀ declaration ∈ unit.declarations, declaration.Named

theorem Named.insert {declaration : Declaration} (hunit : unit.Named)
    (hdeclaration : declaration.Named) : (unit.insert declaration).Named := by
  unfold SourceUnit.insert
  split
  · exact hunit
  · exact List.forall_mem_append.mpr ⟨hunit, List.forall_mem_singleton.mpr hdeclaration⟩

theorem Named.addRead {read : Except Marker.ArgumentError Declaration} (hunit : unit.Named)
    (hread : ∀ declaration, read = .ok declaration → declaration.Named)
    (hok : unit.addRead read = .ok result) : result.Named := by
  cases read with
  | error error => cases hok
  | ok declaration =>
      cases hok
      exact hunit.insert (hread declaration rfl)

theorem Named.addStruct {module name : String} {attributes rest : List Node} (hunit : unit.Named)
    (hname : isName name = true)
    (hok : unit.addStruct module name attributes rest = .ok result) : result.Named := by
  obtain ⟨declaration, hread, ⟨-, configured, hconfig, rfl⟩ | ⟨-, rfl⟩⟩ :=
    addStruct_eq_ok_iff.mp hok
  · obtain ⟨-, -, marker, -, rfl⟩ := setConfig_eq_ok_iff.mp hconfig
    exact @Named.insert { unit with config := _ } declaration hunit (.ofStruct hname hread)
  · exact hunit.insert (.ofStruct hname hread)

theorem Named.addOther {module name : String} {attributes : List Node} {kind : ItemKind}
    (hunit : unit.Named) (hok : unit.addOther module name attributes kind = .ok result) :
    result.Named :=
  hunit.addRead (fun _ hread => .other hread) hok

theorem Named.addItem (hunit : unit.Named) (hitem : IsItem placed.item)
    (hok : unit.addItem placed = .ok result) : result.Named := by
  obtain ⟨module, item⟩ := placed
  unfold SourceUnit.addItem at hok
  dsimp only at hok hitem
  split at hok
  · cases hitem with
    | structItem attributes visibility keyword generics hname hbody => exact hunit.addStruct hname hok
    | other parts hkind => exact absurd rfl hkind.1
  · cases hitem with
    | traitItem attributes visibility qualifiers keyword generics supertraits predicates hname
        hmembers =>
        exact hunit.addRead (fun _ hread => .ofTrait hname hmembers hread) hok
    | other parts hkind => exact absurd rfl hkind.2.1
  · exact hunit.addOther hok
  · exact hunit.addOther hok
  · exact hunit.addOther hok
  · exact hunit.addOther hok
  · exact hunit.addOther hok
  · split at hok
    · cases hok
      unfold Named
      rw [declarations_addImpl]
      exact hunit
    · cases hok
      exact hunit
  · cases hok
    exact hunit

theorem Named.addItems {items : List PlacedItem} (hunit : unit.Named)
    (hitems : ∀ placed ∈ items, IsItem placed.item)
    (hok : unit.addItems items = (result, none)) : result.Named := by
  induction items generalizing unit with
  | nil =>
      cases hok
      exact hunit
  | cons placed rest ih =>
      obtain ⟨next, hnext, hrest⟩ := addItems_cons.mp hok
      obtain ⟨hplaced, hitems⟩ := List.forall_mem_cons.mp hitems
      exact ih (hunit.addItem hplaced hnext) hitems hrest

theorem Named.addTexts {texts : List (String × String)} (hunit : unit.Named)
    (hok : unit.addTexts texts = .ok result) : result.Named := by
  induction texts generalizing unit with
  | nil =>
      cases hok
      exact hunit
  | cons first rest ih =>
      obtain ⟨next, hnext, hrest⟩ := addTexts_cons.mp hok
      obtain ⟨file, hfile, hadded⟩ := exists_file_of_addText hnext
      refine ih (hunit.addItems (fun placed hmem => ?_) hadded) hrest
      exact isItem_of_mem_placeItems (isFile_of_parseFile? hfile).items hmem

theorem named_of_addTexts {texts : List (String × String)} (hok : empty.addTexts texts = .ok unit) :
    unit.Named :=
  Named.addTexts (fun _ hmem => absurd hmem List.not_mem_nil) hok

end SourceUnit

end EntityTables
