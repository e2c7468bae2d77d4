import EntityTables.Proofs.Generated.ItemNames

/-!
# Names that generated items declare

The names of the structs, traits and marked functions among generated items. They are the names that
the code is said to have: a table type is a struct without fields, a record one with its bag, and a
constructor a function that is marked as virtual.
-/

namespace EntityTables.Generated

open EntityTables.Syntax EntityTables.Schema
open EntityTables.Call (withoutRaw)

namespace EmittedKind

/-- The name that an item declares, if it is one of the kind. -/
def declaredName? : EmittedKind → Node → Option String
  | .tableType, .phrase .structItem [_, _, _, .leaf (.ident name), _, _, .leaf (.punct ";" _)] =>
    some (withoutRaw name)
  | .record, .phrase .structItem [_, _, _, .leaf (.ident name), _, _, .group .brace _] => some name
  | .sequence, .phrase .traitItem (_ :: _ :: _ :: _ :: .leaf (.ident name) :: _) => some name
  | .constructor, .phrase .fnItem [.phrase .attributes attributes, _, signature, _] =>
    if attributes.any (· = markerAttribute Call.virtualMarker) then
      (Signature.ofNode? signature).map (·.name)
    else none
  | _, _ => none

section Pieces

variable (kind : EmittedKind)

theorem declaredNames_imports (paths : List Node) :
    (paths.map Code.importItem).filterMap kind.declaredName? = [] := by
  rw [List.filterMap_map, List.filterMap_eq_nil_iff]
  intro path _
  cases kind <;> rfl

theorem declaredNames_tableType (type : TableType) :
    type.code.filterMap kind.declaredName? =
      match kind with
      | .tableType => [withoutRaw type.name]
      | _ => [] := by
  cases kind <;> rfl

theorem declaredNames_sequence (trait : SequenceTrait) :
    trait.code.filterMap kind.declaredName? =
      match kind with
      | .sequence => [trait.name]
      | _ => [] := by
  cases kind <;> rfl

theorem declaredNames_record (type : RecordType) :
    type.code.filterMap kind.declaredName? =
      match kind with
      | .record => [type.name]
      | _ => [] := by
  cases kind <;> rfl

theorem declaredNames_conversion (conversion : Conversion) :
    [conversion.code].filterMap kind.declaredName? = [] := by
  cases kind <;> rfl

theorem declaredName?_publicFunction (attributes : List Node) (signature : Signature)
    (body : List Node) :
    declaredName? .constructor (publicFunction attributes signature body) =
      if attributes.any (· = markerAttribute Call.virtualMarker) then
        (Signature.ofNode? signature.toNode).map (·.name)
      else none := rfl

theorem docAttribute_ne_marker (text marker : String) :
    docAttribute text ≠ markerAttribute marker := by
  simp [docAttribute, markerAttribute, plainAttribute, attributeOf, brackets]

/-- Of the two functions of a constructor, only the virtual one is marked so. -/
theorem declaredNames_constructor {table : Table} {container : String} {constructor : Constructor}
    (hok : Constructor.of table container = .ok constructor) :
    [constructor.virtualItem, constructor.implementationItem].filterMap kind.declaredName? =
      match kind with
      | .constructor => [constructor.signature.name]
      | _ => [] := by
  cases kind with
  | constructor =>
      have hread : Signature.ofNode? constructor.signature.toNode = some constructor.signature := by
        rw [signature_of_ok hok]
        exact ofNode?_constructorSignature table
      have hvirtual : declaredName? .constructor constructor.virtualItem =
          some constructor.signature.name := by
        rw [Constructor.virtualItem, declaredName?_publicFunction, hread, if_pos (by simp)]
        rfl
      have hallowing : allowing ["non_snake_case", "clippy :: too_many_arguments"] ≠
          markerAttribute Call.virtualMarker := by decide
      have hmarker : markerAttribute Call.implementationMarker ≠
          markerAttribute Call.virtualMarker := by decide
      have hother : declaredName? .constructor constructor.implementationItem = none := by
        rw [Constructor.implementationItem, declaredName?_publicFunction,
          if_neg (by simp [docAttribute_ne_marker, hmarker, hallowing])]
      rw [List.filterMap_cons_some hvirtual, List.filterMap_cons_none hother]
      rfl
  | _ => rfl

/-- The items of a table declare a name of each kind that its code has. -/
theorem declaredNames_tableCode {unit : SourceUnit} {config : Config} {container : String}
    {table : Table} {entry : TableCode}
    (hok : TableCode.of unit config container table = .ok entry) :
    entry.items.filterMap kind.declaredName? = (kind.name? entry).toList := by
  obtain ⟨-, -, -, hentity⟩ := tableCode_eq_ok hok
  have hown : entry.entity.items.filterMap kind.declaredName? =
      match kind with
      | .record => (entry.entity.recordType?.map (·.name)).toList
      | .constructor => (entry.entity.constructor?.map (·.signature.name)).toList
      | _ => [] := by
    cases hkind : table.kind with
    | interface =>
        obtain ⟨type, constructor, hrecord, -, hconstructor⟩ := entityCode_interface hkind hentity
        rw [hrecord, EntityCode.items, List.filterMap_append, declaredNames_record,
          declaredNames_constructor kind hconstructor]
        cases kind <;> rfl
    | struct =>
        obtain ⟨conversion, hrecord, -⟩ := entityCode_struct hkind hentity
        rw [hrecord]
        cases conversion with
        | none => cases kind <;> rfl
        | some conversion =>
            refine (declaredNames_conversion kind conversion).trans ?_
            cases kind <;> rfl
  rw [TableCode.items, List.filterMap_append, List.filterMap_append, declaredNames_tableType,
    declaredNames_sequence, hown]
  cases kind <;> rfl

end Pieces

end EmittedKind

/-- **Declared names.** The items that are generated declare exactly the names that the code has, of
each kind and in order. -/
theorem declaredNames_items {unit : SourceUnit} {options : Options} {naming : Naming.Registry}
    {container : String} {code : Code}
    (hcode : generate unit options naming container = .ok code) (kind : EmittedKind) :
    code.items.filterMap kind.declaredName? = code.names kind := by
  obtain ⟨resolver, tables, -, -, hcode⟩ := exists_tables_of_generate hcode
  have hcodes := mapM_eq_ok_iff.mpr (ofTables_eq_ok hcode).2
  have htables : (code.tables.flatMap TableCode.items).filterMap kind.declaredName? =
      code.tables.flatMap fun entry => (kind.name? entry).toList := by
    rw [List.filterMap_flatMap]
    refine List.flatMap_congr fun entry hentry => ?_
    obtain ⟨table, -, hok⟩ := exists_of_mem_mapM_ok hcodes hentry
    exact kind.declaredNames_tableCode hok
  rw [Code.items, List.filterMap_append, kind.declaredNames_imports, htables, Code.names_eq,
    List.nil_append, List.filterMap_eq_flatMap_toList]

end EntityTables.Generated
