import EntityTables.Proofs.Generated.Methods
import EntityTables.Proofs.Syntax.Running

/-!
# The program of an interface

The items that are generated for an interface are a program by themselves. Its functions are found
by their names: the implementation of the constructor, the function that makes an empty record, and
the getters and setters among the methods of the record type.
-/

namespace EntityTables.Generated

open EntityTables.Syntax EntityTables.Schema EntityTables.Call

variable {α : Type}

namespace RecordType

/-- The functions that make a record and take it apart. -/
def ownFunctions (type : RecordType) : List Function :=
  [type.newFunction,
    ⟨plainSignature "from_entity_record" [Signature.inputOf "record" bagType] returningSelf,
      [resultOf (structOf "Self" [fieldNamed "record"])]⟩,
    ⟨plainSignature "into_entity_record" [selfByValue] (Signature.outputOf bagType),
      [resultOf ownBag]⟩]

theorem functions_members (type : RecordType) :
    type.members.filterMap functionOf? = type.ownFunctions ++ type.getters.map Getter.function ++
      type.setters.map Setter.function ++ type.keyHelpers.map KeyHelper.function := by
  have hgetters : functionOf? ∘ Getter.code = some ∘ Getter.function := funext functionOf?_getterCode
  have hsetters : functionOf? ∘ Setter.code = some ∘ Setter.function := funext functionOf?_setterCode
  have hhelpers : functionOf? ∘ KeyHelper.code = some ∘ KeyHelper.function :=
    funext functionOf?_keyHelperCode
  rw [members, List.filterMap_append, List.filterMap_append, List.filterMap_append,
    List.filterMap_map, List.filterMap_map, List.filterMap_map, hgetters, hsetters, hhelpers,
    List.filterMap_eq_map, List.filterMap_eq_map, List.filterMap_eq_map]
  rfl

theorem find?_ownFunctions (type : RecordType) (name : String) {receiver : Node}
    (hreference : receiver ≠ Signature.inputOf "record" bagType) (hvalue : receiver ≠ selfByValue) :
    type.ownFunctions.find? (fun function => function.signature.name = name ∧
      function.signature.inputs.head? = some receiver) = none := by
  simp [ownFunctions, newFunction, plainSignature, hreference.symm, hvalue.symm]

theorem find?_map_function {β : Type} {function : β → Function} {key : β → String}
    {receiver : Node} (hname : ∀ item, (function item).signature.name = key item)
    (hreceiver : ∀ item, (function item).signature.inputs.head? = some receiver) (items : List β)
    (name : String) :
    (items.map function).find? (fun function => function.signature.name = name ∧
      function.signature.inputs.head? = some receiver) =
        (items.find? (key · == name)).map function := by
  rw [List.find?_map]
  congr 2
  funext item
  simp [hname, hreceiver, beq_eq_decide]

theorem find?_map_of_ne {β : Type} (function : β → Function) {own receiver : Node}
    (hne : own ≠ receiver)
    (hreceiver : ∀ item, (function item).signature.inputs.head? = some own) (items : List β)
    (name : String) :
    (items.map function).find? (fun function => function.signature.name = name ∧
      function.signature.inputs.head? = some receiver) = none := by
  rw [List.find?_map, Option.map_eq_none_iff, List.find?_eq_none]
  intro item _
  simp [hreceiver, hne]

/-- A method that only looks at the record is a getter if there is one of its name. -/
theorem find?_byReference {type : RecordType} {name : String} {getter : Getter}
    (hgetter : type.getter? name = some getter) :
    (type.members.filterMap functionOf?).find? (fun function =>
      function.signature.name = name ∧ function.signature.inputs.head? = some selfByReference) =
        some getter.function := by
  have hgetters := @find?_map_function _ Getter.function Getter.property selfByReference
    (fun _ => rfl) (fun _ => rfl) type.getters name
  rw [getter?] at hgetter
  rw [functions_members, List.find?_append, List.find?_append, List.find?_append,
    find?_ownFunctions type name (by decide) (by decide), hgetters, hgetter]
  rfl

/-- The only methods that change the record are its setters. -/
theorem find?_byMutable (type : RecordType) (name : String) :
    (type.members.filterMap functionOf?).find? (fun function =>
      function.signature.name = name ∧ function.signature.inputs.head? = some selfByMutable) =
      (type.setters.find? (·.method == name)).map Setter.function := by
  have hne : selfByReference ≠ selfByMutable := by decide
  have hgetters := find?_map_of_ne Getter.function hne (fun _ => rfl) type.getters name
  have hhelpers := find?_map_of_ne KeyHelper.function hne (fun _ => rfl) type.keyHelpers name
  have hsetters := @find?_map_function _ Setter.function Setter.method selfByMutable
    (fun _ => rfl) (fun _ => rfl) type.setters name
  rw [functions_members, List.find?_append, List.find?_append, List.find?_append,
    find?_ownFunctions type name (by decide) (by decide), hgetters, hhelpers, hsetters,
    Option.none_or, Option.none_or, Option.or_none]

end RecordType

theorem isName_of_parseName? {text name : String} (hread : parseName? text = some name) :
    isName name = true := by
  obtain ⟨node, hnode, hname⟩ := Option.bind_eq_some_iff.mp hread
  obtain ⟨input, -, hparse⟩ := Option.bind_eq_some_iff.mp hnode
  rw [readAll] at hparse
  cases hrun : Parser.name.run input with
  | error error =>
      rw [hrun] at hparse
      cases hparse
  | ok result =>
      obtain ⟨own, rest⟩ := result
      obtain ⟨hstarts, rfl⟩ := run_when_eq_ok.mp hrun
      rw [hrun] at hparse
      cases rest with
      | cons => cases hparse
      | nil =>
          cases hparse
          unfold Input.startsName at hstarts
          split at hstarts
          · next heq =>
              cases heq
              cases hname
              exact hstarts
          · cases hstarts

/-- What is declared has a name of its own. -/
theorem ne_self_of_identifier {table : Table} {text name : String}
    (hok : identifier table text = .ok name) : name ≠ "Self" := by
  have hdeclared : isName name = true := by
    rw [identifier] at hok
    split at hok
    · next hread =>
        cases hok
        exact isName_of_parseName? hread
    · cases hok
  rintro rfl
  revert hdeclared
  decide

theorem tableType_ne_self {table : Table} {type : RecordType} (htype : RecordType.of table = .ok type) :
    type.tableType ≠ "Self" := by
  obtain ⟨tableType, hname, htype⟩ := bind_eq_ok_iff.mp htype
  obtain ⟨keyHelpers, -, htype⟩ := bind_eq_ok_iff.mp htype
  cases htype
  exact ne_self_of_identifier hname

theorem entity_of_ok {table : Table} {container : String} {constructor : Constructor}
    (hok : Constructor.of table container = .ok constructor) : constructor.entity = table.entity := by
  rw [Constructor.of, (of_eq_ok hok).1, Except.ok.injEq] at hok
  rw [← hok]

section Entity

variable {program : Program α} {table : Table} {container : String} {type : RecordType}
  {constructor : Constructor} {tableName : String}

theorem ownMembers_entity
    (hitems : program.items = (EntityCode.record type constructor).items) :
    ownMembers program.items type.selfType = type.members := by
  rw [hitems]
  simp [ownMembers, EntityCode.items, RecordType.code, publicStruct, ownImpl, traitImpl, implItemOf,
    Constructor.virtualItem, Constructor.implementationItem, publicFunction, braces]

theorem tableMembers?_entity
    (hitems : program.items = (EntityCode.record type constructor).items) (self : Node) :
    tableMembers? program.items self = none := by
  have hdefault : rootPath ["core", "default", "Default"] ≠ tableTrait := by decide
  have hentity : toolPath "Entity" ≠ tableTrait := by decide
  rw [hitems]
  simp [tableMembers?, EntityCode.items, RecordType.code, publicStruct, ownImpl, traitImpl,
    implItemOf, Constructor.virtualItem, Constructor.implementationItem, publicFunction, braces,
    hdefault, hentity]

theorem functionNamed?_entity (hok : Constructor.of table container = .ok constructor)
    (hitems : program.items = (EntityCode.record type constructor).items) :
    functionNamed? program.items constructor.pair.implementation.name =
      some constructor.function := by
  have hpair := (of_eq_ok hok).1
  obtain ⟨body, hvirtual⟩ : ∃ body,
      functionOf? constructor.virtualItem = some ⟨constructor.signature, body⟩ := by
    rw [Constructor.virtualItem, functionOf?_publicFunction, signature_of_ok hok,
      ofNode?_constructorSignature]
    exact ⟨_, rfl⟩
  have hfunctions : program.items.filterMap functionOf? =
      [⟨constructor.signature, body⟩, constructor.function] := by
    rw [hitems, EntityCode.items, List.filterMap_append, List.filterMap_cons_some hvirtual,
      List.filterMap_cons_some (functionOf?_implementationItem hok)]
    rfl
  have hother : (constructor.signature.name == constructor.pair.implementation.name) = false := by
    refine beq_false_of_ne fun hsame => ?_
    rw [name_of_derive? hpair, (derive?_eq_some hpair).1, signature_of_ok hok] at hsame
    have hlength := congrArg String.length hsame
    rw [String.length_append] at hlength
    have hprefix : implementationPrefix.length = 7 := by decide
    have hown : (VirtualFunction.ofSignature container (constructorSignature table)).name =
        (constructorSignature table).name := rfl
    rw [hown] at hlength
    omega
  have hname : (constructor.function.signature.name ==
      constructor.pair.implementation.name) = true := beq_self_eq_true _
  rw [functionNamed?, hfunctions, List.find?_cons, hother, List.find?_cons, hname]

/-- The constants of tables are taken from outside. -/
theorem call_table (hitems : program.items = (EntityCode.record type constructor).items)
    (depth : Nat) (self : Node) (name : String) (arguments : List (Datum α)) :
    program.call? (depth + 1) (.table self name) arguments = program.constant self name := by
  rw [Program.call?, Program.tableMember?, tableMembers?_entity hitems]

theorem call_new (hitems : program.items = (EntityCode.record type constructor).items)
    (hplain : type.tableType ≠ "Self")
    (hnamed : program.constant (namedType type.tableType) "TABLE_NAME" = some (.text tableName))
    (depth : Nat) :
    program.call? (depth + 2) (.own type.selfType "new") [] =
      some (.value type.selfType (.record (.empty tableName))) := by
  have hnew : functionNamed? type.members "new" = some type.newFunction := by
    rw [functionNamed?, RecordType.functions_members]
    rfl
  rw [Program.call?, ownMembers_entity hitems, hnew, Option.bind_some,
    RecordType.run_newFunction rfl hplain ((call_table hitems depth _ _ _).trans hnamed)]
  rfl

/-- The implementation is called by its name. -/
theorem call_implementation (hok : Constructor.of table container = .ok constructor)
    (hdistinct : (table.columns.map fun column => withoutRaw column.property).Nodup)
    (htype : RecordType.of table = .ok type)
    (hitems : program.items = (EntityCode.record type constructor).items)
    (hnamed : program.constant (namedType type.tableType) "TABLE_NAME" = some (.text tableName))
    {actuals : Actuals α constructor.pair.implementation} {passed : List (Datum α)}
    (hpassed : actuals.PassedAs program.word? passed) (depth : Nat) :
    program.call? (depth + 3) (.function constructor.pair.implementation.name) passed =
      (constructor.run tableName actuals.arguments actuals.words).map fun content =>
        .value type.selfType (.record content) := by
  have hself : type.selfType = recordType constructor.entity := by
    rw [RecordType.selfType, (getters_of_recordType htype).2.1, entity_of_ok hok, recordType]
  have hplain := tableType_ne_self htype
  rw [Program.call?, functionNamed?_entity hok hitems, Option.bind_some,
    run_function hok hdistinct rfl hself (call_new hitems hplain hnamed depth) hpassed]

/-- A setter of the type is called by its name. -/
theorem change?_entity (hitems : program.items = (EntityCode.record type constructor).items)
    (depth : Nat) (name : String) (content : Properties α) (value : Value α) :
    program.change? depth type.selfType name content value =
      (type.setters.find? (·.method == name)).map fun setter => setter.store content value := by
  rw [Program.change?, Program.method?, ownMembers_entity hitems, RecordType.find?_byMutable]
  cases type.setters.find? (·.method == name) with
  | none => rfl
  | some setter =>
      simp only [Option.bind_eq_bind, Option.map_some, Option.bind_some, Datum.passing,
        run_setterFunction]
      rfl

/-- A getter of the type is called by its name. -/
theorem show?_entity (hitems : program.items = (EntityCode.record type constructor).items)
    {column : Column} (hgetter : type.getter? column.property = some (.of column)) (depth : Nat)
    (content : Properties α) :
    program.show? depth type.selfType column.property content =
      some (.ofOption column.readType ((Getter.of column).read content)) := by
  rw [Program.show?, Program.method?, ownMembers_entity hitems,
    RecordType.find?_byReference hgetter]
  simp only [Option.bind_eq_bind, Option.bind_some, run_getterFunction]
  rfl

end Entity

/-- Items that run on plain values which are the literals that write them, for one table. -/
def literalProgram (tableName : String) (items : List Node) : Program String where
  items
  constant _ _ := some (.text tableName)
  word? := wordOf?
  fill _ := ⟨.empty .inferType, .absent⟩
  other _ := none

end EntityTables.Generated
