import EntityTables.Generated.Basic

/-!
# Record types

The type that holds the values of an interface: it wraps a property bag, with a getter for every
column, a setter for those that may change, and for each reference a helper that reads the key of the
record it refers to.
-/

namespace EntityTables.Generated

open EntityTables.Syntax EntityTables.Schema
open EntityTables.Call (withoutRaw)

/-- Reads a property that is stored in a type; an optional record is read through. -/
structure Getter where
  property : String
  storedType : Node
  readType : Node
  readsThrough : Bool

structure Setter where
  property : String
  storedType : Node

/-- Reads a key through a reference, by a method of the record that is referred to. -/
structure KeyHelper where
  method : String
  property : String
  target : String
  key : String
  keyType : Node

/-- The record type of an interface. -/
structure RecordType where
  name : String
  entity : String
  tableType : String
  getters : List Getter
  setters : List Setter
  keyHelpers : List KeyHelper

def Getter.of (column : Column) : Getter where
  property := column.property
  storedType := column.storedType
  readType := column.readType
  readsThrough := column.isReference && column.nullable

def Setter.of (column : Column) : Setter := ⟨column.property, column.storedType⟩

def Setter.method (setter : Setter) : String := "set_" ++ withoutRaw setter.property

/-- How a record gives its key: the method to call and the type of the key. -/
structure KeyAccess where
  method : String
  type : Node

/-- How the record that a reference points at gives its key: by the getter of the key property, or by
the helper of a key that is a reference itself. -/
def keyAccess (reference : Reference) : Except Error KeyAccess :=
  match _hk : reference.keyColumn? with
  | none => return ⟨"", .empty .verbatim⟩
  | some key =>
    match _h : key.reference with
    | none => return ⟨key.property, key.propertyType⟩
    | some inner => do
      let method ← identifier reference.table key.propertyName
      let access ← keyAccess inner
      return ⟨method, access.type⟩
termination_by sizeOf reference
decreasing_by
  exact Nat.lt_trans (Column.sizeOf_reference_lt _h) (sizeOf_keyColumn_lt _hk)

def KeyHelper.of (table : Table) (column : Column) (reference : Reference) :
    Except Error KeyHelper := do
  let method ← identifier table column.propertyName
  let access ← keyAccess reference
  return {
    method
    property := column.property
    target := reference.table.entity
    key := access.method
    keyType := access.type }

/-- The record type of a table. -/
def RecordType.of (table : Table) : Except Error RecordType := do
  let tableType ← identifier table table.typeName
  let references := table.columns.filterMap fun column =>
    column.reference.map fun reference => (column, reference)
  let keyHelpers ← references.mapM fun (column, reference) => KeyHelper.of table column reference
  return {
    name := recordName table.entity
    entity := table.entity
    tableType
    getters := table.columns.map .of
    setters := (table.columns.filter (·.mutable)).map .of
    keyHelpers }

/-- An optional reference to a value. -/
def optionalReference (type : Node) : Node := optionOf (referenceTo type)

/-- The bag of the record that a method is called on. -/
def ownBag : Node := fieldOf (nameExpr "self") "record"

/-- A method that reads something of the record. -/
def readingMethod (doc name : String) (type : Node) (value : Node) : Node :=
  memberFunction [docAttribute doc, mustUse] publicly
    (plainSignature name [selfByReference] (Signature.outputOf (optionalReference type)))
    [resultOf value]

/-- What a getter evaluates. -/
def Getter.value (getter : Getter) : Node :=
  let key := textExpr getter.property
  if getter.readsThrough then
    methodCall (methodCallWith (optionTurbofish getter.readType) ownBag "get" [key]) "and_then"
      [closure "it" (methodCall (nameExpr "it") "as_ref" [])]
  else methodCallWith (turbofish getter.storedType) ownBag "get" [key]

def Getter.code (getter : Getter) : Node :=
  readingMethod ("Value of `" ++ getter.property ++ "`, if set.") getter.property getter.readType
    getter.value

def Setter.code (setter : Setter) : Node :=
  memberFunction [docAttribute ("Set `" ++ setter.property ++ "`.")] publicly
    (plainSignature setter.method [selfByMutable, Signature.inputOf "value" setter.storedType]
      (.empty .returnType))
    [storing ownBag setter.property (nameExpr "value")]

/-- What a key helper evaluates: a method of the record that a getter gives, if it gives one. -/
def KeyHelper.value (helper : KeyHelper) : Node :=
  methodCall (methodCall (nameExpr "self") helper.property []) "and_then"
    [closure "it" (methodCall (nameExpr "it") helper.key [])]

def KeyHelper.code (helper : KeyHelper) : Node :=
  readingMethod
    ("Key of the referenced `" ++ helper.target ++ "`, read through `" ++ helper.property ++ "`.")
    helper.method helper.keyType helper.value

namespace RecordType

def selfType (type : RecordType) : Node := namedType type.name

/-- The result of a method that returns a record of its own type. -/
def returningSelf : Node := Signature.outputOf (namedType "Self")

def newCode (type : RecordType) : Node :=
  memberFunction [rawDocAttribute " Record with no property set.", mustUse] publicly
    (plainSignature "new" [] returningSelf)
    [resultOf (structOf "Self" [fieldGiven "record" (emptyBag type.tableType)])]

def wrapCode : Node :=
  memberFunction [rawDocAttribute " Wrap an existing property bag.", mustUse] publicly
    (plainSignature "from_entity_record" [Signature.inputOf "record" bagType] returningSelf)
    [resultOf (structOf "Self" [fieldNamed "record"])]

def unwrapCode : Node :=
  memberFunction [rawDocAttribute " The property bag.", mustUse] publicly
    (plainSignature "into_entity_record" [selfByValue] (Signature.outputOf bagType))
    [resultOf ownBag]

/-- The methods of a record type. -/
def members (type : RecordType) : List Node :=
  [type.newCode, wrapCode, unwrapCode] ++ type.getters.map Getter.code ++
    type.setters.map Setter.code ++ type.keyHelpers.map KeyHelper.code

/-- The code of a record type. -/
def code (type : RecordType) : List Node :=
  let defaultCode := memberFunction [] (.empty .visibility) (plainSignature "default" [] returningSelf)
    [resultOf (callOf (namePath ["Self", "new"]) [])]
  let entityCode := memberFunction [] (.empty .visibility)
    (plainSignature "entity_record" [selfByReference] (Signature.outputOf (referenceTo bagType)))
    [resultOf (borrowed ownBag)]
  [publicStruct [docAttribute ("Values of a `" ++ type.entity ++ "` entity."),
      listAttribute "derive" [words "Debug"]] type.name (braces [privateField "record" bagType]),
    ownImpl type.selfType type.members,
    traitImpl (rootPath ["core", "default", "Default"]) type.selfType [defaultCode],
    traitImpl (toolPath "Entity") type.selfType [entityCode]]

end RecordType

end EntityTables.Generated
