import EntityTables.Generated.Basic
import EntityTables.Unit.Declaration

/-!
# Conversions of structs

How a struct becomes a record and a record becomes a struct: the fields that are columns move under
their names, and the other fields take their default. A struct with other fields that hold values can
be made only if that is allowed.
-/

namespace EntityTables.Generated

open EntityTables.Syntax EntityTables.Schema

/-- A field that moves between a struct and its record. -/
structure MovedField where
  name : String
  type : Node

/-- The conversions of a struct: the fields that move, and those that take their default if a struct
can be made from a record. -/
structure Conversion where
  entity : String
  tableType : String
  moved : List MovedField
  defaulted : Option (List String)

def Conversion.of (table : Table) (declaration : Declaration) (allowReflection : Bool) :
    Except Error Conversion := do
  let tableType ← identifier table table.typeName
  let (columns, others) :=
    declaration.properties.partition fun property => (table.columnFor? property.name).isSome
  let reflectable := allowReflection || others.all fun property => !property.backed
  return {
    entity := table.entity
    tableType
    moved := columns.map fun property => ⟨property.name, property.type⟩
    defaulted := if reflectable then some (others.map (·.name)) else none }

def Conversion.intoCode (conversion : Conversion) : Node :=
  let moves := conversion.moved.map fun field =>
    storing (nameExpr "record") field.name (fieldOf (nameExpr "self") field.name)
  memberFunction
    [docAttribute ("Move the columns of this `" ++ conversion.entity ++ "` into a record."),
      mustUse, allowing ["unused_mut"]] publicly
    (plainSignature "into_record" [selfByValue] (Signature.outputOf bagType))
    (letMut [] "record" (emptyBag conversion.tableType) :: moves ++ [resultOf (nameExpr "record")])

/-- Takes a field from a record, or leaves with nothing. -/
def MovedField.taking (field : MovedField) : Node :=
  fieldGiven field.name (tried (methodCallWith (turbofish field.type) (nameExpr "record") "take"
    [textExpr field.name]))

def fillingField (name : String) : Node :=
  fieldGiven name (callOf (rootPath ["core", "default", "Default", "default"]) [])

def Conversion.fromCode (conversion : Conversion) (defaulted : List String) : Node :=
  let fields := conversion.moved.map MovedField.taking ++ defaulted.map fillingField
  let record := Node.phrase .param [.empty .attributes,
    .phrase .identPat [.ident "mut", .ident "record"], .punct ":", bagType]
  memberFunction
    [docAttribute ("Rebuild an `" ++ conversion.entity ++
        "` from a record. `None` if a column is missing or has another type."),
      mustUse, allowing ["unused_mut", "unused_variables"]] publicly
    (plainSignature "from_record" [record] (Signature.outputOf (optionOf (namedType "Self"))))
    [resultOf (callOf somePath [structOf "Self" (commaEnded (fields.map fun field => [field]))])]

/-- The methods that convert a struct. -/
def Conversion.members (conversion : Conversion) : List Node :=
  conversion.intoCode :: (conversion.defaulted.map conversion.fromCode).toList

def Conversion.code (conversion : Conversion) : Node :=
  ownImpl (namedType conversion.entity) conversion.members

end EntityTables.Generated
