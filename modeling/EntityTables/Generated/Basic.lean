import EntityTables.Call.Pair
import EntityTables.Schema.Table
import EntityTables.Syntax.Phrase
import EntityTables.Syntax.Printer

/-!
# Names and types of generated code

The names that generated code is given, and the types in which records hold the properties of a
table. A plain property is held in its own type; a reference is held as the record it refers to,
inside `Option` if it may be missing.
-/

namespace EntityTables.Generated

open EntityTables.Syntax EntityTables.Schema
open EntityTables.Call (withoutRaw)

def identifier (table : Table) (name : String) : Except Error String :=
  match parseName? name with
  | some name => .ok name
  | none => .error (.invalidIdentifier table.key.text name)

def recordName (entity : String) : String := withoutRaw entity ++ "Record"

def recordType (entity : String) : Node := namedType (recordName entity)

def toolPath (name : String) : Node := rootPath ["tablegen", name]

/-- The trait of all table types. -/
def tableTrait : Node := toolPath "Table"

/-- The type of the property bag that a record wraps. -/
def bagType : Node := pathType (toolPath "EntityRecord")

/-- The name that a table type gives its table. -/
def tableNameOf (typeName : String) : Node :=
  traitConstant (namedType typeName) tableTrait "TABLE_NAME"

/-- An empty property bag for the table of a type. -/
def emptyBag (tableType : String) : Node :=
  callOf (rootPath ["tablegen", "EntityRecord", "new"]) [tableNameOf tableType]

/-- Sets a property of the property bag that an expression names. -/
def storing (bag : Node) (property : String) (value : Node) : Node :=
  exprStatementOf (methodCall bag "set" [textExpr property, value])

/-- The attribute for results that must not be dropped. -/
def mustUse : Node := plainAttribute (pathOf [segmentOf "must_use"])

def allowing (warnings : List String) : Node := listAttribute "allow" (warnings.map words)

end EntityTables.Generated

namespace EntityTables.Schema.Column

open EntityTables.Syntax EntityTables.Generated

def storedType (column : Column) : Node :=
  match column.reference with
  | some reference =>
    let target := recordType reference.table.entity
    if column.nullable then optionOf target else target
  | none => column.propertyType

def readType (column : Column) : Node :=
  match column.reference with
  | some reference => recordType reference.table.entity
  | none => column.propertyType

end EntityTables.Schema.Column
