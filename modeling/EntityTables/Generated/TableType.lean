import EntityTables.Generated.Basic

/-!
# Table types

The type that describes a table in generated code: the names of the table as constants, and one
accessor for each column.
-/

namespace EntityTables.Generated

open EntityTables.Syntax EntityTables.Schema

/-- The key that a column refers to: the table type of its target and the name of the column. -/
structure ForeignKey where
  tableType : String
  column : String
deriving DecidableEq, Repr

structure ColumnAccessor where
  method : String
  column : String
  sqlType : SqlTypeRef
  primaryKey : Bool
  nullable : Bool
  reference : Option ForeignKey

structure TableType where
  name : String
  entity : String
  qualifiedName : String
  tableName : String
  aliasName : Option String
  catalog : Option String
  schema : Option String
  accessors : List ColumnAccessor

def ForeignKey.of (reference : Reference) : Except Error ForeignKey := do
  let tableType ← identifier reference.table reference.table.typeName
  return ⟨tableType, (reference.keyColumn?.map (·.name)).getD ""⟩

def ColumnAccessor.of (column : Column) (method : String) : Except Error ColumnAccessor := do
  let reference ← column.reference.mapM ForeignKey.of
  return {
    method
    column := column.name
    sqlType := column.sqlType
    primaryKey := column.primaryKey
    nullable := column.nullable
    reference }

/-- The type of a table. All its names are checked before any it refers to. -/
def TableType.of (table : Table) : Except Error TableType := do
  let name ← identifier table table.typeName
  let methods ← table.columns.mapM fun column => identifier table column.propertyName
  let accessors ← (table.columns.zip methods).mapM fun (column, method) =>
    ColumnAccessor.of column method
  return {
    name
    entity := table.entity
    qualifiedName := table.qualifiedName
    tableName := table.name
    aliasName := table.aliasName
    catalog := table.catalog
    schema := table.schema
    accessors }

def sqlTypeExpr (sqlType : SqlTypeRef) : Node :=
  match sqlType.shape with
  | .fixed => callOf (rootPath ["std", "sync", "Arc", "new"]) [pathExpr sqlType.path]
  | .factory =>
    callOf (absolutePath [segmentOf "tablegen", segmentOf "SqlTypeFactory",
        turbofishSegment "create_sql_type" sqlType.valueType])
      [borrowed (pathExpr sqlType.path)]

/-- A column with the key that it refers to. -/
def ForeignKey.code (key : ForeignKey) (column : Node) : Node :=
  methodCall column "references" [tableNameOf key.tableType, textExpr key.column]

namespace ColumnAccessor

/-- The path of the function that makes columns with values of a type. -/
def newColumn (valueType : Node) : Node :=
  absolutePath [segmentOf "tablegen", turbofishSegment "Column" valueType, segmentOf "new"]

/-- What an accessor evaluates. -/
def value (accessor : ColumnAccessor) : Node :=
  let column := callOf (newColumn accessor.sqlType.valueType)
    [tableNameOf "Self", textExpr accessor.column, sqlTypeExpr accessor.sqlType]
  let column := if accessor.primaryKey then methodCall column "primary_key" [] else column
  let column := if accessor.nullable then methodCall column "nullable" [] else column
  match accessor.reference with
  | some key => key.code column
  | none => column

def code (accessor : ColumnAccessor) : Node :=
  memberFunction [docAttribute ("Column `" ++ accessor.column ++ "`."), mustUse] publicly
    (plainSignature accessor.method [selfByReference]
      (Signature.outputOf (rootGeneric ["tablegen"] "Column" accessor.sqlType.valueType)))
    [resultOf accessor.value]

/-- The column that an accessor gives, as a table lists it. -/
def infoCode (accessor : ColumnAccessor) : Node :=
  methodCall (methodCall (nameExpr "self") accessor.method []) "info" []

end ColumnAccessor

def optionalConstant (name : String) (value : Option String) : List Node :=
  match value with
  | some value => [memberConstant name (optionOf staticText) (callOf somePath [textExpr value])]
  | none => []

namespace TableType

def selfType (type : TableType) : Node := namedType type.name

def columnsCode (type : TableType) : Node :=
  memberFunction [] (.empty .visibility)
    (plainSignature "columns" [selfByReference] (Signature.outputOf
      (rootGeneric ["std", "vec"] "Vec" (pathType (toolPath "ColumnInfo")))))
    [resultOf (macroCallOf (rootPath ["std", "vec"])
      (brackets (commaSeparated (type.accessors.map ColumnAccessor.infoCode))))]

/-- What the implementation of the trait of tables declares. -/
def tableMembers (type : TableType) : List Node :=
  memberConstant "TABLE_NAME" staticText (textExpr type.tableName) ::
    optionalConstant "ALIAS" type.aliasName ++ optionalConstant "CATALOG" type.catalog ++
    optionalConstant "SCHEMA" type.schema ++ [type.columnsCode]

def code (type : TableType) : List Node :=
  [publicStruct [docAttribute ("Table `" ++ type.qualifiedName ++ "` of entity `" ++ type.entity ++
        "`."), listAttribute "derive" [words "Debug", words "Clone", words "Copy", words "Default"]]
      type.name (.punct ";"),
    traitImpl tableTrait type.selfType type.tableMembers,
    ownImpl type.selfType (type.accessors.map ColumnAccessor.code)]

end TableType

end EntityTables.Generated
