import EntityTables.Text.Quoted

/-!
# Tables of a database

The columns of a table as a database knows them, and the statement that creates the table.
-/

namespace EntityTables.Database

open EntityTables.Text

structure ReferenceBinding where
  table : String
  column : String
deriving DecidableEq, Repr

structure ColumnInfo where
  name : String
  sqlType : String
  primaryKey : Bool
  nullable : Bool
  reference : Option ReferenceBinding
deriving DecidableEq, Repr

structure Column where
  table : String
  info : ColumnInfo
deriving DecidableEq, Repr

namespace Column

/-- A column that may not be missing. -/
def new (table name sqlType : String) : Column := ⟨table, ⟨name, sqlType, false, false, none⟩⟩

def primaryKey (column : Column) : Column :=
  { column with info := { column.info with primaryKey := true } }

def nullable (column : Column) : Column :=
  { column with info := { column.info with nullable := true } }

def references (column : Column) (table name : String) : Column :=
  { column with info := { column.info with reference := some ⟨table, name⟩ } }

end Column

def describeReference : Option ReferenceBinding → String
  | none => "None"
  | some binding =>
    let table := quoteListing binding.table
    let column := quoteListing binding.column
    "Some(ReferenceBinding \x7b table: " ++ table ++ ", column: " ++ column ++ " \x7d)"

def Column.describe (column : Column) : String :=
  let fields :=
    [("table", quoteListing column.table), ("name", quoteListing column.info.name),
      ("sql_type", quoteListing column.info.sqlType),
      ("primary_key", toString column.info.primaryKey),
      ("nullable", toString column.info.nullable),
      ("reference", describeReference column.info.reference)]
  "Column \x7b " ++ ", ".intercalate (fields.map fun (name, value) => name ++ ": " ++ value) ++
    " \x7d"

structure Table where
  name : String
  aliasName : Option String
  catalog : Option String
  schema : Option String
  columns : List ColumnInfo
deriving DecidableEq, Repr

namespace Table

/-- The name of a table with its catalog and schema, as far as it has them. -/
def qualifiedName (table : Table) : String :=
  ".".intercalate (table.catalog.toList ++ table.schema.toList ++ [table.name])

/-- The columns of the primary key, in order. -/
def primaryKeys (table : Table) : List ColumnInfo := table.columns.filter (·.primaryKey)

def hasCompoundKey (table : Table) : Bool := table.primaryKeys.length > 1

end Table

/-- What a column is declared with after its type. A compound key is declared at the end of the table
instead. -/
def ColumnInfo.constraints (column : ColumnInfo) (compound : Bool) : List String :=
  let presence :=
    if column.primaryKey && !compound then ["PRIMARY KEY"]
    else if !column.nullable then ["NOT NULL"]
    else []
  let reference :=
    column.reference.map fun binding => "REFERENCES " ++ binding.table ++ "(" ++ binding.column ++ ")"
  presence ++ reference.toList

def ColumnInfo.definition (column : ColumnInfo) (compound : Bool) : String :=
  " ".intercalate (("    " ++ column.name) :: column.sqlType :: column.constraints compound)

namespace Table

/-- The lines between the brackets of the statement. -/
def definitionLines (table : Table) : List String :=
  let compound := table.hasCompoundKey
  let keyLine := "    PRIMARY KEY (" ++ ", ".intercalate (table.primaryKeys.map (·.name)) ++ ")"
  table.columns.map (·.definition compound) ++ if compound then [keyLine] else []

/-- The statement that creates a table. -/
def createSql (table : Table) : String :=
  let head := "CREATE TABLE IF NOT EXISTS " ++ table.qualifiedName
  match table.definitionLines with
  | [] => head ++ " ();\n"
  | lines => head ++ " (\n" ++ ",\n".intercalate lines ++ "\n);\n"

end Table

structure EntitySequence (δ : Type) where
  database : δ
  table : Table

namespace EntitySequence

def ofTable {δ : Type} (database : δ) (table : Table) : EntitySequence δ := ⟨database, table⟩

def sourceName {δ : Type} (sequence : EntitySequence δ) : String := sequence.table.qualifiedName

end EntitySequence

end EntityTables.Database
