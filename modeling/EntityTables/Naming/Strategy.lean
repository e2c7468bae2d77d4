import EntityTables.Schema.Table
import EntityTables.Text.Accessor
import EntityTables.Text.Words

/-!
# Naming strategies

How names are made for the database and for generated code when a marker gives none.
-/

namespace EntityTables.Naming

open EntityTables.Text EntityTables.Schema

structure DatabaseNaming where
  tableName : String → String
  columnName : String → String → String
  referenceName : String → String → Table → String

structure CodingNaming where
  typeName : String → String
  sequenceName : String → String
  columnName : String → String → String
  referenceName : String → String → Table → String

/-- The name of a reference: its own, then that of the first key column it refers to. -/
def withKey (name : String) (key : Option String) : String :=
  match key with
  | some key => name ++ "_" ++ key
  | none => name

/-- Database names in which `convert` is applied to every name. -/
def DatabaseNaming.converting (convert : String → String) : DatabaseNaming where
  tableName entity := convert entity
  columnName _ property := convert property
  referenceName _ property table :=
    withKey (convert property) (table.primaryKeys.head?.map (·.name))

def DatabaseNaming.lowerSnake : DatabaseNaming := .converting Text.lowerSnake

def DatabaseNaming.upperSnake : DatabaseNaming := .converting Text.upperSnake

/-- Plural table types and sequences, and accessors in lower case. -/
def CodingNaming.plural : CodingNaming where
  typeName entity := pluralize entity
  sequenceName entity := Text.lowerSnake (pluralize entity)
  columnName _ property := accessorCase property
  referenceName _ property table :=
    withKey (accessorCase property) (table.primaryKeys.head?.map (·.propertyName))

end EntityTables.Naming
