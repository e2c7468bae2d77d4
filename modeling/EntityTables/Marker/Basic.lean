import EntityTables.Marker.Field

/-!
# Markers

What the attributes of this tool say about a declaration or a property. A field that is not given is
`none` or empty.
-/

namespace EntityTables.Marker

open EntityTables.Syntax

structure Table where
  name : Option String
  aliasName : Option String
  catalog : Option String
  schema : Option String
  typeName : Option String
  sequenceName : Option String
  ignoreProperties : List String
deriving Inhabited

structure Column where
  name : Option String
  propertyName : Option String
  sqlType : Option Node
  ignore : Bool
deriving Inhabited

structure Reference where
  name : Option String
  propertyName : Option String
deriving Inhabited

structure Config where
  allowReflection : Option Bool
  namingStrategy : Option String
  codingNamingStrategy : Option String
  defaultCatalog : Option String
  defaultSchema : Option String
deriving Inhabited

def textField {α : Type} (name : String) (update : String → α → α) : Field α where
  name := name
  read form := (readText form).map update

def Table.fields : List (Field Table) :=
  [textField "name" fun value marker => { marker with name := some value },
    textField "alias" fun value marker => { marker with aliasName := some value },
    textField "catalog" fun value marker => { marker with catalog := some value },
    textField "schema" fun value marker => { marker with schema := some value },
    textField "type_name" fun value marker => { marker with typeName := some value },
    textField "sequence_name" fun value marker => { marker with sequenceName := some value },
    { name := "ignore_properties"
      read := fun form => (readNames form).map fun names marker =>
        { marker with ignoreProperties := names } }]

def Column.fields : List (Field Column) :=
  [textField "name" fun value marker => { marker with name := some value },
    textField "property_name" fun value marker => { marker with propertyName := some value },
    { name := "sql_type"
      read := fun form => (readPath form).map fun path marker =>
        { marker with sqlType := some path } },
    { name := "ignore"
      read := fun form => (readFlag form).map fun flag marker => { marker with ignore := flag } }]

def Reference.fields : List (Field Reference) :=
  [textField "name" fun value marker => { marker with name := some value },
    textField "property_name" fun value marker => { marker with propertyName := some value }]

def Config.fields : List (Field Config) :=
  [{ name := "allow_reflection"
     read := fun form => (readFlag form).map fun flag marker =>
      { marker with allowReflection := some flag } },
    textField "naming_strategy" fun value marker =>
      { marker with namingStrategy := some value },
    textField "coding_naming_strategy" fun value marker =>
      { marker with codingNamingStrategy := some value },
    textField "default_catalog" fun value marker => { marker with defaultCatalog := some value },
    textField "default_schema" fun value marker => { marker with defaultSchema := some value }]

/-- Reads the marker of a table from its attribute. A value in place of arguments is refused by its
type. -/
def Table.read (node : Node) : Except ArgumentError Table :=
  match attributeForm node with
  | .word => .ok default
  | .list body => do
    let arguments ← readArguments body
    (arguments.foldl (Reading.add Table.fields) ⟨default, [], []⟩).finish
  | .value expr => (FieldValue.ofExpr expr).refuse

/-- The marker of the table among some attributes, the first if there are several. -/
def Table.find? (attributes : List Node) : Except ArgumentError (Option Table) :=
  (attributes.find? (Node.isMarker "table")).mapM Table.read

/-- The marker of a column, if an attribute gives one. -/
def Column.find? (attributes : List Node) : Except ArgumentError (Option Column) :=
  if Node.anyMarker "column" attributes then
    (readMarkers "column" Column.fields default attributes).map some
  else .ok none

/-- The marker of a reference, if an attribute gives one. -/
def Reference.find? (attributes : List Node) : Except ArgumentError (Option Reference) :=
  if Node.anyMarker "references" attributes then
    (readMarkers "references" Reference.fields default attributes).map some
  else .ok none

def Config.read (attributes : List Node) : Except ArgumentError Config :=
  readMarkers "tablegen_config" Config.fields default attributes

end EntityTables.Marker
