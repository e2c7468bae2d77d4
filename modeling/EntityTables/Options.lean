import EntityTables.Marker.Basic
import EntityTables.Naming.Registry

/-!
# Options

What a build may choose: naming strategies, a default catalog and schema, and whether records may be
turned back into structs with fields of other kinds. The marker of a unit wins over the options.
-/

namespace EntityTables

open EntityTables.Text

/-- The options of a build; `none` where nothing was chosen. -/
structure Options where
  databaseNaming : Option String
  codingNaming : Option String
  defaultCatalog : Option String
  defaultSchema : Option String
  allowReflection : Option Bool
deriving DecidableEq, Repr, Inhabited

namespace Options

/-- The options without any choice. -/
def none : Options := ⟨.none, .none, .none, .none, .none⟩

/-- A text without the blanks around it. -/
def trimBlanks (text : String) : String :=
  String.ofList ((text.toList.dropWhile isSpace).reverse.dropWhile isSpace).reverse

def readBool (key value : String) : Except ConfigError Bool :=
  let trimmed := trimBlanks value
  if trimmed == "true" then .ok true
  else if trimmed == "false" then .ok false
  else .error (.invalidValue key value)

def keyFront : List Char := "tablegen.".toList

/-- The name of an option, if a key is that of an option. -/
def optionName? (key : String) : Option String :=
  if keyFront.isPrefixOf key.toList then
    some (String.ofList (key.toList.drop keyFront.length))
  else Option.none

/-- Sets an option. Keys that are not those of options are skipped. -/
def set (options : Options) (key value : String) : Except ConfigError Options :=
  match optionName? key with
  | Option.none => .ok options
  | some name =>
    if name == "db-naming-strategy" then .ok { options with databaseNaming := some value }
    else if name == "code-naming-strategy" then .ok { options with codingNaming := some value }
    else if name == "default-catalog" then .ok { options with defaultCatalog := some value }
    else if name == "default-schema" then .ok { options with defaultSchema := some value }
    else if name == "allow-reflection" then
      (readBool key value).map fun flag => { options with allowReflection := some flag }
    else .error (.unknownOption key)

/-- The options of keys and values, or the first error. -/
def ofPairs (pairs : List (String × String)) : Except ConfigError Options :=
  pairs.foldlM (fun options (key, value) => options.set key value) Options.none

end Options

structure Config where
  databaseNaming : String
  codingNaming : String
  defaultCatalog : Option String
  defaultSchema : Option String
  allowReflection : Bool
deriving DecidableEq, Repr

namespace Config

/-- Merges options with the marker of a unit; the marker wins. -/
def merge (options : Options) (marker : Option Marker.Config) : Config :=
  let marker := marker.getD default
  { databaseNaming :=
      (marker.namingStrategy.or options.databaseNaming).getD Naming.Registry.lowerSnakeSelector
    codingNaming :=
      (marker.codingNamingStrategy.or options.codingNaming).getD Naming.Registry.pluralSelector
    defaultCatalog := marker.defaultCatalog.or options.defaultCatalog
    defaultSchema := marker.defaultSchema.or options.defaultSchema
    allowReflection := (marker.allowReflection.or options.allowReflection).getD false }

/-- The configuration without options and without a marker. -/
def standard : Config := merge Options.none Option.none

end Config

end EntityTables
