import EntityTables.Generated.Constructor
import EntityTables.Generated.Conversion
import EntityTables.Generated.RecordType
import EntityTables.Generated.Sequence
import EntityTables.Generated.TableType
import EntityTables.Schema.Resolve
import EntityTables.Syntax.Lexed

/-!
# Generated code

All that is generated for the tables of a unit: one file with the items of every table, and the
constructors that calls are redirected to.
-/

namespace EntityTables.Generated

open EntityTables.Syntax EntityTables.Schema

/-- What is generated for an entity besides its table: a record with its constructor, or the
conversions of a struct. -/
inductive EntityCode
  | record (type : RecordType) (constructor : Constructor)
  | conversion (conversion : Option Conversion)

structure TableCode where
  table : Table
  tableType : TableType
  sequence : SequenceTrait
  entity : EntityCode

/-- The code generated for the tables of a unit, to be placed in a container. -/
structure Code where
  container : String
  tables : List TableCode

def EntityCode.of (unit : SourceUnit) (config : Config) (container : String) (table : Table) :
    Except Error EntityCode :=
  match table.kind with
  | .interface => do
    let type ← RecordType.of table
    let constructor ← Constructor.of table container
    return .record type constructor
  | .struct => do
    let conversion ← (unit.indexed? table.key).mapM fun declaration =>
      Conversion.of table declaration config.allowReflection
    return .conversion conversion

def TableCode.of (unit : SourceUnit) (config : Config) (container : String) (table : Table) :
    Except Error TableCode := do
  let tableType ← TableType.of table
  let sequence ← SequenceTrait.of table
  let entity ← EntityCode.of unit config container table
  return ⟨table, tableType, sequence, entity⟩

namespace Code

def ofTables (unit : SourceUnit) (config : Config) (container : String) (tables : List Table) :
    Except Error Code := do
  return ⟨container, ← tables.mapM (TableCode.of unit config container)⟩

/-- The constructors, in the order of the tables. -/
def constructors (code : Code) : List Constructor :=
  code.tables.filterMap fun table =>
    match table.entity with
    | .record _ constructor => some constructor
    | .conversion _ => none

def pairs (code : Code) : List Call.Pair := code.constructors.map (·.pair)

def registry (code : Code) : Call.Registry := .ofPairs code.pairs

/-- A text in a sorted list, once. -/
def insertSorted (text : String) : List String → List String
  | [] => [text]
  | other :: rest =>
    if text = other then other :: rest
    else if text < other then text :: other :: rest
    else other :: insertSorted text rest

/-- The other modules that declare a table, sorted. -/
def importedModules (code : Code) : List String :=
  let modules := code.tables.map (·.table.key.module)
  (modules.filter (· ≠ code.container)).foldr insertSorted []

def importItem (path : Node) : Node :=
  .phrase .useItem [.phrase .attributes [allowing ["unused_imports"]], .empty .visibility,
    .ident "use", .phrase .useTree [path, .punct "::", .punct "*"], .punct ";"]

end Code

def EntityCode.items : EntityCode → List Node
  | .record type constructor =>
    type.code ++ [constructor.virtualItem, constructor.implementationItem]
  | .conversion own => own.toList.map Conversion.code

def TableCode.items (code : TableCode) : List Node :=
  code.tableType.code ++ code.sequence.code ++ code.entity.items

namespace Code

def items (code : Code) : List Node :=
  (code.importedModules.filterMap parsePath?).map importItem ++ code.tables.flatMap TableCode.items

def file (code : Code) : Node := .phrase .file (.empty .attributes :: code.items)

def header : String := "// @generated by tablegen. Do not edit.\n"

def text (code : Code) : String := code.file.print

def render (code : Code) : String := header ++ "\n" ++ code.text ++ "\n"

/-- The file that the tokens of the code are read as. -/
def reread? (code : Code) : Option Node := fileOf? code.file.lexed

end Code

/-- Generates the code for all tables of a unit. -/
def generate (unit : SourceUnit) (options : Options) (registry : Naming.Registry)
    (container : String) : Except Error Code := do
  let resolver ← Resolver.create unit options registry
  let tables ← ((resolveAll resolver).run .empty).1
  Code.ofTables unit resolver.config container tables

end EntityTables.Generated
