import EntityTables.Schema.Table
import EntityTables.Syntax.Compose
import EntityTables.Syntax.Printer
import EntityTables.Unit.Lookup

/-!
# SQL types of columns

The SQL type of a column is the one its marker names, or else the one that belongs to its type: a
built-in one for the common types, and the one for enums for a declared enum.
-/

namespace EntityTables.Schema

open EntityTables.Syntax

/-- A built-in SQL type: the name of the type of its values, its own name, and its text. -/
structure BuiltInType where
  valueName : String
  typeName : String
  sql : String
deriving Repr

def builtInTypes : List BuiltInType :=
  [⟨"bool", "BooleanSqlType", "boolean"⟩, ⟨"i16", "ShortSqlType", "smallint"⟩,
    ⟨"i32", "IntSqlType", "int"⟩, ⟨"i64", "LongSqlType", "bigint"⟩,
    ⟨"f32", "FloatSqlType", "float"⟩, ⟨"f64", "DoubleSqlType", "double"⟩,
    ⟨"String", "VarcharSqlType", "varchar"⟩, ⟨"Vec<u8>", "BytesSqlType", "bytea"⟩,
    ⟨"SystemTime", "TimestampSqlType", "timestamp"⟩]

def enumTypeName : String := "EnumSqlType"

def enumTypeText : String := "varchar"

def builtInText? (typeName : String) : Option String :=
  if typeName == enumTypeName then some enumTypeText
  else (builtInTypes.find? (·.typeName == typeName)).map (·.sql)

def bytesType : Node :=
  pathType (pathOf [.phrase .segment
    [.ident "Vec", .phrase .genericArgs [.punct "<", namedType "u8", .punct ">"]]])

def BuiltInType.valueType (type : BuiltInType) : Node :=
  if type.valueName == "Vec<u8>" then bytesType else namedType type.valueName

def builtInPath (name : String) : Node :=
  absolutePath [segmentOf "tablegen", segmentOf "types", segmentOf name]

def valueTypeName? (type : Node) : Option String :=
  (type.plainTypePath?.bind (·.segments.getLast?)).bind fun last =>
    if last.isBareSegment then some last.segmentName
    else if last.segmentName == "Vec" then
      let content := last.angleArguments?.bind List.head?
      if (content.bind Node.plainTypePath?).bind Node.soleName? == some "u8" then some "Vec<u8>"
      else none
    else none

def inferBuiltIn? (type : Node) : Option SqlTypeRef :=
  (valueTypeName? type).bind fun name =>
    (builtInTypes.find? (·.valueName == name)).map fun known =>
      ⟨builtInPath known.typeName, .fixed, type⟩

def inferEnum? (unit : SourceUnit) (module : String) (type : Node) : Option SqlTypeRef :=
  type.typePath?.bind fun path =>
    match unit.lookup path module with
    | .found declaration =>
      if declaration.kind = .enum then some ⟨builtInPath enumTypeName, .factory, type⟩ else none
    | _ => none

/-- The SQL type that belongs to the type of a property, given without `Option`. -/
def inferSqlType (unit : SourceUnit) (owner : Declaration) (property : Property)
    (valueType : Node) : Except Error SqlTypeRef :=
  match (inferBuiltIn? valueType).or (inferEnum? unit owner.key.module valueType) with
  | some sqlType => .ok sqlType
  | none => .error (.cannotInferType ⟨owner.key.text, property.name⟩ property.type.print)

/-- Whether names can mean a built-in SQL type: one alone, or below this tool. -/
def isBuiltInScope (names : List String) : Bool :=
  match names with
  | [_] => true
  | front :: _ :: _ => front == "tablegen"
  | [] => false

def builtInSqlType (path valueType : Node) : Except Error SqlTypeRef :=
  let unknown := Error.unknownSqlType path.pathText
  match path.lastName? with
  | none => .error unknown
  | some name =>
    if !isBuiltInScope path.pathNames then .error unknown
    else if name == enumTypeName then .ok ⟨builtInPath name, .factory, valueType⟩
    else
      match builtInTypes.find? (·.typeName == name) with
      | some known => .ok ⟨builtInPath name, .fixed, known.valueType⟩
      | none => .error unknown

/-- The SQL type that a declaration implements; the declaration has to be a unit struct. -/
def declaredSqlType (unit : SourceUnit) (declaration : Declaration) (valueType : Node) :
    Except Error SqlTypeRef :=
  let key := declaration.key.text
  match declaration.kind with
  | .unitStruct =>
    match unit.sqlTypeImpl? declaration, declaration.key.path? with
    | none, _ => .error (.notSqlType key)
    | some _, none => .error (.unreadable key)
    | some impl, some path =>
      let own := match impl.shape with
        | .fixed => impl.valueType.getD valueType
        | .factory => valueType
      .ok ⟨path, impl.shape, own⟩
  | .struct => .error (.notSingleton key)
  | .tupleStruct => .error (.notSingleton key)
  | kind => .error (.unsupportedKind key kind .sqlType)

def explicitSqlType (unit : SourceUnit) (owner : Declaration) (path valueType : Node) :
    Except Error SqlTypeRef :=
  match unit.lookup path owner.key.module with
  | .found declaration => declaredSqlType unit declaration valueType
  | .missing => builtInSqlType path valueType
  | .ambiguous candidates =>
    .error (.ambiguousSqlType path.pathText (candidates.map (·.key.text)))

end EntityTables.Schema
