import EntityTables.Marker.Argument
import EntityTables.Unit.Key

/-!
# Errors

Everything that can go wrong between reading sources and redirecting calls, each cause with what its
message names.
-/

namespace EntityTables

inductive ItemKind
  | struct
  | tupleStruct
  | unitStruct
  | trait
  | enum
  | union
  | typeAlias
  | constant
  | static
deriving DecidableEq, Repr, Inhabited

def ItemKind.describe : ItemKind → String
  | .struct => "a struct"
  | .tupleStruct => "a tuple struct"
  | .unitStruct => "a unit struct"
  | .trait => "a trait"
  | .enum => "an enum"
  | .union => "a union"
  | .typeAlias => "a type alias"
  | .constant => "a constant"
  | .static => "a static"

inductive Requirement
  | configuration
  | referencedTable
  | sqlType
  | table
  | entity
deriving DecidableEq, Repr

def Requirement.describe : Requirement → String
  | .configuration => "a unit struct carrying #[tablegen_config]"
  | .referencedTable => "a #[table] trait extending `Entity`"
  | .sqlType => "a unit struct implementing `SqlType` or `SqlTypeFactory`"
  | .table => "a #[table] declaration"
  | .entity => "a struct or a trait extending `Entity`"

inductive NamingSide
  | database
  | coding
deriving DecidableEq, Repr

def NamingSide.describe : NamingSide → String
  | .database => "database"
  | .coding => "coding"

inductive ConfigError
  | strategyNotFound (name : String)
  | strategyWrongShape (name : String) (expected actual : NamingSide)
  | unknownOption (key : String)
  | invalidValue (key value : String)
  | duplicateConfig (key : String)
deriving DecidableEq, Repr

def ConfigError.message : ConfigError → String
  | .strategyNotFound name => s!"naming strategy `{name}` is not registered"
  | .strategyWrongShape name expected actual =>
    let actual := actual.describe
    let expected := expected.describe
    s!"naming strategy `{name}` is a {actual} naming strategy, expected a {expected} one"
  | .unknownOption key => s!"unknown option `{key}`"
  | .invalidValue key value =>
    s!"invalid value `{value}` for option `{key}`, expected `true` or `false`"
  | .duplicateConfig key =>
    "only one #[tablegen_config] is allowed per compilation unit, found another on `" ++ key ++ "`"

inductive CallError
  | unknownParameter (function name : String)
  | duplicateArgument (function name : String)
  | positionalAfterNamed (function : String)
  | tooManyArguments (function : String) (expected found : Nat)
deriving DecidableEq, Repr

def CallError.message : CallError → String
  | .unknownParameter function name => s!"`{function}` has no parameter named `{name}`"
  | .duplicateArgument function name =>
    s!"parameter `{name}` of `{function}` is supplied more than once"
  | .positionalAfterNamed function =>
    s!"positional argument after named arguments in call to `{function}`"
  | .tooManyArguments function expected found =>
    s!"`{function}` takes {expected} arguments but {found} were supplied"

/-- Why a file cannot be read or written. -/
inductive FileFault
  | notFound
  | isDirectory
deriving DecidableEq, Repr

/-- A property of a declaration, as messages name it. -/
structure PropertyRef where
  declaration : String
  property : String
deriving DecidableEq, Repr

/-- The errors of reading, resolving, generating and redirecting. -/
inductive Error
  | unsupportedKind (declaration : String) (kind : ItemKind) (expected : Requirement)
  | tupleStruct (declaration : String)
  | missingEntityBase (declaration : String)
  | notSingleton (sqlType : String)
  | notSqlType (sqlType : String)
  | unknownSqlType (sqlType : String)
  | ambiguousSqlType (sqlType : String) (candidates : List String)
  | invalidIdentifier (declaration name : String)
  | rawFunctionName (name : String)
  | conflictingMarkers (at_ : PropertyRef)
  | cannotInferType (at_ : PropertyRef) (type : String)
  | referenceOnClass (at_ : PropertyRef)
  | notATable (at_ : PropertyRef) (target : String)
  | targetNotInterface (at_ : PropertyRef) (target : String)
  | noPrimaryKey (at_ : PropertyRef) (target : String)
  | compoundPrimaryKey (at_ : PropertyRef) (target : String) (count : Nat)
  | ambiguousReference (at_ : PropertyRef) (target : String) (candidates : List String)
  | circularReference (path : List String)
  | config (error : ConfigError)
  | arguments (error : Marker.ArgumentError)
  | call (error : CallError)
  | unreadable (path : String)
  | file (path : String) (fault : FileFault)

inductive ErrorCategory
  | shape
  | conflict
  | inference
  | referenceIntegrity
  | graph
  | configuration
  | marker
  | call
  | inputOutput
deriving DecidableEq, Repr

namespace Error

def category : Error → ErrorCategory
  | unsupportedKind .. => .shape
  | tupleStruct .. => .shape
  | missingEntityBase .. => .shape
  | notSingleton .. => .shape
  | notSqlType .. => .shape
  | unknownSqlType .. => .shape
  | ambiguousSqlType .. => .shape
  | invalidIdentifier .. => .shape
  | rawFunctionName .. => .shape
  | conflictingMarkers .. => .conflict
  | cannotInferType .. => .inference
  | referenceOnClass .. => .referenceIntegrity
  | notATable .. => .referenceIntegrity
  | targetNotInterface .. => .referenceIntegrity
  | noPrimaryKey .. => .referenceIntegrity
  | compoundPrimaryKey .. => .referenceIntegrity
  | ambiguousReference .. => .referenceIntegrity
  | circularReference .. => .graph
  | config .. => .configuration
  | arguments .. => .marker
  | call .. => .call
  | unreadable .. => .inputOutput
  | file .. => .inputOutput

def referenceText (at_ : PropertyRef) (target : String) : String :=
  let property := at_.property
  let declaration := at_.declaration
  s!"property `{property}` of `{declaration}` references `{target}`, which "

def message : Error → String
  | unsupportedKind declaration kind expected =>
    let kind := kind.describe
    let expected := expected.describe
    s!"`{declaration}` is {kind}, expected {expected}"
  | tupleStruct declaration => s!"`{declaration}` is a tuple struct, tables require named fields"
  | missingEntityBase declaration => s!"trait entity `{declaration}` must extend `Entity`"
  | notSingleton sqlType =>
    s!"SQL type `{sqlType}` must be a unit struct so it can be used as a singleton"
  | notSqlType sqlType => s!"SQL type `{sqlType}` must implement `SqlType<T>` or `SqlTypeFactory`"
  | unknownSqlType sqlType =>
    s!"SQL type `{sqlType}` is neither built in nor declared in the compilation unit"
  | ambiguousSqlType sqlType candidates =>
    s!"SQL type `{sqlType}` is ambiguous between " ++ ", ".intercalate candidates
  | invalidIdentifier declaration name =>
    s!"`{name}`, generated for `{declaration}`, is not a valid Rust identifier"
  | rawFunctionName name => s!"`{name}` cannot be the name of a virtual function"
  | conflictingMarkers ⟨declaration, property⟩ =>
    s!"property `{property}` of `{declaration}` cannot be both a column and a reference"
  | cannotInferType ⟨declaration, property⟩ type =>
    s!"cannot infer a SQL type for property `{property}: {type}` of `{declaration}`, specify it " ++
      "manually with #[column(sql_type = \"..\")]"
  | referenceOnClass ⟨declaration, property⟩ =>
    s!"property `{property}` of `{declaration}` is a reference, but references are only " ++
      "supported on trait entities"
  | notATable at_ target => referenceText at_ target ++ "is not a table"
  | targetNotInterface at_ target => referenceText at_ target ++ "is not a trait entity"
  | noPrimaryKey at_ target => referenceText at_ target ++ "has no primary key"
  | compoundPrimaryKey at_ target count =>
    referenceText at_ target ++ s!"has a compound primary key of {count} columns"
  | ambiguousReference at_ target candidates =>
    referenceText at_ target ++ "is ambiguous between " ++ ", ".intercalate candidates
  | circularReference path => "circular reference: " ++ " --> ".intercalate path
  | config error => error.message
  | arguments error => error.message
  | call error => error.message
  | unreadable path => s!"failed to parse {path}"
  | file path .notFound => s!"I/O error on {path}: not found"
  | file path .isDirectory => s!"I/O error on {path}: is a directory"

end Error

end EntityTables
