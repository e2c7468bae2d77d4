import EntityTables.Database.Table
import EntityTables.Generated.Code
import EntityTables.Generated.Value

/-!
# Running generated code

What generated code does when it runs: constructors and setters store properties, getters and key
helpers read them, conversions move the fields of a struct, and table types describe their tables.
-/

namespace EntityTables.Generated

open EntityTables.Syntax EntityTables.Schema
open EntityTables.Call (withoutRaw)

variable {α : Type}

def Getter.read (getter : Getter) (record : Properties α) : Option (Value α) :=
  match record.get? getter.storedType getter.property with
  | none => none
  | some value =>
    if getter.readsThrough then
      match value with
      | .present inner => some inner
      | _ => none
    else some value

def Setter.store (setter : Setter) (record : Properties α) (value : Value α) : Properties α :=
  record.set setter.property setter.storedType value

namespace RecordType

def getter? (type : RecordType) (name : String) : Option Getter :=
  type.getters.find? (·.property == name)

def setter? (type : RecordType) (property : String) : Option Setter :=
  type.setters.find? (·.property == property)

end RecordType

/-- What a variable of an implementation holds: the value of a parameter, or a word of flags. -/
inductive Variable (α : Type)
  | value (value : Value α)
  | word (word : UInt32)

/-- The variables of an implementation, its parameters in order. -/
structure Frame (α : Type) where
  contents : List (String × Variable α)

namespace Frame

/-- The variable that holds the record being made; it hides a parameter of its name. -/
def recordVariable : String := "record"

def of (names : List String) (values : List (Value α)) (flags : List String)
    (words : List UInt32) : Frame α where
  contents := (names.map withoutRaw ++ flags).zip (values.map .value ++ words.map .word)

/-- What a name holds; the mark of a raw identifier makes no difference. -/
def held? (frame : Frame α) (name : String) : Option (Variable α) :=
  if withoutRaw name == recordVariable then none else frame.contents.lookup (withoutRaw name)

def value? (frame : Frame α) (name : String) : Option (Value α) :=
  match frame.held? name with
  | some (.value value) => some value
  | _ => none

def word? (frame : Frame α) (name : String) : Option UInt32 :=
  match frame.held? name with
  | some (.word word) => some word
  | _ => none

end Frame

/-- Stores the value of a parameter; a wrapped one is stored only if it is present. -/
def Assignment.store? (assignment : Assignment) (record : Properties α) (value : Value α) :
    Option (Properties α) :=
  let parameter := assignment.parameter
  let stored (value : Value α) := record.set parameter.name parameter.storedType value
  if parameter.wrapped then
    match value with
    | .present inner => some (stored inner)
    | .absent => some record
    | _ => none
  else some (stored value)

/-- Runs an assignment; `none` if a variable does not hold what the code expects. -/
def Assignment.run (frame : Frame α) (record : Properties α) (assignment : Assignment) :
    Option (Properties α) := do
  let word ← frame.word? assignment.flag
  if word &&& assignment.mask == 0 then return record
  assignment.store? record (← frame.value? assignment.parameter.name)

/-- Runs an implementation on arguments and words of flags, one for each of its parameters. -/
def Constructor.run (constructor : Constructor) (tableName : String) (arguments : List (Value α))
    (words : List UInt32) : Option (Properties α) :=
  let implementation := constructor.pair.implementation
  let frame : Frame α :=
    .of (implementation.parameters.map (·.name)) arguments implementation.flags words
  constructor.assignments.foldlM (Assignment.run frame) (EntityRecord.empty tableName)

def argumentFor (parameter : Call.ImplementationParameter) : Option (Value α) → Value α
  | some value => if parameter.wrapped then .present value else value
  | none => .absent

abbrev Fields (α : Type) := List (String × Value α)

/-- Moves the fields of a struct into a record; `none` if one is missing. -/
def Conversion.intoRecord (conversion : Conversion) (tableName : String) (fields : Fields α) :
    Option (Properties α) :=
  conversion.moved.foldlM (fun record field =>
    (fields.lookup field.name).map (record.set field.name field.type))
    (EntityRecord.empty tableName)

/-- Takes fields from a record, up to the first that is missing or has another type. -/
def takeFields (record : Properties α) : List MovedField → Option (Fields α)
  | [] => some []
  | field :: rest =>
    match record.take field.type field.name with
    | (some value, record) => (takeFields record rest).map ((field.name, value) :: ·)
    | (none, _) => none

/-- The struct that a record gives, with `fill` for the fields that take their default. -/
def Conversion.fromRecord? (conversion : Conversion) (fill : String → Value α)
    (record : Properties α) : Option (Fields α) := do
  let defaulted ← conversion.defaulted
  let taken ← takeFields record conversion.moved
  return taken ++ defaulted.map fun name => (name, fill name)

def ColumnAccessor.describe (types : List TableType) (sqlText : SqlTypeRef → String)
    (tableName : String) (accessor : ColumnAccessor) : Database.Column :=
  let column := Database.Column.new tableName accessor.column (sqlText accessor.sqlType)
  let column := if accessor.primaryKey then column.primaryKey else column
  let column := if accessor.nullable then column.nullable else column
  match accessor.reference with
  | none => column
  | some key =>
    let target := (types.find? (·.name == key.tableType)).map (·.tableName)
    column.references (target.getD "") key.column

/-- The table that a table type describes, among other table types. -/
def TableType.describe (types : List TableType) (sqlText : SqlTypeRef → String)
    (type : TableType) : Database.Table where
  name := type.tableName
  aliasName := type.aliasName
  catalog := type.catalog
  schema := type.schema
  columns := type.accessors.map fun accessor =>
    (accessor.describe types sqlText type.tableName).info

namespace Code

def recordTypes (code : Code) : List RecordType :=
  code.tables.filterMap fun table =>
    match table.entity with
    | .record type _ => some type
    | .conversion _ => none

def tableTypes (code : Code) : List TableType := code.tables.map (·.tableType)

def entity? (code : Code) (entity : String) : Option TableCode :=
  code.tables.find? (·.table.entity == entity)

end Code

end EntityTables.Generated
