import EntityTables.Generated.Execution
import EntityTables.Generated.Run

/-!
# An example: staff

Departments, employees and projects as entities, the code that is generated for them, and what their
records show when that code runs.
-/

namespace EntityTables.Example

open EntityTables.Generated EntityTables.Syntax

def source : String :=
  r#"
#[tablegen_config(allow_reflection = true, default_schema = "hr")]
pub struct Config;

pub struct MoneySqlType;

impl SqlType<i64> for MoneySqlType {
    fn type_name(&self) -> &'static str { "money" }
}

pub enum Level { Junior, Senior }

#[table]
pub trait Department: Entity {
    #[primary_key]
    fn id(&self) -> i32;
    fn name(&self) -> String;
    fn set_name(&mut self, value: String);
}

#[table(name = "staff")]
pub trait Employee: Entity {
    #[primary_key]
    fn id(&self) -> i32;
    fn name(&self) -> String;
    fn manager(&self) -> Option<String>;
    #[references]
    fn department(&self) -> Box<dyn Department>;
    #[references]
    fn backup(&self) -> Option<Box<dyn Department>>;
}

#[table]
pub struct Project {
    #[primary_key]
    pub id: i64,
    pub title: String,
    #[column(sql_type = "MoneySqlType")]
    pub budget: Option<i64>,
    pub level: Level,
    #[column(ignore)]
    pub notes: String,
    pub marker: PhantomData<u8>,
}
"#

def container : String := "crate::generated"

/-- The generated code, unless something is wrong with the declarations. -/
def generated : Except Error Code := do
  let unit ← SourceUnit.empty.addTexts [("crate::model", source)]
  Generated.generate unit .none .empty container

def code : Code := generated.toOption.getD ⟨container, []⟩

inductive Level
  | junior
  | senior
deriving DecidableEq, Repr

inductive Plain
  | number (value : Int)
  | text (value : String)
  | level (value : Level)
deriving DecidableEq, Repr

abbrev Record := Properties Plain

def number (value : Int) : Value Plain := .plain (.number value)

def text (value : String) : Value Plain := .plain (.text value)

def optional : Option (Value Plain) → Value Plain
  | some value => .present value
  | none => .absent

def numberOf? : Value Plain → Option Int
  | .plain (.number value) => some value
  | _ => none

def textOf? : Value Plain → Option String
  | .plain (.text value) => some value
  | _ => none

def recordOf? : Value Plain → Option Record
  | .record content => some content
  | _ => none

/-- The text of an SQL type; the one for amounts is declared beside the entities. -/
def sqlText (name : String) : String :=
  if name == "MoneySqlType" then "money" else (Schema.builtInText? name).getD ""

/-- The SQL type that a call makes of the type that it is given, or of a reference to it. -/
def sqlType? : Node → Option (Datum Plain)
  | .phrase .callExpr [_, _, .group .paren [argument]] =>
    let path? : Option Node :=
      match argument with
      | .phrase .pathExpr [_, path] => some path
      | .phrase .referenceExpr [_, _, .phrase .pathExpr [_, path]] => some path
      | _ => none
    (path?.bind (·.lastName?)).map fun name => .sqlType (sqlText name)
  | _ => none

def program : Program Plain where
  items := code.items
  constant _ _ := none
  word? _ := none
  fill _ := ⟨.empty .inferType, text ""⟩
  other := sqlType?

/-- Calls do not nest deeper in this program. -/
def depth : Nat := 8

def tables : List Database.Table :=
  code.tables.filterMap fun table => program.table? depth table.tableType.selfType

def constructor? (entity : String) : Option Generated.Constructor :=
  code.constructors.find? (·.entity == entity)

def read? (entity method : String) (record : Record) : Option (Value Plain) :=
  let type := recordType entity
  (program.call? depth (.own type method) [.value type (.record record)]).bind Datum.content?

def run? (entity : String) (arguments : List (Value Plain)) (words : List UInt32) : Option Record :=
  (constructor? entity).bind fun constructor =>
    (program.call? depth (.function constructor.pair.implementation.name)
      (arguments.map .passing ++ words.map .word)).bind Datum.record?

/-- Makes a record with some properties supplied, as a redirected call does. -/
def make? (entity : String) (supplied : List (String × Value Plain)) : Option Record :=
  (constructor? entity).bind fun constructor =>
    let implementation := constructor.pair.implementation
    let positions := supplied.filterMap fun (name, _) => constructor.pair.virtual.position? name
    let arguments := implementation.parameters.map fun parameter =>
      argumentFor parameter (supplied.lookup parameter.name)
    run? entity arguments (implementation.encoding.encode positions)

structure DepartmentView where
  id : Option Int
  name : Option String
  set : List String

def viewDepartment (record : Record) : DepartmentView where
  id := (read? "Department" "id" record).bind numberOf?
  name := (read? "Department" "name" record).bind textOf?
  set := record.properties

/-- What an employee shows; the manager is set or not, and may be nobody. -/
structure EmployeeView where
  id : Option Int
  name : Option String
  manager : Option (Option String)
  department : Option DepartmentView
  departmentId : Option Int
  backup : Option DepartmentView
  backupId : Option Int
  set : List String
  table : String
  shown : String

def viewEmployee (record : Record) : EmployeeView :=
  let read (method : String) := read? "Employee" method record
  let manager (value : Value Plain) : Option String :=
    match value with
    | .present inner => textOf? inner
    | _ => none
  { id := (read "id").bind numberOf?
    name := (read "name").bind textOf?
    manager := (read "manager").map manager
    department := ((read "department").bind recordOf?).map viewDepartment
    departmentId := (read "department_id").bind numberOf?
    backup := ((read "backup").bind recordOf?).map viewDepartment
    backupId := (read "backup_id").bind numberOf?
    set := record.properties
    table := record.table
    shown := "EmployeeRecord \x7b record: " ++ record.describe ++ " \x7d" }

structure Project where
  id : Int
  title : String
  budget : Option Int
  level : Level
  notes : String

def Project.fields (project : Project) : List (String × Value Plain) :=
  [("id", number project.id), ("title", text project.title),
    ("budget", optional (project.budget.map number)), ("level", .plain (.level project.level)),
    ("notes", text project.notes), ("marker", .absent)]

def Project.ofFields? (fields : List (String × Value Plain)) : Option Project := do
  let level ← match ← fields.lookup "level" with
    | .plain (.level level) => some level
    | _ => none
  let budget ← match ← fields.lookup "budget" with
    | .present value => (numberOf? value).map some
    | .absent => some none
    | _ => none
  return {
    id := ← numberOf? (← fields.lookup "id")
    title := ← textOf? (← fields.lookup "title")
    budget
    level
    notes := ← textOf? (← fields.lookup "notes") }

/-- The type of a field of projects that is a column. -/
def Project.fieldType? (field : String) : Option Node :=
  (code.entity? "Project").bind fun table =>
    (table.table.columns.find? (·.property == field)).map (·.propertyType)

def projectType : Node := namedType "Project"

def Project.toRecord? (project : Project) : Option Record := do
  let typed (field : String × Value Plain) : String × Typed Node (Value Plain) :=
    (field.1, ⟨(fieldType? field.1).getD (.empty .inferType), field.2⟩)
  let datum ← program.call? depth (.own projectType "into_record")
    [.object projectType (project.fields.map typed)]
  datum.bagAt? []

def Project.ofRecord? (record : Record) : Option Project :=
  match program.call? depth (.own projectType "from_record") [.bag record] with
  | some (.something (.object _ fields)) =>
    ofFields? (fields.map fun (name, typed) => (name, typed.value))
  | _ => none

end EntityTables.Example
