import EntityTables.Example.Staff

/-!
# A program for the example

Makes records by calls and by implementations, changes them and converts them. It keeps what it makes
in slots; a department and the record of a project can be used only once.
-/

namespace EntityTables.Example

open EntityTables.Generated EntityTables.Syntax

inductive Slot
  | department (record : Record)
  | employee (record : Record)
  | project (record : Record)
  | used

inductive Step
  | research
  | department (id : Int)
  | hire (name : String) (department : Nat)
  | contractor (id : Int)
  | runDepartment (id : Option Int) (name : Option String) (flag : UInt32)
  | runEmployee (id : Option Int) (name manager : Option String) (department backup : Option Nat)
      (flag : UInt32)
  | callVirtual
  | rename (slot : Nat) (name : String)
  | rewrap (slot : Nat)
  | project (project : Project)
  | projectRecord (set : List String)
  | restore (slot : Nat)
  | tables
  | unknown

/-- Why a step fails. -/
inductive Fault
  | slot
  | step
  | notRedirected

inductive Answer
  | department (slot : Option Nat) (view : DepartmentView)
  | employee (slot : Nat) (view : EmployeeView)
  | project (slot : Nat) (table : String) (set : List String)
  | restored (project : Option Project)
  | tables (tables : List Database.Table)
  | fault (fault : Fault)

abbrev Slots := List Slot

namespace Slots

def takeDepartment (slots : Slots) (index : Nat) : Option (Record × Slots) :=
  match slots[index]? with
  | some (.department record) => some (record, slots.set index .used)
  | _ => none

def addDepartment (slots : Slots) (record : Record) : Slots × Answer :=
  (slots ++ [.department record], .department slots.length (viewDepartment record))

def addEmployee (slots : Slots) (record : Record) : Slots × Answer :=
  (slots ++ [.employee record], .employee slots.length (viewEmployee record))

def addProject (slots : Slots) (record : Record) : Slots × Answer :=
  (slots ++ [.project record], .project slots.length record.table record.properties)

def adding (slots : Slots) (add : Slots → Record → Slots × Answer) :
    Option Record → Slots × Answer
  | some record => add slots record
  | none => (slots, .fault .step)

/-- Takes the department of a slot, if one is named, as an optional value. -/
def takeOptional (slots : Slots) : Option Nat → Option (Value Plain × Slots)
  | none => some (.absent, slots)
  | some index =>
    (slots.takeDepartment index).map fun (record, slots) => (.present (.record record), slots)

end Slots

def nextId : Int := 7

/-- The record of a project with some properties, each set to a fixed value. A budget may be set in a
type that is not that of the field. -/
def projectRecord? (set : List String) : Option Record :=
  let put (record : Record) (name : String) : Option Record :=
    if name == "budget_plain" then
      (Project.fieldType? "id").map fun type => record.set "budget" type (number 5)
    else
      (Project.fieldType? name).bind fun type =>
        let store (value : Value Plain) := some (record.set name type value)
        match name with
        | "id" => store (number 9)
        | "title" => store (text "t")
        | "budget" => store (.present (number 5))
        | "level" => store (.plain (.level .senior))
        | _ => none
  (code.entity? "Project").bind fun table =>
    set.foldlM put (EntityRecord.empty table.tableType.tableName)

/-- Runs the constructor of employees on what two slots hold. The slots are emptied in order. -/
def runEmployee (slots : Slots) (id : Option Int) (name manager : Option String)
    (department backup : Option Nat) (flag : UInt32) : Slots × Answer :=
  match slots.takeOptional department with
  | none => (slots, .fault .slot)
  | some (department, slots) =>
    match slots.takeOptional backup with
    | none => (slots, .fault .slot)
    | some (backup, slots) =>
      let arguments := [optional (id.map number), optional (name.map text),
        optional (manager.map text), department, backup]
      slots.adding Slots.addEmployee (run? "Employee" arguments [flag])

def Slots.step (slots : Slots) : Step → Slots × Answer
  | .research =>
    slots.adding addDepartment (make? "Department" [("id", number 10), ("name", text "Research")])
  | .department id => slots.adding addDepartment (make? "Department" [("id", number id)])
  | .hire name department =>
    match slots.takeDepartment department with
    | none => (slots, .fault .slot)
    | some (record, slots) =>
      slots.adding addEmployee (make? "Employee"
        [("department", .record record), ("name", text name), ("id", number nextId)])
  | .contractor id =>
    slots.adding addEmployee (make? "Employee" [("id", number id), ("manager", .absent)])
  | .runDepartment id name flag =>
    slots.adding addDepartment
      (run? "Department" [optional (id.map number), optional (name.map text)] [flag])
  | .runEmployee id name manager department backup flag =>
    runEmployee slots id name manager department backup flag
  | .callVirtual => (slots, .fault .notRedirected)
  | .rename index name =>
    match slots[index]? with
    | some (.department record) =>
      match program.change? depth (recordType "Department") "set_name" record (text name) with
      | some record =>
        (slots.set index (.department record), .department none (viewDepartment record))
      | none => (slots, .fault .slot)
    | _ => (slots, .fault .slot)
  | .rewrap index =>
    match slots.takeDepartment index with
    | none => (slots, .fault .slot)
    | some (record, slots) => slots.addDepartment record
  | .project project =>
    slots.adding addProject project.toRecord?
  | .projectRecord set => slots.adding addProject (projectRecord? set)
  | .restore index =>
    match slots[index]? with
    | some (.project record) =>
      (slots.set index .used, .restored (Project.ofRecord? record))
    | _ => (slots.set index .used, .fault .slot)
  | .tables => (slots, .tables Example.tables)
  | .unknown => (slots, .fault .step)

end EntityTables.Example
