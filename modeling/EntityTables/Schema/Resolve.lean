import EntityTables.Options
import EntityTables.Schema.Reference
import EntityTables.Schema.SqlType

/-!
# Resolving tables

Decides the names and columns of tables. The target of a reference is resolved before its column;
meeting a declaration again that is still being resolved is an error that names the cycle. Tables are
kept once they are resolved, and nothing is kept of a failure.
-/

namespace EntityTables.Schema

open EntityTables.Syntax

/-- What the resolution of tables depends on. -/
structure Resolver where
  unit : SourceUnit
  config : Config
  database : Naming.DatabaseNaming
  coding : Naming.CodingNaming

/-- What a resolver knows about a declaration that it met: it is being resolved, or its table. -/
inductive Slot
  | inProgress
  | resolved (table : Table)

/-- What a resolver keeps: the slots of declarations by their keys, and the declarations that are
being resolved, the innermost first. Those are the ones whose slots say so. -/
structure Session where
  slot? : Key → Option Slot
  stack : List Declaration
  distinct : (stack.map (·.key)).Nodup
  inProgress_iff : ∀ key, slot? key = some .inProgress ↔ key ∈ stack.map (·.key)

abbrev Session.During (stack : List Declaration) : Type :=
  { session : Session // session.stack = stack }

/-- A step of resolution: it may fail, and keeps what it found out even then. -/
abbrev Resolving (σ α : Type) := ExceptT Error (StateM σ) α

namespace Resolver

def create (unit : SourceUnit) (options : Options) (registry : Naming.Registry) :
    Except Error Resolver := do
  let config := Config.merge options (unit.config.map (·.marker))
  let database ← (registry.database config.databaseNaming).mapError .config
  let coding ← (registry.coding config.codingNaming).mapError .config
  return ⟨unit, config, database.strategy, coding.strategy⟩

end Resolver

namespace Session

def empty : Session where
  slot? _ := none
  stack := []
  distinct := List.nodup_nil
  inProgress_iff := by simp

/-- The table of a key, if it was resolved. -/
def table? (session : Session) (key : Key) : Option Table :=
  match session.slot? key with
  | some (.resolved table) => some table
  | _ => none

theorem not_mem_of_slot?_eq_none {stack : List Declaration} (session : During stack) {key : Key}
    (fresh : session.1.slot? key = none) : key ∉ stack.map (·.key) := by
  intro member
  rw [← session.2, ← session.1.inProgress_iff, fresh] at member
  cases member

def put (slots : Key → Option Slot) (key : Key) (slot : Option Slot) : Key → Option Slot :=
  fun other => if other = key then slot else slots other

/-- Begins to resolve a declaration that was not met. -/
def enter {stack : List Declaration} (session : During stack) (declaration : Declaration)
    (fresh : session.1.slot? declaration.key = none) : During (declaration :: stack) where
  val := {
    slot? := put session.1.slot? declaration.key (some .inProgress)
    stack := declaration :: stack
    distinct := by
      have below := session.1.distinct
      rw [session.2] at below
      exact List.nodup_cons.mpr ⟨not_mem_of_slot?_eq_none session fresh, below⟩
    inProgress_iff := by
      intro key
      have below := session.1.inProgress_iff key
      rw [session.2] at below
      by_cases same : key = declaration.key
      · simp [put, same]
      · simp only [put, same, if_false, List.map_cons, List.mem_cons, false_or]
        exact below }
  property := rfl

/-- Ends the resolution of the innermost declaration, with its table unless it failed. -/
def leave {stack : List Declaration} {declaration : Declaration}
    (session : During (declaration :: stack)) (table : Option Table) : During stack where
  val := {
    slot? := put session.1.slot? declaration.key (table.map .resolved)
    stack := stack
    distinct := by
      have all := session.1.distinct
      rw [session.2] at all
      exact (List.nodup_cons.mp all).2
    inProgress_iff := by
      intro key
      have all := session.1.distinct
      have known := session.1.inProgress_iff key
      rw [session.2] at all known
      by_cases same : key = declaration.key
      · have notBelow := (List.nodup_cons.mp all).1
        cases table <;> simpa [put, same] using notBelow
      · simpa [put, same] using known }
  property := rfl

end Session

def entityKind (declaration : Declaration) : Except Error EntityKind :=
  let key := declaration.key.text
  match declaration.shape with
  | .struct _ _ => .ok .struct
  | .interface true _ => .ok .interface
  | .interface false _ => .error (.missingEntityBase key)
  | .other .tupleStruct => .error (.tupleStruct key)
  | .other kind => .error (.unsupportedKind key kind .entity)

def checkDeclaration (declaration : Declaration) : Except Error EntityKind := do
  let kind ← entityKind declaration
  for property in declaration.properties do
    if property.references.isSome then checkMarkers declaration property
  return kind

/-- A text that was given and is not empty. -/
def given? (text : Option String) : Option String := text.filter (· ≠ "")

/-- The properties of a declaration that become columns, in declaration order. -/
def eligibleProperties (declaration : Declaration) : List Property :=
  let ignored := (declaration.table.map (·.ignoreProperties)).getD []
  declaration.properties.filter fun property =>
    property.backed && !property.isIgnored && !ignored.contains property.name

/-- The properties in the order of constructor parameters; those that are no parameter follow. -/
def inParameterOrder (parameters : List String) (properties : List Property) : List Property :=
  parameters.filterMap (fun name => properties.find? (·.name == name)) ++
    properties.filter fun property => !parameters.contains property.name

/-- The properties of a declaration that become columns, in column order. -/
def orderedProperties (unit : SourceUnit) (declaration : Declaration) : List Property :=
  let eligible := eligibleProperties declaration
  match unit.constructorParameters? declaration with
  | some parameters => inParameterOrder parameters eligible
  | none => eligible

def plainColumn (resolver : Resolver) (owner : Declaration) (kind : EntityKind)
    (property : Property) : Except Error Column := do
  let marker := property.column
  let (valueType, nullable) := property.type.stripOption
  let sqlType ← match marker.bind (·.sqlType) with
    | some path => explicitSqlType resolver.unit owner path valueType
    | none => inferSqlType resolver.unit owner property valueType
  return {
    property := property.name
    propertyType := property.type
    name := (given? (marker.bind (·.name))).getD
      (resolver.database.columnName owner.name property.name)
    propertyName := (given? (marker.bind (·.propertyName))).getD
      (resolver.coding.columnName owner.name property.name)
    primaryKey := property.primaryKey
    sqlType
    mutable := kind == .struct || property.mutable
    nullable
    reference := none }

def referenceColumn (resolver : Resolver) (owner : Declaration) (property : Property)
    (target : Table) : Except Error Column := do
  let primaryKey ← keyPosition ⟨owner.key.text, property.name⟩ target
  let marker := property.references
  let reference : Reference := ⟨target, primaryKey⟩
  return {
    property := property.name
    propertyType := property.type
    name := (given? (marker.bind (·.name))).getD
      (resolver.database.referenceName owner.name property.name target)
    propertyName := (given? (marker.bind (·.propertyName))).getD
      (resolver.coding.referenceName owner.name property.name target)
    primaryKey := property.primaryKey
    sqlType := (reference.keyColumn?.map (·.bound.sqlType)).getD default
    mutable := property.mutable
    nullable := property.type.stripOption.2
    reference := some reference }

section Steps

variable {m : Type → Type} [Monad m] [MonadExceptOf Error m]

/-- The column of a property; `resolve` resolves the target of a reference. -/
def columnOf (resolver : Resolver) (resolve : Key → m Table) (owner : Declaration)
    (kind : EntityKind) (property : Property) : m Column :=
  if property.references.isSome then do
    ofExcept (checkMarkers owner property)
    let target ← ofExcept (referenceTarget resolver.unit owner property)
    let table ← resolve target.key
    ofExcept (referenceColumn resolver owner property table)
  else ofExcept (plainColumn resolver owner kind property)

def tableOf (resolver : Resolver) (owner : Declaration) (marker : Marker.Table) (kind : EntityKind)
    (columns : List Column) : Table where
  key := owner.key
  entity := owner.name
  kind
  name := (given? marker.name).getD (resolver.database.tableName owner.name)
  aliasName := marker.aliasName
  catalog := marker.catalog.or resolver.config.defaultCatalog
  schema := marker.schema.or resolver.config.defaultSchema
  typeName := (given? marker.typeName).getD (resolver.coding.typeName owner.name)
  sequenceName := (given? marker.sequenceName).getD (resolver.coding.sequenceName owner.name)
  ignoredProperties := marker.ignoreProperties
  columns

/-- The table of a declaration; `resolve` resolves the targets of its references. -/
def buildTable (resolver : Resolver) (resolve : Key → m Table) (owner : Declaration) : m Table :=
  match owner.table with
  | none => throw (Error.unsupportedKind owner.key.text owner.kind .table)
  | some marker => do
    let kind ← ofExcept (entityKind owner)
    let columns ← (orderedProperties resolver.unit owner).mapM
      (columnOf resolver resolve owner kind)
    return tableOf resolver owner marker kind columns

end Steps

/-- The declarations of a unit that are not being resolved. -/
def remaining (unit : SourceUnit) (stack : List Declaration) : List Declaration :=
  unit.declarations.filter fun declaration => declaration.key ∉ stack.map (·.key)

theorem remaining_length_lt {unit : SourceUnit} {stack : List Declaration} {key : Key}
    {declaration : Declaration} (found : unit.get? key = some declaration)
    (fresh : key ∉ stack.map (·.key)) :
    (remaining unit (declaration :: stack)).length < (remaining unit stack).length := by
  have isKey : declaration.key = key := by simpa using List.find?_some found
  have member : declaration ∈ remaining unit stack := by
    simp only [remaining, List.mem_filter, decide_eq_true_eq]
    exact ⟨List.mem_of_find?_eq_some found, isKey ▸ fresh⟩
  have split : remaining unit (declaration :: stack) =
      (remaining unit stack).filter fun other => other.key ≠ declaration.key := by
    simp only [remaining, List.filter_filter, List.map_cons, List.mem_cons, not_or,
      Bool.decide_and]
  rw [split]
  refine List.length_filter_lt_length_iff_exists.mpr ⟨declaration, member, ?_⟩
  simp

/-- The cycle that a declaration closes: the names on the stack from its first occurrence on. -/
def cycleFrom (key : Key) (stack : List Declaration) : List String :=
  (stack.reverse.dropWhile (·.key ≠ key)).map (·.name)

/-- Resolves the table of a key while some declarations are being resolved. -/
def resolveFrom (resolver : Resolver) (stack : List Declaration) (key : Key) :
    Resolving (Session.During stack) Table :=
  fun session =>
    match slot : session.1.slot? key with
    | some (.resolved table) => (.ok table, session)
    | some .inProgress => (.error (.circularReference (cycleFrom key stack)), session)
    | none =>
      match found : resolver.unit.get? key with
      | none => (.error (.unreadable key.text), session)
      | some declaration =>
        have isKey : declaration.key = key := by simpa using List.find?_some found
        have fresh : key ∉ stack.map (·.key) := Session.not_mem_of_slot?_eq_none session slot
        let entered := Session.enter session declaration (isKey ▸ slot)
        let resolve := resolveFrom resolver (declaration :: stack)
        let (result, after) := (buildTable resolver resolve declaration).run entered
        (result, Session.leave after result.toOption)
termination_by (remaining resolver.unit stack).length
decreasing_by exact remaining_length_lt found fresh

/-- Resolves the table of a declaration. -/
def resolveTable (resolver : Resolver) (key : Key) : Resolving Session Table :=
  fun session =>
    let (result, after) := resolveFrom resolver session.stack key ⟨session, rfl⟩
    (result, after.1)

/-- Resolves the tables of all declarations that are marked as tables, up to the first error. -/
def resolveAll (resolver : Resolver) : Resolving Session (List Table) :=
  resolver.unit.tables.mapM fun declaration => resolveTable resolver declaration.key

end EntityTables.Schema
