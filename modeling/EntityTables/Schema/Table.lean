import EntityTables.Unit.Basic

/-!
# Tables

The resolved form of a declaration: its table with all names decided, and one column for each
property. The column of a reference holds the table it refers to and which of its columns is the
key, so a schema needs no look-up to be followed.
-/

namespace EntityTables.Schema

open EntityTables.Syntax

/-- The two kinds of entities: structs, and traits as interfaces. -/
inductive EntityKind
  | struct
  | interface
deriving DecidableEq, Repr, Inhabited

/-- The SQL type of a column: the path of its declaration and the type of its values. -/
structure SqlTypeRef where
  path : Node
  shape : SqlTypeShape
  valueType : Node
deriving Repr, Inhabited

/-- A table with columns of type `γ`. -/
structure TableOf (γ : Type) where
  key : Key
  entity : String
  kind : EntityKind
  name : String
  aliasName : Option String
  catalog : Option String
  schema : Option String
  typeName : String
  sequenceName : String
  ignoredProperties : List String
  columns : List γ
deriving Repr, Inhabited

structure ReferenceTo (γ : Type) where
  table : TableOf γ
  primaryKey : Nat
deriving Repr

structure Column where
  property : String
  propertyType : Node
  name : String
  propertyName : String
  primaryKey : Bool
  sqlType : SqlTypeRef
  mutable : Bool
  nullable : Bool
  reference : Option (ReferenceTo Column)

abbrev Table := TableOf Column

abbrev Reference := ReferenceTo Column

def ReferenceTo.keyColumn? (reference : Reference) : Option Column :=
  reference.table.columns[reference.primaryKey]?

theorem sizeOf_keyColumn_lt {reference : Reference} {column : Column}
    (h : reference.keyColumn? = some column) : sizeOf column < sizeOf reference := by
  obtain ⟨table, primaryKey⟩ := reference
  have member : column ∈ table.columns := List.mem_of_getElem? h
  have inList := List.sizeOf_lt_of_mem member
  obtain ⟨key, entity, kind, name, aliasName, catalog, schema, typeName, sequenceName, ignored,
    columns⟩ := table
  simp only [ReferenceTo.mk.sizeOf_spec, TableOf.mk.sizeOf_spec] at inList ⊢
  omega

namespace Column

theorem sizeOf_reference_lt {column : Column} {reference : Reference}
    (h : column.reference = some reference) : sizeOf reference < sizeOf column := by
  obtain ⟨property, propertyType, name, propertyName, primaryKey, sqlType, mutable, nullable,
    own⟩ := column
  simp only at h
  subst h
  simp only [Column.mk.sizeOf_spec, Option.some.sizeOf_spec]
  omega

def isReference (column : Column) : Bool := column.reference.isSome

def bound (column : Column) : Column :=
  match _h : column.reference with
  | none => column
  | some reference =>
    match _hk : reference.keyColumn? with
    | none => column
    | some key => key.bound
termination_by sizeOf column
decreasing_by
  exact Nat.lt_trans (sizeOf_keyColumn_lt _hk) (sizeOf_reference_lt _h)

end Column

namespace TableOf

/-- The columns of the primary key, in order. -/
def primaryKeys (table : Table) : List Column := table.columns.filter (·.primaryKey)

def column? (table : Table) (name : String) : Option Column :=
  table.columns.find? (·.name == name)

def columnFor? (table : Table) (property : String) : Option Column :=
  table.columns.find? (·.property == property)

/-- The name of the table with its catalog and schema, as far as it has them. -/
def qualifiedName (table : Table) : String :=
  ".".intercalate (table.catalog.toList ++ table.schema.toList ++ [table.name])

end TableOf

end EntityTables.Schema
