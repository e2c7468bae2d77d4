import EntityTables.Keyed
import EntityTables.Text.Quoted

/-!
# Records

The values of an entity by the names of its properties, each kept with its type. A property that was
never set is absent, which is not the same as one that holds nothing; a value is found only under the
type it was stored in.
-/

namespace EntityTables

structure Typed (τ ν : Type) where
  type : τ
  value : ν
deriving Repr

/-- The values of an entity of a table, by property in ascending order. -/
structure EntityRecord (τ ν : Type) where
  table : String
  values : List (String × Typed τ ν)
deriving Repr

namespace EntityRecord

variable {τ ν : Type}

/-- The record without any property. -/
def empty (table : String) : EntityRecord τ ν := ⟨table, []⟩

/-- Sets a property, whatever it held before. -/
def set (record : EntityRecord τ ν) (property : String) (type : τ) (value : ν) :
    EntityRecord τ ν :=
  { record with values := Keyed.insert record.values property ⟨type, value⟩ }

/-- The value of a property, if it is set and has the type. -/
def get? [DecidableEq τ] (record : EntityRecord τ ν) (type : τ) (property : String) : Option ν :=
  match Keyed.find? record.values property with
  | some typed => if typed.type = type then some typed.value else none
  | none => none

/-- The value of a property, and the record without it; a property that is not set or has another
type stays. -/
def take [DecidableEq τ] (record : EntityRecord τ ν) (type : τ) (property : String) :
    Option ν × EntityRecord τ ν :=
  match record.get? type property with
  | some value => (some value, { record with values := Keyed.erase record.values property })
  | none => (none, record)

def contains (record : EntityRecord τ ν) (property : String) : Bool :=
  Keyed.contains record.values property

/-- The properties that are set, in ascending order. -/
def properties (record : EntityRecord τ ν) : List String := Keyed.keys record.values

def size (record : EntityRecord τ ν) : Nat := record.values.length

def isEmpty (record : EntityRecord τ ν) : Bool := record.values.isEmpty

/-- How a record is shown: its table and its properties, without the values. -/
def describe (record : EntityRecord τ ν) : String :=
  let table := Text.quoteListing record.table
  let properties := ", ".intercalate (record.properties.map Text.quoteListing)
  "EntityRecord \x7b table: " ++ table ++ ", properties: [" ++ properties ++ "] \x7d"

end EntityRecord

end EntityTables
