import EntityTables.Record
import EntityTables.Syntax.Node

/-!
# Values of running code

What the variables and properties of generated code hold: plain values of some type, optional values
and records. Types are told apart by how the code writes them.
-/

namespace EntityTables.Generated

open EntityTables.Syntax

/-- A value of running code, with plain values of type `α`. -/
inductive Value (α : Type)
  | plain (value : α)
  | absent
  | present (value : Value α)
  | record (content : EntityRecord Node (Value α))

/-- What is inside an optional value. -/
def Value.content? {α : Type} : Value α → Option (Value α)
  | .present content => some content
  | _ => none

abbrev Properties (α : Type) := EntityRecord Node (Value α)

end EntityTables.Generated
