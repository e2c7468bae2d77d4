import EntityTables.Unit.Basic

/-!
# Looking up names

Which declaration a path means in a module. A path from the crate, the module or its parent has to
match a key exactly; any other path matches the keys that end in it, and of several matches the one
in the module itself is preferred.
-/

namespace EntityTables

open EntityTables.Syntax EntityTables.Text

inductive Lookup (α : Type)
  | found (declaration : α)
  | ambiguous (candidates : List α)
  | missing
deriving Repr

namespace SourceUnit

/-- The parent of a module; the crate is its own parent. -/
def parentModule (module : String) : String := ((splitLast? module).map (·.1)).getD "crate"

/-- The key that a path has to match, if its first name fixes it. -/
def exactKey? (names : List String) (module : String) : Option String :=
  match names with
  | "crate" :: _ => some (joinNames names)
  | "self" :: rest => some (nameWithin module (joinNames rest))
  | "super" :: rest => some (nameWithin (parentModule module) (joinNames rest))
  | _ => none

def lookupNames (unit : SourceUnit) (names : List String) (module : String) :
    Lookup Declaration :=
  if names.isEmpty then .missing
  else
    match exactKey? names module with
    | some key => (unit.get? ⟨key⟩).elim .missing .found
    | none =>
      match unit.declarations.filter (·.key.endsIn names) with
      | [] => .missing
      | [only] => .found only
      | candidates =>
        let preferred := Key.within module (joinNames names)
        (candidates.find? (·.key = preferred)).elim (.ambiguous candidates) .found

/-- Looks up a path as it is written in a module. -/
def lookup (unit : SourceUnit) (path : Node) (module : String) : Lookup Declaration :=
  unit.lookupNames path.pathNames module

def resolvesTo (unit : SourceUnit) (path : Node) (module : String) (key : Key) : Bool :=
  match unit.lookup path module with
  | .found declaration => declaration.key = key
  | _ => false

def constructorParameters? (unit : SourceUnit) (declaration : Declaration) :
    Option (List String) :=
  (unit.constructors.find? fun constructor =>
    unit.resolvesTo constructor.selfType constructor.module declaration.key).map (·.parameters)

def sqlTypeImpl? (unit : SourceUnit) (declaration : Declaration) : Option SqlTypeImpl :=
  unit.sqlTypeImpls.find? fun impl => unit.resolvesTo impl.selfType impl.module declaration.key

end SourceUnit

end EntityTables
