import EntityTables.Schema.Table
import EntityTables.Syntax.Printer
import EntityTables.Unit.Lookup

/-!
# Targets of references

Which declaration a reference property points at, and the rules that the property, its owner and the
target have to meet.
-/

namespace EntityTables.Schema

open EntityTables.Syntax

def referenceWrappers : List String := ["Option", "Box", "Rc", "Arc"]

mutual

/-- The path inside the type of a reference, without references, parentheses, `dyn`, `impl` and
wrappers around it. -/
def referencedPath? : Node → Option Node
  | .phrase .referenceType parts => referencedInLast? parts
  | .phrase .parenType [.group .paren [inner]] => referencedPath? inner
  | .phrase .traitObjectType parts => parts.findSome? Node.boundPath?
  | .phrase .implTraitType parts => parts.findSome? Node.boundPath?
  | .phrase .pathType [.phrase .path parts] =>
    match (Node.phrase .path parts).segments.getLast? with
    | some last =>
      if referenceWrappers.contains last.segmentName then
        if last.angleArguments?.isSome then referencedInSegments? parts
        else some (.phrase .path parts)
      else some (.phrase .path parts)
    | none => none
  | _ => none

def referencedInLast? : List Node → Option Node
  | [] => none
  | [type] => referencedPath? type
  | _ :: rest => referencedInLast? rest

def referencedInSegments? : List Node → Option Node
  | [] => none
  | [.phrase .segment [_, .phrase .genericArgs arguments]] => referencedInArguments? arguments
  | _ :: rest => referencedInSegments? rest

def referencedInArguments? : List Node → Option Node
  | [] => none
  | argument :: rest =>
    if argument.isTypeArgument then (referencedPath? argument).or (referencedInArguments? rest)
    else referencedInArguments? rest

end

/-- A reference is no column, and only interfaces have references. -/
def checkMarkers (owner : Declaration) (property : Property) : Except Error Unit :=
  let at_ : PropertyRef := ⟨owner.key.text, property.name⟩
  if property.column.isSome then .error (.conflictingMarkers at_)
  else
    match owner.shape with
    | .interface _ _ => .ok ()
    | _ => .error (.referenceOnClass at_)

def checkTarget (at_ : PropertyRef) (target : Declaration) : Except Error Unit :=
  let notATable := Error.notATable at_ target.key.text
  match target.shape with
  | .other kind =>
    if kind ≠ .tupleStruct ∨ target.isTable then
      .error (.unsupportedKind target.key.text kind .referencedTable)
    else .error notATable
  | .struct _ _ =>
    if target.isTable then .error (.targetNotInterface at_ target.key.text) else .error notATable
  | .interface _ _ => if target.isTable then .ok () else .error notATable

def referenceTarget (unit : SourceUnit) (owner : Declaration) (property : Property) :
    Except Error Declaration :=
  let at_ : PropertyRef := ⟨owner.key.text, property.name⟩
  match referencedPath? property.type with
  | none => .error (.notATable at_ property.type.print)
  | some path =>
    match unit.lookup path owner.key.module with
    | .found target => (checkTarget at_ target).map fun _ => target
    | .missing => .error (.notATable at_ path.pathText)
    | .ambiguous candidates =>
      .error (.ambiguousReference at_ path.pathText (candidates.map (·.key.text)))

/-- The position of the only key column of the target of a reference. -/
def keyPosition (at_ : PropertyRef) (target : Table) : Except Error Nat :=
  match (target.columns.zipIdx.filter (·.1.primaryKey)).map (·.2) with
  | [only] => .ok only
  | [] => .error (.noPrimaryKey at_ target.key.text)
  | keys => .error (.compoundPrimaryKey at_ target.key.text keys.length)

end EntityTables.Schema
