import EntityTables.Syntax.Node

/-!
# Paths

The names that a path is made of and the generic arguments of its segments. The path inside a type
counts with the segments of the trait it names.
-/

namespace EntityTables.Syntax

namespace Node

def segments : Node → List Node
  | .phrase .path parts => parts.filter (Node.is .segment)
  | .phrase .qualifiedPath parts =>
    parts.flatMap fun part =>
      match part with
      | .phrase .path inner => inner.filter (Node.is .segment)
      | .phrase .segment own => [.phrase .segment own]
      | _ => []
  | _ => []

def segmentName (segment : Node) : String := (segment.parts.head?.bind identName?).getD ""

def pathNames (path : Node) : List String := path.segments.map segmentName

/-- The names of a path joined by `::`. -/
def pathText (path : Node) : String := "::".intercalate path.pathNames

def lastName? (path : Node) : Option String := path.pathNames.getLast?

/-- The name that a path consists of, if it is a single name without arguments. -/
def soleName? : Node → Option String
  | .phrase .path [.phrase .segment [.leaf (.ident name)]] => some name
  | _ => none

def isAnyPunct : Node → Bool
  | .leaf (.punct _ _) => true
  | _ => false

/-- The arguments in angle brackets of a segment, if it has any brackets. -/
def angleArguments? : Node → Option (List Node)
  | .phrase .segment [_, .phrase .genericArgs parts] => some (parts.filter (!·.isAnyPunct))
  | _ => none

def isBareSegment (segment : Node) : Bool := segment.parts.length == 1

def isTypeArgument : Node → Bool
  | .phrase kind _ => kind != .assocArg && kind != .literalExpr && kind != .blockExpr
  | _ => false

/-- The path of a type that is a path, also of one inside another type. -/
def typePath? : Node → Option Node
  | .phrase .pathType [path] => some path
  | .phrase .qualifiedPathType [path] => some path
  | _ => none

/-- The path of a type that is a path and not inside another type. -/
def plainTypePath? : Node → Option Node
  | .phrase .pathType [path] => some path
  | _ => none

/-- The path of a bound that names a trait, also inside parentheses. -/
def boundPath? : Node → Option Node
  | .phrase .traitBound [.group .paren inner] => inner.find? (Node.is .path)
  | .phrase .traitBound parts => parts.find? (Node.is .path)
  | _ => none

/-- The type inside an `Option`, if a type is one. -/
def optionContent? (type : Node) : Option Node :=
  match type.plainTypePath?.bind (·.segments.getLast?) with
  | some last =>
    if last.segmentName == "Option" then
      last.angleArguments?.bind fun arguments => arguments.head?.filter isTypeArgument
    else none
  | none => none

/-- A type without the `Option` around it, and whether there was one. -/
def stripOption (type : Node) : Node × Bool :=
  match type.optionContent? with
  | some content => (content, true)
  | none => (type, false)

end Node

end EntityTables.Syntax
