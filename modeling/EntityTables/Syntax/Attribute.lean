import EntityTables.Syntax.Path

/-!
# Attributes

The attributes of an item or a member, and the markers among them. A marker may be written bare or
under the name of this tool.
-/

namespace EntityTables.Syntax

namespace Node

/-- The attributes in front of an item, a member or an expression. -/
def outerAttributes : Node → List Node
  | .phrase _ (.phrase .attributes attributes :: _) => attributes
  | _ => []

def bodyAttributes (item : Node) : List Node :=
  match item.parts.getLast? with
  | some (.group .brace (.phrase .attributes attributes :: _)) => attributes
  | _ => []

def attributes (item : Node) : List Node := item.outerAttributes ++ item.bodyAttributes

def attributeBody (node : Node) : List Node :=
  match node.parts.getLast? with
  | some (.group .bracket body) => body
  | _ => []

def attributePath (node : Node) : Node := node.attributeBody.headD (.empty .path)

def isMarker (marker : String) (node : Node) : Bool :=
  match node.attributePath.pathNames with
  | [only] => only == marker
  | [front, only] => front == "tablegen" && only == marker
  | _ => false

def anyMarker (marker : String) (attributes : List Node) : Bool :=
  attributes.any (isMarker marker)

end Node

end EntityTables.Syntax
