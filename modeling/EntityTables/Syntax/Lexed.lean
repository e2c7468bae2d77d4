import EntityTables.Syntax.Printer

/-!
# Tokens of trees

The tokens of a tree as a lexer makes them, where each character of an operator is a token of its
own. A tree that was printed is read again from these.
-/

namespace EntityTables.Syntax

/-- The tokens of an operator, all but the last of them joint. -/
def splitOperator (joint : Bool) : List Char → List Node
  | [] => []
  | [c] => [.leaf (.punct (String.singleton c) joint)]
  | c :: rest => .leaf (.punct (String.singleton c) true) :: splitOperator joint rest

mutual

/-- A tree of tokens with its operators split. -/
def Node.split : Node → List Node
  | .leaf (.punct text joint) => splitOperator joint text.toList
  | .leaf token => [.leaf token]
  | .group delimiter body => [.group delimiter (Node.splitAll body)]
  | .phrase _ parts => Node.splitAll parts

def Node.splitAll : List Node → List Node
  | [] => []
  | node :: rest => node.split ++ Node.splitAll rest

end

/-- The tokens of a tree where it stands. -/
def Node.lexedAt (position : Position) (node : Node) : List Node :=
  Node.splitAll (node.tokens position)

def Node.lexed (node : Node) : List Node := node.lexedAt .inner

end EntityTables.Syntax
