import EntityTables.Syntax.Grammar.Statement

/-!
# Printing

The tokens of a tree, and their text with single blanks between them. An expression that ends a
statement by itself is put in parentheses where it is the leftmost operand of a longer expression,
since the statement would end after it.
-/

namespace EntityTables.Syntax

/-- Where an expression stands: anywhere, as a whole statement or arm or in front of a dot in one,
or as the leftmost operand of one. -/
inductive Position
  | inner
  | whole
  | leftmost
deriving DecidableEq, Repr

/-- Expressions whose first part is an operand that an operator or a bracket follows. -/
def Kind.startsWithOperand (kind : Kind) : Bool :=
  [Kind.binaryExpr, .assignExpr, .castExpr, .indexExpr, .rangeExpr, .callExpr].contains kind

/-- Expressions whose first part is an operand that a dot or a question mark follows. -/
def Kind.startsWithBase (kind : Kind) : Bool :=
  [Kind.methodCallExpr, .fieldExpr, .tryExpr, .awaitExpr].contains kind

/-- Where a part of a phrase stands, given the part before it. -/
def Position.ofPart (position : Position) (kind : Kind) (before : Option Node) : Position :=
  match before with
  | none => if kind == .exprStmt then .whole else .inner
  | some part =>
    if kind == .arm then if part.isPunct "=>" then .whole else .inner
    else if position == .inner || !part.is .attributes then .inner
    else if kind.startsWithOperand then .leftmost
    else if kind.startsWithBase then .whole
    else .inner

/-- Whether a part is the value of a `let` with an alternative and would swallow it. -/
def endsBeforeElse (kind : Kind) (part : Node) (rest : List Node) : Bool :=
  kind == .letStmt && part.endsInBrace && (rest.head?.map (Node.isIdent "else")).getD false

mutual

/-- The tokens of a tree. -/
def Node.tokens (position : Position) : Node → List Node
  | .leaf token => [.leaf token]
  | .group delimiter body => [.group delimiter (Node.tokensOfParts .file .inner none body)]
  | .phrase kind parts =>
    if position == .leftmost && kind.isBlockLike then
      [.group .paren (Node.tokensOfParts kind .inner none parts)]
    else Node.tokensOfParts kind position none parts

/-- The tokens of the parts of a phrase after the part `before`. -/
def Node.tokensOfParts (kind : Kind) (position : Position) (before : Option Node) :
    List Node → List Node
  | [] => []
  | part :: rest =>
    (if endsBeforeElse kind part rest then [.group .paren (part.tokens .inner)]
    else part.tokens (position.ofPart kind before)) ++
      Node.tokensOfParts kind position (some part) rest

end

/-- Whether the next token follows without a blank. -/
def Node.isJoint : Node → Bool
  | .leaf token => token.isJoint
  | _ => false

mutual

/-- The text of a token or group. -/
def Node.text : Node → String
  | .leaf token => token.text
  | .group .brace body =>
    if body.isEmpty then "\x7b \x7d" else "\x7b " ++ Node.textOfAll body ++ " \x7d"
  | .group delimiter body => delimiter.opening ++ Node.textOfAll body ++ delimiter.closing
  | .phrase _ parts => Node.textOfAll parts

/-- The text of tokens with blanks between them. -/
def Node.textOfAll : List Node → String
  | [] => ""
  | [node] => node.text
  | node :: rest => node.text ++ (if node.isJoint then "" else " ") ++ Node.textOfAll rest

end

/-- The text of a tree. -/
def Node.print (node : Node) : String := Node.textOfAll (node.tokens .inner)

end EntityTables.Syntax
