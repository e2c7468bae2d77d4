import EntityTables.Syntax.Grammar.Operator

/-!
# Statements

The statements of a block. An expression that ends in a block of its own needs no semicolon, and at
the start of a statement or of a match arm it goes on only after a dot or a question mark.
-/

namespace EntityTables.Syntax

open EntityTables.Syntax.Parser

variable (sub : Nonterminal → Parser Node)

/-- The expressions that end a statement or a match arm by themselves. -/
def Kind.isBlockLike (kind : Kind) : Bool :=
  [Kind.ifExpr, .matchExpr, .blockExpr, .unsafeExpr, .whileExpr, .loopExpr, .forExpr,
    .tryBlockExpr, .constExpr].contains kind

/-- Whether an expression ends a statement or a match arm by itself. -/
def Node.isBlockLike (node : Node) : Bool :=
  match node.kind? with
  | some kind => kind.isBlockLike
  | none => false

def isBraceMacro : Node → Bool
  | .phrase .macroExpr [_, _, _, body] => body.isGroup .brace
  | _ => false

def needsSemicolon (node : Node) : Bool := !(node.isBlockLike || isBraceMacro node)

/-- An expression with more attributes in front of its own. -/
def Node.withAttributes (attributes : List Node) : Node → Node
  | .phrase kind (.phrase .attributes own :: rest) =>
    .phrase kind (.phrase .attributes (attributes ++ own) :: rest)
  | node => node

/-- The attributes of a statement belong to the leftmost operand of its expression. -/
def Node.withLeadingAttributes (attributes : List Node) : Node → Node
  | .phrase kind (own :: left :: rest) =>
    if kind == .assignExpr || kind == .binaryExpr || kind == .castExpr then
      .phrase kind (own :: left.withLeadingAttributes attributes :: rest)
    else (Node.phrase kind (own :: left :: rest)).withAttributes attributes
  | node => node.withAttributes attributes

mutual

/-- The last token or group of a tree. -/
def Node.lastTree? : Node → Option Node
  | .leaf token => some (.leaf token)
  | .group delimiter body => some (.group delimiter body)
  | .phrase _ parts => Node.lastTreeOf? parts

/-- The last token or group of a list of trees. -/
def Node.lastTreeOf? : List Node → Option Node
  | [] => none
  | node :: rest => (Node.lastTreeOf? rest).or node.lastTree?

end

/-- Whether a tree ends in a group in braces. -/
def Node.endsInBrace (node : Node) : Bool :=
  match node.lastTree? with
  | some last => last.isGroup .brace
  | none => false

def startsItem (input : Input) : Bool :=
  let second := input.next
  let third := second.next
  let startsFunction (input : Input) := input.startsOneOf ["unsafe", "extern", "fn"]
  input.startsOneOf ["pub", "extern", "use", "fn", "mod", "type", "struct", "enum", "trait", "impl",
      "macro"] ||
    (input.startsWord "crate" && !second.startsPunct "::") ||
    (input.startsWord "static" && (second.startsWord "mut" || second.startsName)) ||
    (input.startsWord "const" &&
      !(second.startsGroup .brace || second.startsOneOf ["static", "move"] ||
        (second.startsWord "async" && !startsFunction third) || second.startsPunct "|")) ||
    (input.startsWord "unsafe" && !second.startsGroup .brace) ||
    (input.startsWord "async" && startsFunction second) ||
    (input.startsWord "union" && second.startsName) ||
    (input.startsWord "auto" && second.startsWord "trait") ||
    (input.startsWord "default" && second.startsOneOf ["unsafe", "impl"])

inductive StatementFront
  | item
  | braceMacro
  | other
deriving DecidableEq

/-- A macro call that defines something is an item; one in braces is a statement unless a dot or a
question mark follows. -/
def statementFront : Parser StatementFront := do
  let start ← get
  let front ← attempt plainPath
  let after ← get
  set start
  if front.isSome && after.startsPunct "!" then
    let second := after.next
    if second.startsName || second.startsWord "try" then return .item
    let third := second.next
    if second.startsGroup .brace &&
        !((third.startsPunct "." && !third.startsPunct "..") || third.startsPunct "?") then
      return .braceMacro
  return if startsItem start then .item else .other

def macroStatement (attributes : Node) : Parser Node := do
  let path ← plainPath
  let sign ← punct "!"
  let body ← rawGroup
  return .phrase .macroStmt ([attributes, path, sign, body] ++ (← punct? ";"))

/-- A `let` statement. -/
def letStatement (attributes : Node) : Parser Node := do
  let keyword ← word "let"
  let pattern ← sub .pattern
  let type ← orNothing (·.startsPunct ":") do
    return [← punct ":", ← sub (.type true)]
  let value ← orNothing (·.startsPunct "=") do
    return [← punct "=", ← sub (.expr true)]
  let endsInBrace := (value.getLast?.map Node.endsInBrace).getD true
  let diverging ← orNothing (fun input => !endsInBrace && input.startsWord "else") do
    return [← word "else", ← bareBlockExpr sub]
  let closing ← punct ";"
  return .phrase .letStmt ([attributes, keyword, pattern] ++ type ++ value ++ diverging ++ [closing])

def exprStatement (attributes : Node) : Parser Node := do
  let expr ← sub .statementExpr
  let expr := expr.withLeadingAttributes attributes.parts
  let closing ← punct? ";"
  match expr with
  | .phrase .macroExpr parts =>
    if !closing.isEmpty || isBraceMacro expr then return .phrase .macroStmt (parts ++ closing)
  | _ => pure ()
  return .phrase .exprStmt (expr :: closing)

def statement : Parser Node := do
  if (← peek (·.startsPunct ";")) then
    return .phrase .exprStmt [.empty .verbatim, ← punct ";"]
  let start ← get
  let attributes ← outerAttributes sub
  match ← statementFront with
  | .braceMacro => macroStatement attributes
  | .item =>
    set start
    sub .item
  | .other =>
    if (← peek (·.startsWord "let")) then letStatement sub attributes
    else exprStatement sub attributes

def endsStatement : Node → Bool
  | .phrase .exprStmt [expr] => !needsSemicolon expr
  | _ => true

/-- The statements of a block; only the last may be an expression that needs a semicolon. -/
def statements : Parser (List Node) :=
  repeated do
    if (← peek List.isEmpty) then return none
    let node ← statement sub
    guard (endsStatement node || (← peek List.isEmpty))
    return some [node]

def blockRule : Parser Node := group .brace (statements sub)

/-- The attributes at the front of a body, if there are any. -/
def innerAttributes? : Parser (List Node) := do
  let attributes ← innerAttributes sub
  return if attributes.parts.isEmpty then [] else [attributes]

def attributedBlock : Parser Node :=
  group .brace do return (← innerAttributes? sub) ++ (← statements sub)

end EntityTables.Syntax
