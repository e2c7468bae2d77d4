import EntityTables.Syntax.Node
import EntityTables.Text.CharClass
import EntityTables.Text.Quoted

/-!
# Composing code

Small functions that make trees from text, for code that is generated.
-/

namespace EntityTables.Syntax

open EntityTables.Text

/-- The token of a word: a name, a lifetime, a number or a string, otherwise an operator. -/
def Token.ofWord (word : String) : Token :=
  match word.toList with
  | [] => .punct word false
  | c :: _ =>
    if isIdentStart c then .ident word
    else if c == '\'' then .lifetime word
    else if c == '"' || isDigit c then .literal word
    else .punct word false

/-- The tokens of the words in a text, which single blanks separate. -/
def words (text : String) : List Node :=
  (splitAtChar ' ' text.toList).map fun word => .leaf (Token.ofWord (String.ofList word))

def parens (body : List Node) : Node := .group .paren body

def brackets (body : List Node) : Node := .group .bracket body

def braces (body : List Node) : Node := .group .brace body

def stringLiteral (text : String) : Node := .literal (quoteLiteral text)

/-- Trees with a comma between two of them. -/
def commaSeparated : List Node → List Node
  | [] => []
  | [node] => [node]
  | node :: rest => node :: .punct "," :: commaSeparated rest

/-- Runs of trees with a comma between two of them. -/
def commaJoined : List (List Node) → List Node
  | [] => []
  | [run] => run
  | run :: rest => run ++ .punct "," :: commaJoined rest

def commaEnded (runs : List (List Node)) : List Node := runs.flatMap (· ++ [.punct ","])

/-- A segment without arguments. -/
def segmentOf (name : String) : Node := .phrase .segment [.ident name]

/-- Segments with `::` between two of them. -/
def joinSegments : List Node → List Node
  | [] => []
  | [segment] => [segment]
  | segment :: rest => segment :: .punct "::" :: joinSegments rest

def pathOf (segments : List Node) : Node := .phrase .path (joinSegments segments)

/-- The path of some segments, from the root. -/
def absolutePath (segments : List Node) : Node :=
  .phrase .path (.punct "::" :: joinSegments segments)

def pathType (path : Node) : Node := .phrase .pathType [path]

def namedType (name : String) : Node := pathType (pathOf [segmentOf name])

/-- The optional form of a type, written from the root. -/
def optionOf (type : Node) : Node :=
  pathType (absolutePath [segmentOf "core", segmentOf "option", .phrase .segment
    [.ident "Option", .phrase .genericArgs [.punct "<", type, .punct ">"]]])

/-- The type of which a type is the optional form. -/
def insideOption? : Node → Option Node
  | .phrase .pathType [.phrase .path parts] =>
    match parts.getLast? with
    | some (.phrase .segment [_, .phrase .genericArgs [_, type, _]]) => some type
    | _ => none
  | _ => none

theorem insideOption?_optionOf (type : Node) : insideOption? (optionOf type) = some type := rfl

/-- A segment as expressions write it, with a `::` in front of its arguments. -/
def expressionSegment : Node → Node
  | .phrase .segment [name, .phrase .genericArgs (.leaf (.punct "<" joint) :: rest)] =>
    .phrase .segment
      [name, .phrase .genericArgs (.punct "::" :: .leaf (.punct "<" joint) :: rest)]
  | segment => segment

/-- A path as an expression without attributes. -/
def pathExpr (path : Node) : Node := .phrase .pathExpr [.empty .attributes, path]

def nameExpr (name : String) : Node := pathExpr (pathOf [segmentOf name])

def attributeOf (body : List Node) : Node := .phrase .attr [.punct "#", brackets body]

def docAttribute (text : String) : Node :=
  attributeOf [pathOf [segmentOf "doc"], .punct "=", stringLiteral text]

/-- The attribute of a documentation text, as code for people writes it. -/
def rawDocAttribute (text : String) : Node :=
  attributeOf [pathOf [segmentOf "doc"], .punct "=", .literal ("r\"" ++ text ++ "\"")]

/-- An attribute without arguments. -/
def plainAttribute (path : Node) : Node := attributeOf [path]

/-- The attribute of a marker of this tool, under its full name. -/
def markerAttribute (marker : String) : Node :=
  plainAttribute (absolutePath [segmentOf "tablegen", segmentOf marker])

/-- An attribute with arguments between commas. -/
def listAttribute (name : String) (arguments : List (List Node)) : Node :=
  attributeOf [pathOf [segmentOf name], parens (commaJoined arguments)]

end EntityTables.Syntax
