import EntityTables.Syntax.Grammar.Item
import EntityTables.Syntax.Lexer

/-!
# Parsing

The productions tied together, and the texts they read: whole files, single items, expressions,
paths, signatures and names. A text is accepted if the production reads all of it.
-/

namespace EntityTables.Syntax

open EntityTables.Text

def production (sub : Nonterminal → Parser Node) : Nonterminal → Parser Node
  | .type plus => typeRule sub plus
  | .pattern => patternRule sub
  | .alternatives => alternativesRule sub
  | .expr struct => exprRule sub struct
  | .operand struct => operandRule sub struct
  | .continuation left struct least => continuationRule sub left struct least
  | .statementExpr => statementExprRule sub
  | .block => blockRule sub
  | .item => itemRule sub
  | .useTree => useTreeRule sub

/-- The parser of a nonterminal whose productions nest at most `depth` deep. -/
def nonterminal : Nat → Nonterminal → Parser Node
  | 0, _ => Parser.refuse
  | depth + 1, start => production (nonterminal depth) start

mutual

/-- The number of tokens and groups in a tree. -/
def Node.size : Node → Nat
  | .leaf _ => 1
  | .group _ body => 1 + Node.sizeOfAll body
  | .phrase _ parts => Node.sizeOfAll parts

/-- The number of tokens and groups in a list of trees. -/
def Node.sizeOfAll : List Node → Nat
  | [] => 0
  | node :: rest => node.size + Node.sizeOfAll rest

end

/-- The depth that no nesting of productions reaches: between two tokens there are only a few. -/
def nestingBound (input : Input) : Nat := 16 * (Node.sizeOfAll input + 1)

def readAll {α : Type} (input : Input) (parser : (Nonterminal → Parser Node) → Parser α) :
    Except SyntaxError α :=
  match (parser (nonterminal (nestingBound input))).run input with
  | .ok (a, []) => .ok a
  | .ok (_, _ :: _) => .error .unexpected
  | .error error => .error error

def readText? {α : Type} (text : String) (parser : (Nonterminal → Parser Node) → Parser α) :
    Option α :=
  (lex? text).bind fun input => (readAll input parser).toOption

/-- A text without the blanks and comments at its front. -/
def dropBlanks : Nat → List Char → List Char
  | 0, text => text
  | steps + 1, text =>
    match dropBlank text with
    | some rest => dropBlanks steps rest
    | none => text

/-- A text without its first line, if that line names the program to run it with. -/
def dropInterpreterLine (text : List Char) : List Char :=
  match text with
  | '#' :: '!' :: rest =>
    match dropBlanks rest.length rest with
    | '[' :: _ => text
    | _ => text.dropWhile (· != '\n')
  | _ => text

def fileRule (sub : Nonterminal → Parser Node) : Parser Node := do
  let attributes ← innerAttributes sub
  let items ← Parser.many (fun input => !input.isEmpty) (Parser.one (sub .item))
  return .phrase .file (attributes :: items)

def parseFile? (text : String) : Option Node :=
  let chars := dropInterpreterLine (dropByteOrderMark text.toList)
  readText? (String.ofList chars) fileRule

def itemOf? (input : List Node) : Option Node :=
  (readAll input fun sub => sub .item).toOption

def fileOf? (input : List Node) : Option Node := (readAll input fileRule).toOption

def parseExpr? (text : String) : Option Node := readText? text fun sub => sub (.expr true)

def parsePath? (text : String) : Option Node := readText? text fun sub => path sub false

def parseSignature? (text : String) : Option Node := readText? text fun sub => signature sub false

def parseName? (text : String) : Option String :=
  (readText? text fun _ => Parser.name).bind Node.identName?

end EntityTables.Syntax
