import EntityTables.Syntax.Attribute
import EntityTables.Syntax.Grammar
import EntityTables.Syntax.LiteralValue

/-!
# Arguments of markers

The argument list of an attribute: literals, and names that stand alone, carry a list or have a
value. An error tells what was wrong and for which field.
-/

namespace EntityTables.Marker

open EntityTables.Syntax EntityTables.Syntax.Parser

/-- What an argument gives besides its name: nothing, a list in brackets, or a value. -/
inductive ArgumentForm
  | word
  | list (body : List Node)
  | value (expr : Node)
deriving Inhabited

inductive Argument
  | literal
  | text (value : String)
  | named (path : Node) (form : ArgumentForm)
deriving Inhabited

inductive ArgumentError
  | malformed (error : SyntaxError)
  | unknownField (name : String) (known : List String) (suggestion : Option String)
  | duplicateField (name : String)
  | unexpectedFormat (format : String)
  | unexpectedType (type : String)
  | unknownValue (value : String)
  | notAPropertyName
  | nameValueMarker (marker : String)
  | inField (field : String) (error : ArgumentError)
  | several (errors : List ArgumentError)
deriving Inhabited

mutual

def ArgumentError.message : ArgumentError → String
  | .malformed error => error.message
  | .unknownField name known suggestion =>
    "Unknown field: `" ++ name ++ "`. " ++
      match suggestion with
      | some near => "Did you mean `" ++ near ++ "`?"
      | none => "Available values: " ++ ", ".intercalate (known.map fun name => "`" ++ name ++ "`")
  | .duplicateField name => "Duplicate field `" ++ name ++ "`"
  | .unexpectedFormat format => "Unexpected meta-item format `" ++ format ++ "`"
  | .unexpectedType type => "Unexpected type `" ++ type ++ "`"
  | .unknownValue value => "Unknown value: `" ++ value ++ "`"
  | .notAPropertyName => "expected a property name"
  | .nameValueMarker marker =>
    "Name-value arguments are not supported. Use #[" ++ marker ++ "(...)]"
  | .inField field error => error.message ++ " at " ++ field
  | .several errors => "Multiple errors: (" ++ ", ".intercalate (ArgumentError.messages errors) ++ ")"

def ArgumentError.messages : List ArgumentError → List String
  | [] => []
  | error :: rest => error.message :: ArgumentError.messages rest

end

def ArgumentError.join : List ArgumentError → Option ArgumentError
  | [] => none
  | [error] => some error
  | errors => some (.several errors)

def ArgumentForm.ofNodes : List Node → ArgumentForm
  | [.group _ body] => .list body
  | [_, expr] => .value expr
  | _ => .word

/-- A path of words, reserved or not. -/
def wordPath : Parser Node := do
  let leading ← punct? "::"
  let first ← anyWord
  let rest ← many (·.startsPunct "::") do
    let sign ← punct "::"
    return [sign, .phrase .segment [← anyWord]]
  return .phrase .path (leading ++ .phrase .segment [first] :: rest)

def startsLiteralArgument (input : Input) : Bool :=
  input.startsLiteral &&
    !(input.startsOneOf ["true", "false"] && input.next.startsPunct "=")

def argument (sub : Nonterminal → Parser Node) : Parser Argument := do
  let input ← get
  if startsLiteralArgument input then
    let literal ← literalExpr
    match literal with
    | .phrase .literalExpr [_, .leaf (.literal text)] =>
      return (stringValue? text).elim .literal .text
    | _ => return .literal
  else if input.startsAnyWord || (input.startsPunct "::" && (input.skip 2).startsAnyWord) then
    let path ← wordPath
    return .named path (.ofNodes (← attributeArguments sub))
  else refuseFor .notAnArgument

/-- Arguments between commas up to the end of the input, in at most the given number of rounds. -/
def argumentsWithin (sub : Nonterminal → Parser Node) : Nat → Parser (List Argument)
  | 0 => return []
  | rounds + 1 => do
    if (← peek List.isEmpty) then return []
    let first ← argument sub
    if (← peek List.isEmpty) then return [first]
    discard (punctOr .missingComma ",")
    return first :: (← argumentsWithin sub rounds)

def readArguments (body : List Node) : Except ArgumentError (List Argument) :=
  (readAll body fun sub => argumentsWithin sub (body.length + 1)).mapError .malformed

def attributeForm (node : Node) : ArgumentForm := .ofNodes (node.attributeBody.drop 1)

end EntityTables.Marker
