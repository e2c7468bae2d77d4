import EntityTables.Marker.Argument
import EntityTables.Text.Similarity

/-!
# Fields of markers

The kinds of values that a field accepts, and the reader that collects the fields of a marker from
its arguments. Every error is collected; a field that is given twice counts only once, even if its
first value was wrong.
-/

namespace EntityTables.Marker

open EntityTables.Syntax EntityTables.Text

def literalTypeName (text : String) : String :=
  match literalKind text.toList with
  | .string => "string"
  | .byteString => "byte string"
  | .terminatedString => "unknown"
  | .byte => "byte"
  | .char => "char"
  | .int => "int"
  | .float => "float"
  | .bool => "bool"

/-- The name of the type of an expression. -/
def Kind.typeName : Kind → String
  | .arrayExpr => "array"
  | .assignExpr => "assign"
  | .asyncExpr => "async"
  | .awaitExpr => "await"
  | .binaryExpr => "binary"
  | .blockExpr => "block"
  | .breakExpr => "break"
  | .callExpr => "call"
  | .castExpr => "cast"
  | .closureExpr => "closure"
  | .constExpr => "const"
  | .continueExpr => "continue"
  | .fieldExpr => "field"
  | .forExpr => "for_loop"
  | .ifExpr => "if"
  | .indexExpr => "index"
  | .inferExpr => "infer"
  | .letExpr => "let"
  | .literalExpr => "lit"
  | .loopExpr => "loop"
  | .macroExpr => "macro"
  | .matchExpr => "match"
  | .methodCallExpr => "method_call"
  | .parenExpr => "paren"
  | .pathExpr => "path"
  | .qualifiedPathExpr => "path"
  | .rangeExpr => "range"
  | .referenceExpr => "reference"
  | .repeatExpr => "repeat"
  | .returnExpr => "return"
  | .structExpr => "struct"
  | .tryExpr => "try"
  | .tryBlockExpr => "try_block"
  | .tupleExpr => "tuple"
  | .unaryExpr => "unary"
  | .unsafeExpr => "unsafe"
  | .verbatim => "verbatim"
  | .whileExpr => "while"
  | .yieldExpr => "yield"
  | _ => "unknown"

/-- The value of an argument as far as fields tell values apart. -/
inductive FieldValue
  | text (value : String)
  | flag (value : Bool)
  | literal (type : String)
  | other (expr : Node)

def FieldValue.ofExpr : Node → FieldValue
  | .phrase .literalExpr [_, .leaf (.literal written)] =>
    match stringValue? written with
    | some value => .text value
    | none => .literal (literalTypeName written)
  | .phrase .literalExpr [_, .leaf (.ident word)] => .flag (word == "true")
  | .phrase .literalExpr [_, _, .leaf (.literal written)] => .literal (literalTypeName written)
  | expr => .other expr

def FieldValue.typeName : FieldValue → String
  | .text _ => "string"
  | .flag _ => "bool"
  | .literal type => type
  | .other expr => (expr.kind?.map Kind.typeName).getD "unknown"

def FieldValue.refuse {α : Type} (value : FieldValue) : Except ArgumentError α :=
  .error (.unexpectedType value.typeName)

/-- The refusal of a list, after its items were read. -/
def refuseList {α : Type} (body : List Node) : Except ArgumentError α := do
  discard (readArguments body)
  .error (.unexpectedFormat "list")

def refuseWord {α : Type} : Except ArgumentError α := .error (.unexpectedFormat "word")

def readTextExpr (expr : Node) : Except ArgumentError String :=
  match FieldValue.ofExpr expr with
  | .text value => .ok value
  | value => value.refuse

def readText : ArgumentForm → Except ArgumentError String
  | .word => refuseWord
  | .list body => refuseList body
  | .value expr => readTextExpr expr

/-- A truth value; the name alone says yes. -/
def readFlag : ArgumentForm → Except ArgumentError Bool
  | .word => .ok true
  | .list body => refuseList body
  | .value expr =>
    match FieldValue.ofExpr expr with
    | .flag value => .ok value
    | .text value =>
      if value == "true" then .ok true
      else if value == "false" then .ok false
      else .error (.unknownValue value)
    | value => value.refuse

/-- A path that stands inside a type, without the type. -/
def withoutSelfType : Node → Node
  | .phrase .qualifiedPath parts =>
    let front := parts.flatMap fun part => if part.is .path then part.parts else []
    let rest := (parts.dropWhile fun part => !part.isPunct ">").drop 1
    .phrase .path (front ++ rest)
  | path => path

/-- A path, as it is or in a string. -/
def readPath : ArgumentForm → Except ArgumentError Node
  | .word => refuseWord
  | .list body => refuseList body
  | .value expr =>
    match FieldValue.ofExpr expr with
    | .text value =>
      match parsePath? value with
      | some path => .ok path
      | none => .error (.unknownValue value)
    | .other (.phrase .pathExpr [_, path]) => .ok path
    | .other (.phrase .qualifiedPathExpr [_, path]) => .ok (withoutSelfType path)
    | value => value.refuse

/-- The parts of a text between commas, without the blanks around them and without empty ones. -/
def commaParts (text : String) : List String :=
  let trim (part : List Char) : List Char :=
    ((part.dropWhile isSpace).reverse.dropWhile isSpace).reverse
  ((splitAtChar ',' text.toList).map trim).filterMap fun part =>
    if part.isEmpty then none else some (String.ofList part)

def listedName? : Argument → Option String
  | .text value => some value
  | .named path .word => path.soleName?
  | _ => none

/-- A list of names: in brackets after the field, in an array of strings, or in one string. -/
def readNames : ArgumentForm → Except ArgumentError (List String)
  | .word => refuseWord
  | .list body => do
    let arguments ← readArguments body
    let errors := (arguments.filter fun item => (listedName? item).isNone).map
      fun _ => ArgumentError.notAPropertyName
    match ArgumentError.join errors with
    | some error => .error error
    | none => .ok (arguments.filterMap listedName?)
  | .value expr =>
    match FieldValue.ofExpr expr with
    | .text value => .ok (commaParts value)
    | .other (.phrase .arrayExpr [_, .group _ elements]) =>
      (elements.filter fun element => !element.isPunct ",").mapM readTextExpr
    | value => value.refuse

/-- A field of a marker: its name and what its argument does to the marker. -/
structure Field (α : Type) where
  name : String
  read : ArgumentForm → Except ArgumentError (α → α)

/-- A marker whose arguments are being read: the fields met so far and the errors, in order. -/
structure Reading (α : Type) where
  marker : α
  met : List String
  errors : List ArgumentError

namespace Reading

variable {α : Type}

/-- A reading with one more error. -/
def fail (reading : Reading α) (error : ArgumentError) : Reading α :=
  { reading with errors := reading.errors ++ [error] }

def add (fields : List (Field α)) (reading : Reading α) : Argument → Reading α
  | .literal => reading.fail (.unexpectedFormat "literal")
  | .text _ => reading.fail (.unexpectedFormat "literal")
  | .named path form =>
    let name := path.pathText
    match fields.find? (·.name == name) with
    | none =>
      let known := (fields.map (·.name)).mergeSort
      reading.fail (.unknownField name known (mostSimilar? name known))
    | some field =>
      if reading.met.contains name then reading.fail (.duplicateField name)
      else
        let reading := { reading with met := name :: reading.met }
        match field.read form with
        | .ok update => { reading with marker := update reading.marker }
        | .error error => reading.fail (.inField name error)

def addList (fields : List (Field α)) (reading : Reading α) (body : List Node) : Reading α :=
  match readArguments body with
  | .ok arguments => arguments.foldl (add fields) reading
  | .error error => reading.fail error

/-- The marker, unless there were errors. -/
def finish (reading : Reading α) : Except ArgumentError α :=
  match ArgumentError.join reading.errors with
  | some error => .error error
  | none => .ok reading.marker

end Reading

/-- Reads a marker that may be given several times; its arguments count as one list. Only those under
the bare name give arguments. -/
def readMarkers {α : Type} (marker : String) (fields : List (Field α)) (empty : α)
    (attributes : List Node) : Except ArgumentError α :=
  let reading := (attributes.filter (·.attributePath.soleName? == some marker)).foldl (fun reading node =>
    match attributeForm node with
    | .word => reading
    | .list body => reading.addList fields body
    | .value _ => reading.fail (.nameValueMarker marker))
    (Reading.mk empty [] [])
  reading.finish

end EntityTables.Marker
