import EntityTables.Database.Table
import EntityTables.Generated.Basic
import EntityTables.Generated.Value
import EntityTables.Syntax.LiteralValue
import EntityTables.Syntax.Path

/-!
# Executing generated code

What the items of generated code do when they run: a small part of the language, as far as generated
code uses it. Functions take data and give data; a value that a property can hold is kept with its
type, since a property bag tells types apart. What the language would refuse, or what is not in this
part of it, gives nothing.
-/

namespace EntityTables.Generated

open EntityTables.Syntax EntityTables.Schema
open EntityTables.Call (withoutRaw)

variable {α : Type}

/-! ### Data -/

/-- What an expression gives. -/
inductive Datum (α : Type)
  | unit
  /-- a variable that is borrowed while its bag changes -/
  | lent
  /-- the default of a type that is not known yet -/
  | unset
  | word (word : UInt32)
  | truth (holds : Bool)
  | text (text : String)
  /-- a value of a type that properties can have -/
  | value (type : Node) (value : Value α)
  | bag (content : Properties α)
  | nothing
  | something (content : Datum α)
  /-- a struct with the types and values of its fields -/
  | object (type : Node) (fields : List (String × Typed Node (Value α)))
  | sqlType (text : String)
  | column (column : Database.Column)
  | info (info : Database.ColumnInfo)
  | infos (infos : List Database.ColumnInfo)

namespace Datum

/-- The content of an optional datum, if the datum is one. -/
def optional? : Datum α → Option (Option (Datum α))
  | .nothing => some none
  | .something content => some (some content)
  | .value type .absent => (insideOption? type).map fun _ => none
  | .value type (.present content) => (insideOption? type).map fun inner => some (.value inner content)
  | _ => none

def ofOption (type : Node) : Option (Value α) → Datum α
  | some held => .something (.value type held)
  | none => .nothing

/-- The word that a datum is, where `read?` tells the words among plain values. -/
def word? (read? : α → Option UInt32) : Datum α → Option UInt32
  | .word held => some held
  | .value type (.plain held) => if type = namedType "u32" then read? held else none
  | _ => none

def info? : Datum α → Option Database.ColumnInfo
  | .info held => some held
  | _ => none

def value? : Datum α → Option (Value α)
  | .value _ held => some held
  | _ => none

/-- What an optional datum holds as a value. -/
def content? : Datum α → Option (Value α)
  | .something content => content.value?
  | _ => none

/-- The properties of the record that a datum is. -/
def record? : Datum α → Option (Properties α)
  | .value _ (.record content) => some content
  | _ => none

def text? : Datum α → Option String
  | .text held => some held
  | _ => none

def optionalText? : Datum α → Option (Option String)
  | .nothing => some none
  | .something content => content.text?.map some
  | _ => none

def infos? : Datum α → Option (List Database.ColumnInfo)
  | .infos held => some held
  | _ => none

/-- A value that is passed for a parameter, which tells its type. -/
def passing (value : Value α) : Datum α := .value (.empty .inferType) value

/-- What a parameter of a type holds when a datum is passed for it. -/
def passedAs (type : Node) : Datum α → Datum α
  | .value _ held => .value type held
  | datum => datum

/-- A field of a struct; a record has its property bag as the only one. -/
def field? (field : String) : Datum α → Option (Datum α)
  | .value _ (.record content) => if field = "record" then some (.bag content) else none
  | .object _ fields => (fields.lookup field).map fun typed => .value typed.type typed.value
  | _ => none

/-- The property bag that some fields lead to. -/
def bagAt? : List String → Datum α → Option (Properties α)
  | [], .bag content => some content
  | ["record"], .value _ (.record content) => some content
  | _, _ => none

/-- A datum with another property bag where some fields lead to one. -/
def withBag (content : Properties α) : Datum α → Datum α
  | .bag _ => .bag content
  | .value type (.record _) => .value type (.record content)
  | datum => datum

/-- The value of a field with its type; `fill` gives the default of each field. -/
def typed? (fill : String → Typed Node (Value α)) (field : String) :
    Datum α → Option (Typed Node (Value α))
  | .value type held => some ⟨type, held⟩
  | .unset => some (fill field)
  | _ => none

/-- The struct of a type with some fields. -/
def ofFields? (fill : String → Typed Node (Value α)) (type : Node)
    (fields : List (String × Datum α)) : Option (Datum α) :=
  match fields with
  | [("record", .bag content)] => some (.value type (.record content))
  | fields =>
    (fields.mapM fun (entry : String × Datum α) =>
      (entry.2.typed? fill entry.1).map (entry.1, ·)).map (.object type)

def binary? (read? : α → Option UInt32) (operator : String) (left right : Datum α) :
    Option (Datum α) := do
  let first ← left.word? read?
  let second ← right.word? read?
  match operator with
  | "&" => some (.word (first &&& second))
  | "!=" => some (.truth (first != second))
  | _ => none

end Datum

/-! ### Variables -/

/-- The variables in scope, the innermost first. -/
abbrev Bindings (α : Type) := List (String × Datum α)

/-- Gives the innermost variable of a name another datum. -/
def Bindings.update (name : String) (datum : Datum α) : Bindings α → Bindings α
  | [] => []
  | (other, held) :: rest =>
    if name == other then (other, datum) :: rest else (other, held) :: update name datum rest

/-- A variable and the fields that an expression selects from it. -/
structure Place where
  root : String
  fields : List String

def placeOf? : Node → Option Place
  | .phrase .pathExpr [_, path] => path.soleName?.map fun name => ⟨withoutRaw name, []⟩
  | .phrase .fieldExpr [_, base, _, .leaf (.ident field)] =>
    (placeOf? base).map fun place => { place with fields := place.fields ++ [field] }
  | _ => none

/-- The property bag at the place that an expression names. -/
def Bindings.bagOf? (bindings : Bindings α) (expr : Node) :
    Option (Place × Datum α × Properties α) := do
  let place ← placeOf? expr
  let held ← bindings.lookup place.root
  return (place, held, ← held.bagAt? place.fields)

/-! ### Paths and types -/

/-- The type of a function or constant, or the function itself, and what it is called on. -/
inductive Callee
  | function (name : String)
  /-- a function of a type itself -/
  | own (type : Node) (name : String)
  /-- a function or constant that a type has as a table -/
  | table (type : Node) (name : String)

/-- The type that `Self` stands for. -/
def resolveSelf (self type : Node) : Node := if type = namedType "Self" then self else type

def calleeOf? (self : Node) : Node → Option Callee
  | .phrase .path [.phrase .segment [.leaf (.ident name)]] => some (.function name)
  | .phrase .path [type, _, .phrase .segment [.leaf (.ident name)]] =>
    some (.own (resolveSelf self (pathType (pathOf [type]))) name)
  | _ => none

/-- The functions of the libraries that generated code calls. -/
inductive LibraryFunction
  | wrap
  | default
  | newBag
  | newColumn
deriving DecidableEq

def LibraryFunction.ofPath? (path : Node) : Option LibraryFunction :=
  match path.parts.head? with
  | some (.leaf (.punct "::" _)) =>
    match path.pathNames with
    | ["core", "option", "Option", "Some"] => some .wrap
    | ["core", "default", "Default", "default"] => some .default
    | ["tablegen", "EntityRecord", "new"] => some .newBag
    | ["tablegen", "Column", "new"] => some .newColumn
    | _ => none
  | _ => none

def LibraryFunction.call? : LibraryFunction → List (Datum α) → Option (Datum α)
  | .wrap, [datum] => some (.something datum)
  | .default, [] => some .unset
  | .newBag, [.text table] => some (.bag (.empty table))
  | .newColumn, [.text table, .text name, .sqlType text] => some (.column (.new table name text))
  | _, _ => none

/-- A type whose last angle bracket is closed together with the one around it. -/
def closeBracket : Node → Node
  | .phrase .pathType [.phrase .path parts] =>
    let close : Node → Node
      | .phrase .segment [name, .phrase .genericArgs arguments] =>
        .phrase .segment [name, .phrase .genericArgs (arguments ++ [.punct ">"])]
      | other => other
    .phrase .pathType [.phrase .path (parts.dropLast ++ (parts.getLast?.map close).toList)]
  | type => type

/-- The type in the angle brackets of a call. -/
def typeArgument? : Node → Option Node
  | .phrase .genericArgs [_, _, type, .leaf (.punct ">" _)] => some type
  | .phrase .genericArgs [_, _, type, .leaf (.punct ">>" _)] => some (closeBracket type)
  | _ => none

/-- Whether a method changes a property bag. -/
def isChange (method : String) : Bool := method == "set" || method == "take"

/-- Changes a property bag: the result, and the bag afterwards. -/
def change? (method : String) (typeArguments : Node) (arguments : List (Datum α))
    (bag : Properties α) : Option (Datum α × Properties α) :=
  match method, arguments with
  | "set", [.text property, .value type value] => some (.unit, bag.set property type value)
  | "take", [.text property] =>
    (typeArgument? typeArguments).map fun type =>
      let (value, bag) := bag.take type property
      (.ofOption type value, bag)
  | _, _ => none

/-- The number that a literal writes in decimal, as a word. -/
def wordValue? (text : String) : Option UInt32 :=
  let digits := text.toList.takeWhile Char.isDigit
  let suffix := text.toList.drop digits.length
  if !digits.isEmpty && (suffix.isEmpty || suffix == ['u', '3', '2']) then
    some (UInt32.ofNat (Nat.ofDigitChars 10 digits 0))
  else none

def literalDatum? (text : String) : Option (Datum α) :=
  match stringValue? text with
  | some text => some (.text text)
  | none => (wordValue? text).map .word

/-! ### Expressions and statements -/

/-- Code that may change variables and may leave its function with a result. -/
abbrev Exec (α β : Type) := StateT (Bindings α) (ExceptT (Datum α) Option) β

namespace Exec

variable {β : Type}

/-- Code that cannot go on. -/
def stuck : Exec α β := fun _ => ExceptT.mk none

def ofOption : Option β → Exec α β
  | some result => pure result
  | none => stuck

def leave (datum : Datum α) : Exec α β := fun _ => ExceptT.mk (some (.error datum))

/-- Runs code with another variable, and forgets all variables that came with it. -/
def within (name : String) (datum : Datum α) (code : Exec α β) : Exec α β := fun bindings => do
  let (result, after) ← code ((name, datum) :: bindings)
  return (result, after.drop (after.length - bindings.length))

/-- Runs a block, and forgets its variables. -/
def block (code : Exec α β) : Exec α β := fun bindings => do
  let (result, after) ← code bindings
  return (result, after.drop (after.length - bindings.length))

def read (name : String) : Exec α (Datum α) := do
  ofOption ((← get).lookup (withoutRaw name))

end Exec

/-- What code takes from around it: the type that `Self` stands for, the functions that it can call,
the words among plain values, the defaults of fields, and what else expressions mean. -/
structure Surroundings (α : Type) where
  self : Node
  call : Callee → List (Datum α) → Option (Datum α)
  word? : α → Option UInt32
  fill : String → Typed Node (Value α)
  other : Node → Option (Datum α)

/-- Calls a method on a datum. -/
def Surroundings.method? (s : Surroundings α) (method : String) (typeArguments : Node)
    (datum : Datum α) (arguments : List (Datum α)) : Option (Datum α) :=
  match datum with
  | .bag content =>
    match method, arguments with
    | "get", [.text property] =>
      (typeArgument? typeArguments).map fun type => .ofOption type (content.get? type property)
    | _, _ => none
  | .column column =>
    match method, arguments with
    | "primary_key", [] => some (.column column.primaryKey)
    | "nullable", [] => some (.column column.nullable)
    | "references", [.text table, .text name] => some (.column (column.references table name))
    | "info", [] => some (.info column.info)
    | _, _ => none
  | .object type fields => s.call (.own type method) (.object type fields :: arguments)
  | .value type held =>
    match insideOption? type with
    | some inner =>
      match method, arguments with
      | "as_ref", [] => some (.ofOption inner held.content?)
      | _, _ => none
    | none =>
      match held with
      | .record content => s.call (.own type method) (.value type (.record content) :: arguments)
      | _ => none
  | _ => none

namespace Surroundings

mutual

/-- Evaluates an expression. -/
def eval (s : Surroundings α) : Node → Exec α (Datum α)
  | .phrase .pathExpr [own, path] =>
    match path.soleName? with
    | some name => Exec.read name
    | none => Exec.ofOption (s.other (.phrase .pathExpr [own, path]))
  | .phrase .literalExpr [_, .leaf (.literal text)] => Exec.ofOption (literalDatum? text)
  | .phrase .qualifiedPathExpr [_, .phrase .qualifiedPath
      [_, type, _, trait, _, _, .phrase .segment [.leaf (.ident name)]]] =>
    if trait = tableTrait then Exec.ofOption (s.call (.table (resolveSelf s.self type) name) [])
    else Exec.stuck
  | .phrase .parenExpr [_, .group .paren [expr]] => eval s expr
  | .phrase .referenceExpr [_, _, expr] => eval s expr
  | .phrase .fieldExpr [_, base, _, .leaf (.ident field)] => do
    let datum ← eval s base
    Exec.ofOption (datum.field? field)
  | .phrase .binaryExpr [_, left, .leaf (.punct operator _), right] => do
    let first ← eval s left
    let second ← eval s right
    Exec.ofOption (first.binary? s.word? operator second)
  | .phrase .tryExpr [_, expr, _] => do
    let datum ← eval s expr
    match datum.optional? with
    | some (some content) => return content
    | some none => Exec.leave .nothing
    | none => Exec.stuck
  | .phrase .callExpr [own, .phrase .pathExpr [inner, path], .group .paren arguments] =>
    match LibraryFunction.ofPath? path with
    | some function => do
      let values ← evalAll s arguments
      Exec.ofOption (function.call? values)
    | none =>
      match calleeOf? s.self path with
      | some callee => do
        let values ← evalAll s arguments
        Exec.ofOption (s.call callee values)
      | none => Exec.ofOption (s.other
          (.phrase .callExpr [own, .phrase .pathExpr [inner, path], .group .paren arguments]))
  | .phrase .methodCallExpr [_, receiver, _, .leaf (.ident method), _, .group .paren
      [.phrase .closureExpr
        [_, _, .phrase .pattern [_, .phrase .identPat [.leaf (.ident parameter)]], _, body]]] => do
    let datum ← eval s receiver
    match if method = "and_then" then datum.optional? else none with
    | some (some content) => Exec.within (withoutRaw parameter) content (eval s body)
    | some none => return .nothing
    | none => Exec.stuck
  | .phrase .methodCallExpr
      [_, receiver, _, .leaf (.ident method), typeArguments, .group .paren arguments] => do
    let bindings ← get
    match if isChange method then bindings.bagOf? receiver else none with
    | some (place, held, content) => do
      -- The arguments are evaluated while the variable is borrowed.
      let values ← Exec.within place.root .lent (evalAll s arguments)
      let (result, content) ← Exec.ofOption (change? method typeArguments values content)
      modify (Bindings.update place.root (held.withBag content))
      return result
    | none => do
      let datum ← eval s receiver
      let values ← evalAll s arguments
      Exec.ofOption (s.method? method typeArguments datum values)
  | .phrase .structExpr [_, .phrase .path path, .group .brace fields] => do
    let values ← evalFields s fields
    Exec.ofOption (Datum.ofFields? s.fill (resolveSelf s.self (pathType (.phrase .path path))) values)
  | .phrase .macroExpr [_, path, _, .group .bracket elements] =>
    if path = rootPath ["std", "vec"] then do
      let values ← evalAll s elements
      Exec.ofOption ((values.mapM Datum.info?).map .infos)
    else Exec.stuck
  | .phrase .ifExpr [_, _, .phrase .letExpr [_, _, .phrase .pattern
      [variant, .group .paren [.phrase .identPat [.leaf (.ident name)]]], _, scrutinee],
      .group .brace body] => do
    let datum ← eval s scrutinee
    match if variant = somePath then datum.optional? else none with
    | some (some content) => Exec.within (withoutRaw name) content (evalBlock s body)
    | some none => return .unit
    | none => Exec.stuck
  | .phrase .ifExpr [_, _, condition, .group .brace body] => do
    let datum ← eval s condition
    match datum with
    | .truth true => Exec.block (evalBlock s body)
    | .truth false => return .unit
    | _ => Exec.stuck
  | node => Exec.ofOption (s.other node)

/-- Evaluates the expressions between commas, left to right. -/
def evalAll (s : Surroundings α) : List Node → Exec α (List (Datum α))
  | [] => return []
  | .leaf _ :: rest => evalAll s rest
  | node :: rest => do
    let datum ← eval s node
    let values ← evalAll s rest
    return datum :: values

/-- Evaluates the fields of a struct literal, left to right. -/
def evalFields (s : Surroundings α) : List Node → Exec α (List (String × Datum α))
  | [] => return []
  | .leaf _ :: rest => evalFields s rest
  | .phrase .fieldValue [_, .leaf (.ident field), _, expr] :: rest => do
    let datum ← eval s expr
    let values ← evalFields s rest
    return (field, datum) :: values
  | .phrase .fieldValue [_, .leaf (.ident field)] :: rest => do
    let datum ← Exec.read field
    let values ← evalFields s rest
    return (field, datum) :: values
  | _ :: _ => Exec.stuck

/-- Runs the statements of a block; the value of the last is the result. -/
def evalBlock (s : Surroundings α) : List Node → Exec α (Datum α)
  | [] => return .unit
  | [.phrase .exprStmt [expr]] => eval s expr
  | .phrase .exprStmt (expr :: _) :: rest => do
    let _ ← eval s expr
    evalBlock s rest
  | .phrase .letStmt [_, _, .phrase .identPat pattern, _, expr, _] :: rest => do
    let datum ← eval s expr
    match Signature.boundName? (.phrase .identPat pattern) with
    | some name => do
      modify ((withoutRaw name, datum) :: ·)
      evalBlock s rest
    | none => Exec.stuck
  | _ :: _ => Exec.stuck

end

end Surroundings

/-! ### Functions and programs -/

/-- A function with a body. -/
structure Function where
  signature : Signature
  body : List Node

/-- The function that an item or a member declares. -/
def functionOf? : Node → Option Function
  | .phrase .fnItem [_, _, signature, .group .brace body] =>
    (Signature.ofNode? signature).map fun signature => ⟨signature, body⟩
  | .phrase .implFn [_, _, _, signature, .group .brace body] =>
    (Signature.ofNode? signature).map fun signature => ⟨signature, body⟩
  | _ => none

/-- The variables of a function that is called: its parameters in order, and `self` in front. -/
def bindInputs : List Node → List (Datum α) → Option (Bindings α)
  | [], [] => some []
  | input :: inputs, argument :: arguments =>
    if input.is .receiver then (bindInputs inputs arguments).map (("self", argument) :: ·)
    else
      (Signature.parameter? input).bind fun parameter =>
        (bindInputs inputs arguments).map
          ((withoutRaw parameter.name, argument.passedAs parameter.type) :: ·)
  | _, _ => none

/-- The result of a function, and its variables at the end if it is not left before. -/
def Function.run (function : Function) (s : Surroundings α) (arguments : List (Datum α)) :
    Option (Datum α × Bindings α) := do
  let bindings ← bindInputs function.signature.inputs arguments
  match ← (s.evalBlock function.body).run bindings with
  | .ok (result, bindings) => return (result, bindings)
  | .error result => return (result, [])

/-- The members of the implementations of a type itself. -/
def ownMembers (items : List Node) (type : Node) : List Node :=
  items.flatMap fun item =>
    match item with
    | .phrase .implItem [_, _, _, _, .phrase .implFor [], self, _, .group .brace members] =>
      if self = type then members else []
    | _ => []

/-- The members of the first implementation of the trait of tables for a type. -/
def tableMembers? (items : List Node) (type : Node) : Option (List Node) :=
  items.findSome? fun item =>
    match item with
    | .phrase .implItem [_, _, _, _, .phrase .implFor [trait, _], self, _,
        .group .brace members] =>
      if trait = tableTrait ∧ self = type then some members else none
    | _ => none

/-- The value of a constant of a name. -/
def constantOf? (name : String) : Node → Option Node
  | .phrase .member [_, _, _, _, .leaf (.ident own), _, _, _, value, _] =>
    if own = name then some value else none
  | _ => none

def functionNamed? (members : List Node) (name : String) : Option Function :=
  (members.filterMap functionOf?).find? (·.signature.name == name)

/-- Generated items that run, and what they take from elsewhere: the constants of types that they do
not declare, the words among plain values, the defaults of fields, and the meaning of expressions
that are not about generated code. -/
structure Program (α : Type) where
  items : List Node
  constant : Node → String → Option (Datum α)
  word? : α → Option UInt32
  fill : String → Typed Node (Value α)
  other : Node → Option (Datum α)

namespace Program

/-- What the code of a type can use, where calls mean what `call` says. -/
def surroundings (program : Program α) (call : Callee → List (Datum α) → Option (Datum α))
    (self : Node) : Surroundings α :=
  ⟨self, call, program.word?, program.fill, program.other⟩

/-- A function or constant of a type as a table; an optional constant that is not declared is
nothing. -/
def tableMember? (program : Program α) (call : Callee → List (Datum α) → Option (Datum α))
    (type : Node) (name : String) (arguments : List (Datum α)) : Option (Datum α) :=
  let s := program.surroundings call type
  match tableMembers? program.items type with
  | none => program.constant type name
  | some members =>
    match functionNamed? members name, members.findSome? (constantOf? name) with
    | some function, _ => (function.run s arguments).map (·.1)
    | none, some value => (Function.run ⟨default, [resultOf value]⟩ s []).map (·.1)
    | none, none => some .nothing

/-- Runs a function or constant with at most `depth` calls inside each other. -/
def call? (program : Program α) : Nat → Callee → List (Datum α) → Option (Datum α)
  | 0, _, _ => none
  | depth + 1, .function name, arguments =>
    (functionNamed? program.items name).bind fun function =>
      (function.run (program.surroundings (call? program depth) (namedType "Self"))
        arguments).map (·.1)
  | depth + 1, .own type name, arguments =>
    (functionNamed? (ownMembers program.items type) name).bind fun function =>
      (function.run (program.surroundings (call? program depth) type) arguments).map (·.1)
  | depth + 1, .table type name, arguments =>
    program.tableMember? (call? program depth) type name arguments

/-- The method of a name that a type has for one kind of receiver. -/
def method? (program : Program α) (type receiver : Node) (name : String) : Option Function :=
  ((ownMembers program.items type).filterMap functionOf?).find? fun function =>
    function.signature.name = name ∧ function.signature.inputs.head? = some receiver

/-- What a method shows of a record. -/
def show? (program : Program α) (depth : Nat) (type : Node) (method : String)
    (content : Properties α) : Option (Datum α) := do
  let function ← program.method? type selfByReference method
  let s := program.surroundings (program.call? depth) type
  return (← function.run s [.value type (.record content)]).1

/-- What a method makes of a record that it may change. -/
def change? (program : Program α) (depth : Nat) (type : Node) (method : String)
    (content : Properties α) (value : Value α) : Option (Properties α) := do
  let function ← program.method? type selfByMutable method
  let s := program.surroundings (program.call? depth) type
  let (_, bindings) ← function.run s [.value type (.record content), .passing value]
  (← bindings.lookup "self").record?

/-- The table that a type describes. -/
def table? (program : Program α) (depth : Nat) (type : Node) : Option Database.Table := do
  let member (name : String) (arguments : List (Datum α)) : Option (Datum α) :=
    program.call? depth (.table type name) arguments
  return {
    name := ← (← member "TABLE_NAME" []).text?
    aliasName := ← (← member "ALIAS" []).optionalText?
    catalog := ← (← member "CATALOG" []).optionalText?
    schema := ← (← member "SCHEMA" []).optionalText?
    columns := ← (← member "columns" [.object type []]).infos? }

end Program

end EntityTables.Generated
