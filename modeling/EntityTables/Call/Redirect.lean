import EntityTables.Call.Pair
import EntityTables.Error
import EntityTables.Syntax.Grammar

/-!
# Redirecting a call

A call of a virtual function becomes a call of its implementation. Arguments take the places of their
parameters, places without an argument hold `None`, and the flags tell which were supplied. If that
changes the order of the arguments, a `match` evaluates them in the order in which they were written.
-/

namespace EntityTables.Call

open EntityTables.Syntax

inductive Argument
  | positional (value : Node)
  | named (name : String) (value : Node)
deriving Inhabited

/-- The name that an assignment gives its value, if its left side is a name alone. -/
def assignedName? : Node → Option String
  | .phrase .pathExpr [.phrase .attributes [], path] => path.soleName?
  | _ => none

/-- An argument as it is written: an assignment to a name gives a parameter by name. -/
def Argument.ofExpr : Node → Argument
  | .phrase .assignExpr [attributes, left, sign, value] =>
    match assignedName? left with
    | some name => .named name value
    | none => .positional (.phrase .assignExpr [attributes, left, sign, value])
  | expr => .positional expr

def Argument.isNamed : Argument → Bool
  | .positional _ => false
  | .named _ _ => true

/-- What is called: a function by its path, or a method of a receiver. -/
inductive Callee
  | function (attributes path : Node)
  | method (receiver dot : Node) (name : String) (turbofish : Node)
deriving Inhabited

structure CallExpr where
  attributes : Node
  callee : Callee
  arguments : List Argument
deriving Inhabited

/-- The expressions between the commas of an argument list. -/
def argumentsOf (body : List Node) : List Argument :=
  (body.filter fun node => !node.isPunct ",").map .ofExpr

def CallExpr.ofNode? : Node → Option CallExpr
  | .phrase .callExpr [attributes, .phrase .pathExpr [own, path], .group .paren body] =>
    some ⟨attributes, .function own path, argumentsOf body⟩
  | .phrase .methodCallExpr
      [attributes, receiver, dot, .leaf (.ident name), turbofish, .group .paren body] =>
    some ⟨attributes, .method receiver dot name turbofish, argumentsOf body⟩
  | _ => none

/-- Binds arguments to positions, in the order in which they are written. -/
def bindFrom (function : VirtualFunction) (positionalCount : Nat) (place : Nat) (named : Bool)
    (bound : List (Nat × Node)) : List Argument → Except CallError (List (Nat × Node))
  | [] => .ok bound
  | .positional value :: rest =>
    if named then .error (.positionalAfterNamed function.name)
    else if place ≥ function.parameters.length then
      .error (.tooManyArguments function.name function.parameters.length positionalCount)
    else
      bindFrom function positionalCount (place + 1) false (bound ++ [(place, value)]) rest
  | .named name value :: rest =>
    match function.position? name with
    | none => .error (.unknownParameter function.name name)
    | some index =>
      if bound.any (·.1 == index) then .error (.duplicateArgument function.name name)
      else
        bindFrom function positionalCount (place + 1) true (bound ++ [(index, value)]) rest

/-- Binds the arguments of a call to the positions of parameters. -/
def bindArguments (function : VirtualFunction) (arguments : List Argument) :
    Except CallError (List (Nat × Node)) :=
  bindFrom function (arguments.filter fun argument => !argument.isNamed).length 0 false []
    arguments

/-- Whether some number is followed by a smaller one. -/
def hasDescent : List Nat → Bool
  | a :: b :: rest => a > b || hasDescent (b :: rest)
  | _ => false

/-- Whether an expression is a place, which can be evaluated later without a difference. -/
def isPlace : Node → Bool
  | .phrase .pathExpr _ => true
  | .phrase .fieldExpr [_, base, _, _] => isPlace base
  | .phrase .parenExpr [_, .group _ [inner]] => isPlace inner
  | .phrase .referenceExpr [_, _, inner] => isPlace inner
  | .phrase .referenceExpr [_, _, _, inner] => isPlace inner
  | _ => false

/-- The path of an implementation as a call of its function writes it. A single name of another
module becomes the full path. -/
def implementationPath (path : Node) (implementation container module : String) : Node :=
  let renamed (segment : Node) : Node :=
    .phrase .segment (.ident implementation :: segment.parts.drop 1)
  let renameLast : Node :=
    match path.parts.getLast? with
    | some last => .phrase .path (path.parts.dropLast ++ [renamed last])
    | none => path
  match path.parts with
  | [only] =>
    if container == module then renameLast
    else
      match parsePath? container with
      | some qualified =>
        .phrase .path (qualified.parts.map expressionSegment ++ [.punct "::", renamed only])
      | none => renameLast
  | _ => renameLast

def localName (parameter : String) : String := "__tablegen_" ++ withoutRaw parameter

structure Binding where
  value : Node
  pattern : List Node

def optionPath (name : String) : Node :=
  pathExpr (absolutePath [segmentOf "core", segmentOf "option", segmentOf "Option", segmentOf name])

def someExpr (value : Node) : Node :=
  .phrase .callExpr [.empty .attributes, optionPath "Some", parens [value]]

/-- The expression for a parameter: its argument, wrapped if need be, or nothing. -/
def slotExpr (parameter : ImplementationParameter) : Option Node → Node
  | some value => if parameter.wrapped then someExpr value else value
  | none => optionPath "None"

def wordExpr (word : UInt32) : Node :=
  .phrase .literalExpr [.empty .attributes, .literal (toString word.toNat ++ "u32")]

/-- A call behind a `match` that binds values in order. -/
def bindingMatch (bindings : List Binding) (mutableReceiver : Bool) (call : Node) : Node :=
  let attributes := if mutableReceiver then [listAttribute "allow" [[.ident "unused_mut"]]] else []
  let arm := Node.phrase .arm
    [.phrase .attributes attributes,
      .phrase .pattern [parens (commaEnded (bindings.map (·.pattern)))], .punct "=>", call]
  .phrase .matchExpr [.empty .attributes, .ident "match",
    .phrase .tupleExpr [.empty .attributes, parens (commaEnded (bindings.map fun b => [b.value]))],
    braces [arm]]

structure RedirectedCall where
  expr : Node
  supplied : List Nat
  flags : List UInt32
  reordered : Bool

/-- The receiver of a redirected call and, if it has to be evaluated first, its binding. -/
def bindReceiver (reordered : Bool) (receiver : Node) : Node × Option Binding :=
  if reordered && !isPlace receiver then
    let name := localName "receiver"
    (nameExpr name, some ⟨receiver, [.ident "mut", .ident name]⟩)
  else (receiver, none)

/-- What is bound to each parameter, of those that have an argument. -/
def slotOf? {α : Type} (bound : List (Nat × α)) (index : Nat) : Option α :=
  (bound.find? (·.1 == index)).map (·.2)

def parameterLocal (implementation : ImplementationFunction) (position : Nat) : String :=
  localName ((implementation.parameters[position]?.map (·.name)).getD "")

def argumentBindings (implementation : ImplementationFunction) (bound : List (Nat × Node)) :
    List Binding :=
  bound.map fun (position, value) => ⟨value, [.ident (parameterLocal implementation position)]⟩

def placedLocals (implementation : ImplementationFunction) (bound : List (Nat × Node)) :
    List (Nat × Node) :=
  bound.map fun (position, _) => (position, nameExpr (parameterLocal implementation position))

/-- The arguments of an implementation: one for each parameter, then the words of the flags. -/
def implementationArguments (implementation : ImplementationFunction) (targets : List Nat)
    (placed : List (Nat × Node)) : Node :=
  let arguments := implementation.parameters.zipIdx.map fun (parameter, position) =>
    slotExpr parameter (slotOf? placed position)
  let flags := implementation.encoding.encode targets
  parens (commaSeparated (arguments ++ flags.map wordExpr))

/-- A call behind its bindings, if it has any. -/
def behind (bindings : List Binding) (mutableReceiver : Bool) (call : Node) : Node :=
  if bindings.isEmpty then call else bindingMatch bindings mutableReceiver call

/-- The expression that takes the place of a call whose arguments are bound to positions. -/
def redirectedExpr (call : CallExpr) (pair : Pair) (module : String)
    (bound : List (Nat × Node)) : Node :=
  let implementation := pair.implementation
  let targets := bound.map (·.1)
  let reordered := hasDescent targets
  let arguments := implementationArguments implementation targets
    (if reordered then placedLocals implementation bound else bound)
  let bindings := if reordered then argumentBindings implementation bound else []
  match call.callee with
  | .function attributes path =>
    let path := implementationPath path implementation.name pair.virtual.container module
    behind bindings false
      (.phrase .callExpr [call.attributes, .phrase .pathExpr [attributes, path], arguments])
  | .method receiver dot _ turbofish =>
    let (receiver, binding) := bindReceiver reordered receiver
    behind (binding.toList ++ bindings) binding.isSome
      (.phrase .methodCallExpr
        [call.attributes, receiver, dot, .ident implementation.name, turbofish, arguments])

/-- Redirects a call of a virtual function in a module. -/
def redirectCall (call : CallExpr) (pair : Pair) (module : String) :
    Except CallError RedirectedCall := do
  let bound ← bindArguments pair.virtual call.arguments
  let targets := bound.map (·.1)
  return {
    expr := redirectedExpr call pair module bound
    supplied := targets.mergeSort
    flags := pair.implementation.encoding.encode targets
    reordered := hasDescent targets }

end EntityTables.Call
