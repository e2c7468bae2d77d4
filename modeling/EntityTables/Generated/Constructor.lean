import EntityTables.Call.Redirect
import EntityTables.Call.Registry
import EntityTables.Generated.Basic
import EntityTables.Syntax.Signature

/-!
# Constructors

The virtual function that makes the record of an interface, with one parameter for each column, and
its implementation: it sets the properties whose bits are set in the flags.
-/

namespace EntityTables.Generated

open EntityTables.Syntax EntityTables.Schema
open EntityTables.Call (VirtualFunction ImplementationParameter FlagEncoding Pair)

/-- What an implementation does for a parameter: if the bit of the mask is set in the flags, the
property of the same name takes the value of the parameter. -/
structure Assignment where
  parameter : ImplementationParameter
  flag : String
  mask : UInt32
deriving Inhabited

/-- A constructor: its functions, and the assignments of its implementation in order. -/
structure Constructor where
  entity : String
  signature : Signature
  pair : Pair
  assignments : List Assignment

def constructorSignature (table : Table) : Signature where
  name := table.entity
  hasGenerics := false
  inputs := table.columns.map fun column => Signature.inputOf column.property column.storedType
  output := Signature.outputOf (recordType table.entity)

def assignmentsOf (pair : Pair) : List Assignment :=
  let implementation := pair.implementation
  implementation.parameters.zipIdx.map fun (parameter, index) =>
    let (word, bit) := FlagEncoding.locate index
    ⟨parameter, implementation.flags[word]?.getD "", FlagEncoding.mask bit⟩

/-- The constructor of a table in a container. -/
def Constructor.of (table : Table) (container : String) : Except Error Constructor :=
  let signature := constructorSignature table
  match Pair.derive? (.ofSignature container signature) with
  | some pair => .ok ⟨table.entity, signature, pair, assignmentsOf pair⟩
  | none => .error (.rawFunctionName table.entity)

/-- The local of the record that an implementation makes. -/
def recordLocal : String := "record"

/-- Whether a bit of the mask is set in the flags. -/
def Assignment.condition (assignment : Assignment) : Node :=
  binary (parenthesized (binary (nameExpr assignment.flag) "&" (Call.wordExpr assignment.mask)))
    "!=" (literalExprOf "0")

/-- What is done if the bit is set: a wrapped parameter is stored if it is present. -/
def Assignment.body (assignment : Assignment) : Node :=
  let name := assignment.parameter.name
  let store (value : String) : Node :=
    storing (fieldOf (nameExpr recordLocal) "record") name (nameExpr value)
  if assignment.parameter.wrapped then
    resultOf (ifThen (letSome "value" (nameExpr name)) [store "value"])
  else store name

def Assignment.code (assignment : Assignment) : Node :=
  resultOf (ifThen assignment.condition [assignment.body])

def publicFunction (attributes : List Node) (signature : Signature) (body : List Node) : Node :=
  .phrase .fnItem [.phrase .attributes attributes, publicly, signature.toNode, braces body]

def Constructor.virtualItem (constructor : Constructor) : Node :=
  let entity := constructor.entity
  publicFunction
    [docAttribute ("Builds an `" ++ entity ++
        "` record from named arguments. Omitted arguments stay unset."),
      markerAttribute Call.virtualMarker,
      allowing ["non_snake_case", "unused_variables", "dead_code", "clippy :: too_many_arguments"]]
    constructor.signature
    [resultOf (macroCallOf (rootPath ["core", "unreachable"])
      (parens [stringLiteral ("`" ++ entity ++ "` calls must be rewritten before compilation")]))]

def Constructor.implementationSignature (constructor : Constructor) : Signature :=
  let implementation := constructor.pair.implementation
  { constructor.signature with
    name := implementation.name
    inputs :=
      (implementation.parameters.map fun parameter =>
        Signature.inputOf parameter.name parameter.type) ++
      implementation.flags.map fun flag => Signature.inputOf flag (namedType "u32") }

def Constructor.implementationItem (constructor : Constructor) : Node :=
  let create := callOf (namePath [recordName constructor.entity, "new"]) []
  publicFunction
    [docAttribute ("Target of rewritten `" ++ constructor.entity ++ "` calls."),
      markerAttribute Call.implementationMarker,
      allowing ["non_snake_case", "clippy :: too_many_arguments"]]
    constructor.implementationSignature
    (letMut [allowing ["unused_mut"]] recordLocal create ::
      constructor.assignments.map Assignment.code ++ [resultOf (nameExpr recordLocal)])

end EntityTables.Generated
