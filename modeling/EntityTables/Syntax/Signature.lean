import EntityTables.Syntax.Compose
import EntityTables.Syntax.Path

/-!
# Signatures of functions

A signature as a record of its parts, and what its parameters tell.
-/

namespace EntityTables.Syntax

/-- The signature of a function: its inputs are receivers and parameters, without the mark of
variable parameters. -/
structure Signature where
  name : String
  hasGenerics : Bool
  inputs : List Node
  output : Node
deriving Repr, Inhabited

structure Parameter where
  name : String
  type : Node
deriving Repr, Inhabited

namespace Signature

def ofNode? : Node → Option Signature
  | .phrase .signature [_, _, .leaf (.ident name), generics, .group .paren inputs, output, _] =>
    some {
      name
      hasGenerics := !generics.parts.isEmpty
      inputs := inputs.filter fun input => input.is .receiver || input.is .param
      output }
  | _ => none

/-- The phrase of a signature without generics and qualifiers. -/
def toNode (signature : Signature) : Node :=
  .phrase .signature [.empty .qualifiers, .ident "fn", .ident signature.name, .empty .generics,
    parens (commaSeparated signature.inputs), signature.output, .empty .whereClause]

def inputOf (name : String) (type : Node) : Node :=
  .phrase .param [.empty .attributes, .phrase .identPat [.ident name], .punct ":", type]

def outputOf (type : Node) : Node := .phrase .returnType [.punct "->", type]

/-- The receiver, if the first input is one. -/
def receiver? (signature : Signature) : Option Node :=
  signature.inputs.head?.filter (Node.is .receiver)

/-- The name that a pattern binds, if it is a name alone. -/
def boundName? : Node → Option String
  | .phrase .identPat parts =>
    (parts.filterMap Node.identName?).find? fun word => word != "ref" && word != "mut"
  | _ => none

def parameter? : Node → Option Parameter
  | .phrase .param [_, pattern, _, type] => (boundName? pattern).map fun name => ⟨name, type⟩
  | _ => none

def parameters (signature : Signature) : List Parameter := signature.inputs.filterMap parameter?

/-- The type after the arrow, if there is one. -/
def outputType? (signature : Signature) : Option Node :=
  match signature.output with
  | .phrase .returnType [_, type] => some type
  | _ => none

def isReference (receiver : Node) : Bool := receiver.parts.any (Node.isPunct "&")

def isMutable (receiver : Node) : Bool := receiver.parts.any (Node.isIdent "mut")

end Signature

end EntityTables.Syntax
