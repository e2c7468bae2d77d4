import EntityTables.Call.Flags
import EntityTables.Syntax.Compose
import EntityTables.Syntax.Signature

/-!
# Virtual functions and their implementations

A virtual function may be called with any of its parameters, in any order, by name. Its
implementation takes every parameter in optional form and one word of flags for each 32 of them.
-/

namespace EntityTables.Call

open EntityTables.Syntax

def implementationPrefix : String := "__impl_"

/-- A function that callers name. -/
structure VirtualFunction where
  name : String
  container : String
  receiver : Bool
  parameters : List Parameter
  output : Node
deriving Repr, Inhabited

namespace VirtualFunction

def ofSignature (container : String) (signature : Signature) : VirtualFunction where
  name := signature.name
  container := container
  receiver := signature.receiver?.isSome
  parameters := signature.parameters
  output := signature.output

def position? (function : VirtualFunction) (name : String) : Option Nat :=
  function.parameters.findIdx? (·.name == name)

end VirtualFunction

/-- A parameter of an implementation; it is wrapped if its type is not optional by itself. -/
structure ImplementationParameter where
  name : String
  type : Node
  wrapped : Bool
deriving Repr, Inhabited

def ImplementationParameter.of (parameter : Parameter) : ImplementationParameter :=
  let nullable := parameter.type.stripOption.2
  { name := parameter.name
    type := if nullable then parameter.type else optionOf parameter.type
    wrapped := !nullable }

/-- The type of the values that are stored for a parameter: what a wrapped one has inside. -/
def ImplementationParameter.storedType (parameter : ImplementationParameter) : Node :=
  if parameter.wrapped then (insideOption? parameter.type).getD parameter.type else parameter.type

theorem ImplementationParameter.storedType_of (parameter : Parameter) :
    (ImplementationParameter.of parameter).storedType = parameter.type := by
  cases hnullable : parameter.type.stripOption.2 <;>
    simp [ImplementationParameter.of, storedType, hnullable, insideOption?_optionOf]

/-- The function that redirected calls call. -/
structure ImplementationFunction where
  name : String
  parameters : List ImplementationParameter
  flags : List String
  encoding : FlagEncoding
deriving Repr, Inhabited

/-- Whether a signature is that of an implementation, as far as its name and the number of its
parameters tell. -/
def ImplementationFunction.conforms (implementation : ImplementationFunction)
    (signature : Signature) : Bool :=
  signature.name == implementation.name &&
    signature.parameters.length ==
      implementation.parameters.length + implementation.flags.length

structure Pair where
  virtual : VirtualFunction
  implementation : ImplementationFunction
deriving Repr, Inhabited

def isRaw (name : String) : Bool := ['r', '#'].isPrefixOf name.toList

/-- A name without the mark of a raw identifier. -/
def withoutRaw (name : String) : String :=
  if isRaw name then String.ofList (name.toList.drop 2) else name

/-- The name of the implementation of a virtual function; raw identifiers take no prefix. -/
def implementationName? (name : String) : Option String :=
  if isRaw name then none else some (implementationPrefix ++ name)

/-- The implementation that belongs to a virtual function, unless its name is raw. -/
def Pair.derive? (virtual : VirtualFunction) : Option Pair :=
  (implementationName? virtual.name).map fun name =>
    let encoding : FlagEncoding := ⟨virtual.parameters.length⟩
    { virtual
      implementation := {
        name
        parameters := virtual.parameters.map .of
        flags := encoding.flagNames
        encoding } }

end EntityTables.Call
