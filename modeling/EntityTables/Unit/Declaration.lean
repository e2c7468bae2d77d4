import EntityTables.Error
import EntityTables.Marker.Basic
import EntityTables.Syntax.Signature

/-!
# Declarations

A named item of a source file, classified once when it is read: structs with named fields and unit
structs, traits as interfaces, and anything else, which only has a kind. The properties of a
struct are its fields; those of an interface are its abstract getters.
-/

namespace EntityTables

open EntityTables.Syntax
open EntityTables.Marker (ArgumentError)

/-- A property of an entity. A property is backed if it holds a value. -/
structure Property where
  name : String
  type : Node
  column : Option Marker.Column
  primaryKey : Bool
  references : Option Marker.Reference
  mutable : Bool
  backed : Bool
deriving Inhabited

namespace Property

def isPhantom (type : Node) : Bool :=
  (type.typePath?.bind Node.lastName?) == some "PhantomData"

/-- Reads a property with its markers. The column marker is read first, and its error is the only
one. -/
def read (name : String) (type : Node) (attributes : List Node) (mutable : Bool) :
    Except ArgumentError Property := do
  let column ← Marker.Column.find? attributes
  let references ← Marker.Reference.find? attributes
  return {
    name, type, column, references, mutable
    primaryKey := Node.anyMarker "primary_key" attributes
    backed := !isPhantom type }

def isIgnored (property : Property) : Bool := (property.column.map (·.ignore)).getD false

/-- The properties that were read without error, unless there were errors: then all of these. -/
def collect (results : List (Except ArgumentError Property)) : Except ArgumentError (List Property) :=
  let errors := results.filterMap fun result =>
    match result with
    | .error error => some error
    | .ok _ => none
  match ArgumentError.join errors with
  | some error => .error error
  | none => .ok (results.filterMap Except.toOption)

end Property

inductive Shape
  | struct (isUnit : Bool) (properties : List Property)
  | interface (extendsEntity : Bool) (properties : List Property)
  | other (kind : ItemKind)
deriving Inhabited

structure Declaration where
  key : Key
  name : String
  table : Option Marker.Table
  shape : Shape
deriving Inhabited

namespace Declaration

def kind (declaration : Declaration) : ItemKind :=
  match declaration.shape with
  | .struct true _ => .unitStruct
  | .struct false _ => .struct
  | .interface _ _ => .trait
  | .other kind => kind

def isTable (declaration : Declaration) : Bool := declaration.table.isSome

def properties (declaration : Declaration) : List Property :=
  match declaration.shape with
  | .struct _ properties => properties
  | .interface _ properties => properties
  | .other _ => []

/-- A declaration of a known shape, with the marker of a table if there is one. -/
def ofShape (module name : String) (attributes : List Node) (shape : Shape) :
    Except ArgumentError Declaration := do
  let table ← Marker.Table.find? attributes
  return { key := .within module name, name, table, shape }

/-- The name, type and attributes of a named field. -/
def fieldProperty? : Node → Option (Except ArgumentError Property)
  | .phrase .field [.phrase .attributes attributes, _, .leaf (.ident name), _, type] =>
    some (Property.read name type attributes true)
  | _ => none

/-- The shape of a struct, by what stands after its parameters. -/
def structShape : List Node → Except ArgumentError Shape
  | [_, .group .brace fields] => do
    return .struct false (← Property.collect (fields.filterMap fieldProperty?))
  | [.group .paren _, _, _] => .ok (.other .tupleStruct)
  | _ => .ok (.struct true [])

def ofStruct (module name : String) (attributes rest : List Node) :
    Except ArgumentError Declaration := do
  ofShape module name attributes (← structShape rest)

structure Method where
  attributes : List Node
  signature : Signature
  isAbstract : Bool

def method? : Node → Option Method
  | .phrase .traitFn [.phrase .attributes attributes, signature, body] =>
    (Signature.ofNode? signature).map fun signature =>
      { attributes, signature, isAbstract := body.isPunct ";" }
  | _ => none

/-- The type of a property, if a method is its getter: it takes only `&self` and has a result. -/
def getterType? (signature : Signature) : Option Node :=
  match signature.inputs with
  | [receiver] =>
    if !signature.hasGenerics && receiver.is .receiver && Signature.isReference receiver &&
        !Signature.isMutable receiver then
      signature.outputType?
    else none
  | _ => none

/-- A name without a given front. -/
def withoutFront? (front name : String) : Option String :=
  if front.toList.isPrefixOf name.toList then
    some (String.ofList (name.toList.drop front.length))
  else none

/-- The property that a method sets: it takes a receiver that may be changed and one value, and has
no result. -/
def setterTarget? (signature : Signature) : Option String :=
  match withoutFront? "set_" signature.name, signature.inputs with
  | some property, [receiver, _] =>
    if signature.outputType?.isNone && receiver.is .receiver && Signature.isMutable receiver then
      some property
    else none
  | _, _ => none

def methodProperties (methods : List Method) : Except ArgumentError (List Property) :=
  let abstract := methods.filter (·.isAbstract)
  let targets := abstract.filterMap fun method => setterTarget? method.signature
  Property.collect (abstract.filterMap fun method =>
    (getterType? method.signature).map fun type =>
      let name := method.signature.name
      Property.read name type method.attributes (targets.contains name))

/-- Whether one of the bounds of a trait is `Entity`. -/
def extendsEntity (supertraits : Node) : Bool :=
  (supertraits.parts.filterMap Node.boundPath?).any fun path => path.lastName? == some "Entity"

def ofTrait (module name : String) (attributes : List Node) (supertraits body : Node) :
    Except ArgumentError Declaration := do
  let properties ← methodProperties (body.parts.filterMap method?)
  ofShape module name attributes (.interface (extendsEntity supertraits) properties)

/-- The names of the parameters of a function, in order. -/
def parameterNames (signature : Signature) : List String :=
  signature.parameters.map (·.name)

end Declaration

end EntityTables
