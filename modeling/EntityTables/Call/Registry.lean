import EntityTables.Call.Pair
import EntityTables.Keyed
import EntityTables.Syntax.Attribute
import EntityTables.Unit.Basic

/-!
# The registry of virtual functions

All virtual functions that were found, with the implementations that belong to them, and which of
them a call means. A pair is kept only as long as it agrees with both functions.
-/

namespace EntityTables.Call

open EntityTables.Syntax EntityTables.Text

def virtualMarker : String := "virtual_fn"

def implementationMarker : String := "implementation_fn"

/-- The place of a function: its container and its name. -/
structure FunctionKey where
  container : String
  name : String
deriving DecidableEq, Repr, Inhabited

/-- Functions are ordered by container, then by name. -/
instance : LT FunctionKey where
  lt a b := a.container < b.container ∨ (a.container = b.container ∧ a.name < b.name)

instance : DecidableLT FunctionKey := fun a b =>
  inferInstanceAs (Decidable (a.container < b.container ∨
    (a.container = b.container ∧ a.name < b.name)))

/-- The place of a virtual function. -/
def VirtualFunction.key (function : VirtualFunction) : FunctionKey :=
  ⟨function.container, function.name⟩

structure Registry where
  virtuals : Keyed FunctionKey VirtualFunction
  implementations : Keyed FunctionKey Signature
  pairs : Keyed FunctionKey Pair
deriving Inhabited

namespace Registry

/-- The registry without functions. -/
def empty : Registry := ⟨[], [], []⟩

def insertPair (registry : Registry) (pair : Pair) : Registry :=
  let key := pair.virtual.key
  { registry with
    virtuals := registry.virtuals.insert key pair.virtual
    pairs := registry.pairs.insert key pair }

def ofPairs (pairs : List Pair) : Registry := pairs.foldl insertPair empty

/-- The pair of two functions, if they belong together. -/
def pairOf? (virtual : VirtualFunction) (signature : Signature) : Option Pair :=
  (Pair.derive? virtual).filter fun pair => pair.implementation.conforms signature

/-- Pairs the functions at a place, or parts them if they do not belong together. -/
def link (registry : Registry) (key : FunctionKey) : Registry :=
  match registry.virtuals.find? key, registry.implementations.find? key with
  | some virtual, some signature =>
    match pairOf? virtual signature with
    | some pair => { registry with pairs := registry.pairs.insert key pair }
    | none => { registry with pairs := registry.pairs.erase key }
  | _, _ => registry

def insertVirtual (registry : Registry) (virtual : VirtualFunction) : Registry :=
  link { registry with virtuals := registry.virtuals.insert virtual.key virtual } virtual.key

def implementedName? (name : String) : Option String :=
  let front := implementationPrefix.toList
  if front.isPrefixOf name.toList then some (String.ofList (name.toList.drop front.length))
  else none

/-- Adds an implementation, unless its name is none of an implementation. -/
def insertImplementation (registry : Registry) (container : String) (signature : Signature) :
    Registry :=
  match implementedName? signature.name with
  | some name =>
    let key : FunctionKey := ⟨container, name⟩
    link { registry with
      implementations := registry.implementations.insert key signature } key
  | none => registry

def scanFunction (registry : Registry) (container : String) (attributes : List Node)
    (signature : Node) : Registry :=
  match Signature.ofNode? signature with
  | none => registry
  | some signature =>
    if Node.anyMarker virtualMarker attributes then
      registry.insertVirtual (.ofSignature container signature)
    else if Node.anyMarker implementationMarker attributes then
      registry.insertImplementation container signature
    else registry

def scanItem (registry : Registry) (placed : PlacedItem) : Registry :=
  match placed.item with
  | .phrase .fnItem [attributes, visibility, signature, body] =>
    let item := Node.phrase .fnItem [attributes, visibility, signature, body]
    registry.scanFunction placed.module item.attributes signature
  | .phrase .implItem [_, _, _, _, _, selfType, _, body] =>
    match selfType.typePath? with
    | none => registry
    | some path =>
      let container := nameWithin placed.module path.pathText
      body.parts.foldl (fun registry member =>
        match member with
        | .phrase .implFn [attributes, visibility, qualifiers, signature, body] =>
          let item := Node.phrase .implFn [attributes, visibility, qualifiers, signature, body]
          registry.scanFunction container item.attributes signature
        | _ => registry) registry
  | _ => registry

def scanFile (registry : Registry) (container : String) (file : Node) : Registry :=
  (placeItems container (file.parts.drop 1)).foldl scanItem registry

def size (registry : Registry) : Nat := registry.virtuals.length

end Registry

inductive Resolution
  | pair (pair : Pair)
  | unpaired (key : FunctionKey)
  | ambiguous (keys : List FunctionKey)
  | unverified (keys : List FunctionKey)
  | notVirtual

namespace Registry

def inContainer (keys : List FunctionKey) (container : String) : List FunctionKey :=
  keys.filter (·.container == container)

/-- The functions of a preferred container if there are any, otherwise all. -/
def preferContainer (keys : List FunctionKey) (container : String) : List FunctionKey :=
  match keys.find? (·.container == container) with
  | some key => [key]
  | none => keys

/-- The container that leading `self` and `super` lead to. -/
def relativeParts? (base : List String) : List String → Option (List String)
  | "self" :: rest => relativeParts? base rest
  | "super" :: rest =>
    let parent := base.dropLast
    if parent.isEmpty then none else relativeParts? parent rest
  | names => some (base ++ names)

/-- The functions that a qualified name means, out of those with its last name. -/
def chooseByQualifier (keys : List FunctionKey) (qualifier : List String) (module : String) :
    List FunctionKey :=
  let relative :=
    match relativeParts? (nameParts module) qualifier with
    | some parts => inContainer keys (joinNames parts)
    | none => []
  match qualifier with
  | [] => preferContainer keys module
  | "crate" :: _ => inContainer keys (joinNames qualifier)
  | "self" :: _ => relative
  | "super" :: _ => relative
  | _ =>
    let suffixed := keys.filter fun key => endsInParts key.container qualifier
    preferContainer suffixed (nameWithin module (joinNames qualifier))

/-- What a call means when it can only be one of some functions. -/
def outcome (registry : Registry) : List FunctionKey → Resolution
  | [] => .notVirtual
  | [key] =>
    match registry.pairs.find? key with
    | some pair => .pair pair
    | none => .unpaired key
  | keys => .ambiguous keys

/-- What the names of a called function mean in a module. -/
def resolveNames (registry : Registry) (names : List String) (module : String) : Resolution :=
  match names.getLast? with
  | none => .notVirtual
  | some name =>
    let keys := Keyed.keys (registry.virtuals.filter fun (key, function) =>
      key.name == name && !function.receiver)
    registry.outcome (chooseByQualifier keys names.dropLast module)

def resolveFunction (registry : Registry) (path : Node) (module : String) : Resolution :=
  registry.resolveNames path.pathNames module

/-- What a called method means. The type of the receiver is known only for `self` in an
implementation; otherwise arguments by name have to show that a virtual function is meant. -/
def resolveMethod (registry : Registry) (method : String) (selfContainer : Option String)
    (named : Bool) : Resolution :=
  let keys := Keyed.keys (registry.virtuals.filter fun (key, function) =>
    function.receiver && key.name == method)
  let own := (selfContainer.map (inContainer keys)).getD []
  if keys.isEmpty then .notVirtual
  else if !own.isEmpty then registry.outcome own
  else if named then registry.outcome keys
  else .unverified keys

end Registry

end EntityTables.Call
