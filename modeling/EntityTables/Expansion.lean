import EntityTables.Call.Registry
import EntityTables.Schema.Resolve
import EntityTables.Syntax.Lexer

/-!
# Expansion of markers

What a marker does with the item it stands on. The markers of functions and of the configuration only
check the item; the marker of a table also takes the markers of properties off, since nothing reads
them any more.
-/

namespace EntityTables

open EntityTables.Syntax

inductive ExpandingMarker
  | table
  | config
  | virtualFunction
  | implementation
deriving DecidableEq, Repr

def ExpandingMarker.name : ExpandingMarker → String
  | .table => "table"
  | .config => "tablegen_config"
  | .virtualFunction => Call.virtualMarker
  | .implementation => Call.implementationMarker

/-- Why a marker refuses its item. -/
inductive ExpansionError
  | malformedTokens
  | notOneItem
  | notDeclared (marker : ExpandingMarker)
  | hasArguments (marker : ExpandingMarker)
  | notAFunction (marker : ExpandingMarker)
  | implementationName
  | refused (error : Error)

/-- The text of a refusal. -/
def ExpansionError.message : ExpansionError → String
  | .malformedTokens => "the tokens cannot be read"
  | .notOneItem => "expected one item"
  | .notDeclared .config => "#[" ++ ExpandingMarker.config.name ++ "] applies to a unit struct"
  | .notDeclared marker => "#[" ++ marker.name ++ "] applies to structs and traits"
  | .hasArguments marker => "#[" ++ marker.name ++ "] takes no arguments"
  | .notAFunction marker => "#[" ++ marker.name ++ "] applies to functions with a body"
  | .implementationName =>
    "#[" ++ Call.implementationMarker ++ "] functions are named `" ++ Call.implementationPrefix ++
      "<virtual name>`"
  | .refused error => error.message

namespace Expansion

def propertyMarkers : List String := ["column", "primary_key", "references"]

def isPropertyMarker (attr : Node) : Bool := propertyMarkers.any fun marker => attr.isMarker marker

/-- Attributes without the markers of properties. -/
def stripAttributes : Node → Node
  | .phrase .attributes attributes =>
    .phrase .attributes (attributes.filter fun attr => !isPropertyMarker attr)
  | node => node

/-- A field without the markers of properties. -/
def stripField : Node → Node
  | .phrase .field (attributes :: rest) => .phrase .field (stripAttributes attributes :: rest)
  | .phrase .tupleField (attributes :: rest) =>
    .phrase .tupleField (stripAttributes attributes :: rest)
  | node => node

/-- A part of a body without the markers of properties. Attributes of which none are left are no part. -/
def stripPart? : Node → Option Node
  | .phrase .attributes attributes =>
    let kept := stripAttributes (.phrase .attributes attributes)
    if kept.parts.isEmpty then none else some kept
  | statement => some statement

/-- A body without the markers of properties among its own attributes. -/
def stripBody : Node → Node
  | .group .brace parts => .group .brace (parts.filterMap stripPart?)
  | node => node

/-- A member of a trait without the markers of properties, if it is a function. -/
def stripMember : Node → Node
  | .phrase .traitFn [attributes, signature, body] =>
    .phrase .traitFn [stripAttributes attributes, signature, stripBody body]
  | node => node

def mapGroup (change : Node → Node) : Node → Node
  | .group delimiter members => .group delimiter (members.map change)
  | node => node

/-- An item without the markers of its properties. -/
def stripItem : Node → Node
  | .phrase .structItem (attributes :: visibility :: keyword :: name :: generics :: rest) =>
    .phrase .structItem
      (attributes :: visibility :: keyword :: name :: generics :: rest.map (mapGroup stripField))
  | .phrase .traitItem [attributes, visibility, qualifiers, keyword, name, generics, supertraits,
      predicates, body] =>
    .phrase .traitItem [attributes, visibility, qualifiers, keyword, name, generics, supertraits,
      predicates, mapGroup stripMember body]
  | item => item

/-- The tokens of a marker with arguments, if it has any. -/
def markerTokens (marker : ExpandingMarker) (arguments : List Node) : List Node :=
  let list := if arguments.isEmpty then [] else [parens arguments]
  [.punct "#", brackets (.ident marker.name :: list)]

def unitOf (marker : ExpandingMarker) (arguments item : List Node) :
    Except ExpansionError SourceUnit :=
  match fileOf? (markerTokens marker arguments ++ item) with
  | none => .error .notOneItem
  | some file =>
    match SourceUnit.empty.addFile "crate" file with
    | (unit, none) => .ok unit
    | (_, some error) => .error (.refused error)

/-- Expands the marker of a table. -/
def expandTable (arguments item : List Node) (tree : Node) : Except ExpansionError Node := do
  let unit ← unitOf .table arguments item
  match unit.tables with
  | [] => throw (.notDeclared .table)
  | declaration :: _ =>
    discard ((Schema.checkDeclaration declaration).mapError .refused)
    return stripItem tree

def expandConfig (arguments item : List Node) : Except ExpansionError Node := do
  let unit ← unitOf .config arguments item
  if unit.config.isNone then throw (.notDeclared .config)
  return .phrase .verbatim item

def expandFunction (marker : ExpandingMarker) (arguments : List Node) (tree : Node) :
    Except ExpansionError Node := do
  if !arguments.isEmpty then throw (.hasArguments marker)
  match tree with
  | .phrase .fnItem [attributes, visibility, signature, body] =>
    let name := ((Signature.ofNode? signature).map (·.name)).getD ""
    if marker = .implementation && (Call.Registry.implementedName? name).isNone then
      throw .implementationName
    return .phrase .fnItem [attributes, visibility, signature, body]
  | _ => throw (.notAFunction marker)

/-- Expands a marker, given the tokens of its arguments and of the item. -/
def expand (marker : ExpandingMarker) (arguments item : List Node) : Except ExpansionError Node :=
  match itemOf? item with
  | none => .error .notOneItem
  | some tree =>
    match marker with
    | .table => expandTable arguments item tree
    | .config => expandConfig arguments item
    | marker => expandFunction marker arguments tree

/-- Expands a marker, given the text of its arguments and of the item. -/
def expandText (marker : ExpandingMarker) (arguments item : String) :
    Except ExpansionError String :=
  match lex? arguments, lex? item with
  | some arguments, some item => (expand marker arguments item).map Node.print
  | _, _ => .error .malformedTokens

end Expansion

end EntityTables
