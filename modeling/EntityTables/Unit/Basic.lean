import EntityTables.Unit.Declaration

/-!
# Units

All declarations that a table may refer to, from any number of source files. A declaration keeps its
place: a later one with the same key is skipped, and what was added before an error stays. An index
that maps keys to places tells which keys are taken. It is filled along with the list of
declarations, and never differs from it.
-/

namespace EntityTables

open EntityTables.Syntax
open EntityTables.Marker (ArgumentError)

/-- The two ways in which a declaration can be an SQL type: for one type of values, or for any. -/
inductive SqlTypeShape
  | fixed
  | factory
deriving DecidableEq, Repr, Inhabited

structure SqlTypeImpl where
  module : String
  selfType : Node
  shape : SqlTypeShape
  valueType : Option Node
deriving Inhabited

/-- The constructor of a type: its parameter names in order. -/
structure Constructor where
  module : String
  selfType : Node
  parameters : List String
deriving Inhabited

structure ConfigMarker where
  key : Key
  marker : Marker.Config
deriving Inhabited

/-- The positions of declarations, each under the key of its declaration. -/
def positions (declarations : List Declaration) : List (Key × Nat) :=
  declarations.zipIdx.map fun (declaration, position) => (declaration.key, position)

theorem positions_concat (declarations : List Declaration) (declaration : Declaration) :
    positions (declarations ++ [declaration]) =
      positions declarations ++ [(declaration.key, declarations.length)] := by
  simp [positions, List.zipIdx_append]

/-- The declarations of any number of source files, with an index of their positions. -/
structure SourceUnit where
  declarations : List Declaration
  index : List (Key × Nat) := positions declarations
  constructors : List Constructor
  sqlTypeImpls : List SqlTypeImpl
  config : Option ConfigMarker
  index_eq : index = positions declarations := by rfl

structure PlacedItem where
  module : String
  item : Node

mutual

/-- An item with the items inside it, if it is a module. -/
def placeItem (module : String) : Node → List PlacedItem
  | .phrase .modItem [attributes, visibility, qualifiers, keyword, .leaf (.ident name),
      .group .brace items] =>
    ⟨module, .phrase .modItem [attributes, visibility, qualifiers, keyword, .leaf (.ident name),
      .group .brace items]⟩ :: placeItems (Text.nameWithin module name) items
  | item => [⟨module, item⟩]

def placeItems (module : String) : List Node → List PlacedItem
  | [] => []
  | item :: rest => placeItem module item ++ placeItems module rest

end

namespace SourceUnit

/-- The unit without declarations. -/
def empty : SourceUnit := ⟨[], [], [], [], none, rfl⟩

instance : Inhabited SourceUnit := ⟨empty⟩

/-- The first declaration with a key, searched for among all of them. -/
def get? (unit : SourceUnit) (key : Key) : Option Declaration :=
  unit.declarations.find? (·.key = key)

/-- The declaration with a key, at the position that the index has for it. -/
def indexed? (unit : SourceUnit) (key : Key) : Option Declaration :=
  (unit.index.lookup key).bind fun position => unit.declarations[position]?

/-- The declarations that are marked as tables, in order. -/
def tables (unit : SourceUnit) : List Declaration := unit.declarations.filter (·.isTable)

/-- Adds a declaration, unless its key is taken. -/
def insert (unit : SourceUnit) (declaration : Declaration) : SourceUnit :=
  if (unit.index.lookup declaration.key).isSome then unit
  else
    { unit with
      declarations := unit.declarations ++ [declaration]
      index := unit.index ++ [(declaration.key, unit.declarations.length)]
      index_eq := by rw [unit.index_eq, positions_concat] }

def setConfig (unit : SourceUnit) (declaration : Declaration) (attributes : List Node) :
    Except Error SourceUnit :=
  if declaration.kind ≠ .unitStruct then
    .error (.unsupportedKind declaration.key.text declaration.kind .configuration)
  else if unit.config.isSome then .error (.config (.duplicateConfig declaration.key.text))
  else
    match Marker.Config.read attributes with
    | .ok marker => .ok { unit with config := some ⟨declaration.key, marker⟩ }
    | .error error => .error (.arguments error)

def addStruct (unit : SourceUnit) (module name : String) (attributes rest : List Node) :
    Except Error SourceUnit := do
  let declaration ← (Declaration.ofStruct module name attributes rest).mapError .arguments
  let unit ←
    if Node.anyMarker "tablegen_config" attributes then unit.setConfig declaration attributes
    else .ok unit
  return unit.insert declaration

def addRead (unit : SourceUnit) (read : Except ArgumentError Declaration) :
    Except Error SourceUnit :=
  match read with
  | .ok declaration => .ok (unit.insert declaration)
  | .error error => .error (.arguments error)

def addOther (unit : SourceUnit) (module name : String) (attributes : List Node) (kind : ItemKind) :
    Except Error SourceUnit :=
  unit.addRead (Declaration.ofShape module name attributes (.other kind))

def memberSignature? : Node → Option Signature
  | .phrase .implFn [_, _, _, signature, _] => Signature.ofNode? signature
  | _ => none

/-- The parameters of the first function `new` without receiver. -/
def constructorOf? (members : List Node) : Option (List String) :=
  (members.filterMap memberSignature?).find?
    (fun signature => signature.name == "new" && signature.receiver?.isNone) |>.map
    Declaration.parameterNames

def firstTypeArgument? (segment : Node) : Option Node :=
  segment.angleArguments?.bind fun arguments => arguments.find? Node.isTypeArgument

/-- Adds what an implementation tells: a constructor, or the capability of an SQL type. -/
def addImpl (unit : SourceUnit) (module : String) (implFor : List Node) (selfType : Node)
    (members : List Node) : SourceUnit :=
  match implFor.find? (Node.is .path) with
  | none =>
    match constructorOf? members with
    | some parameters =>
      { unit with constructors := unit.constructors ++ [⟨module, selfType, parameters⟩] }
    | none => unit
  | some path =>
    match path.segments.getLast? with
    | some last =>
      let add (shape : SqlTypeShape) (valueType : Option Node) :=
        { unit with sqlTypeImpls := unit.sqlTypeImpls ++ [⟨module, selfType, shape, valueType⟩] }
      if last.segmentName == "SqlType" then add .fixed (firstTypeArgument? last)
      else if last.segmentName == "SqlTypeFactory" then add .factory none
      else unit
    | none => unit

def addItem (unit : SourceUnit) (placed : PlacedItem) : Except Error SourceUnit :=
  match placed.item with
  | .phrase .structItem (.phrase .attributes attributes :: _ :: _ :: .leaf (.ident name) :: _ ::
      rest) => unit.addStruct placed.module name attributes rest
  | .phrase .traitItem [.phrase .attributes attributes, visibility, qualifiers, keyword,
      .leaf (.ident name), generics, supertraits, predicates, body] =>
    let item := Node.phrase .traitItem [.phrase .attributes attributes, visibility, qualifiers,
      keyword, .leaf (.ident name), generics, supertraits, predicates, body]
    unit.addRead (Declaration.ofTrait placed.module name item.attributes supertraits body)
  | .phrase .enumItem (.phrase .attributes attributes :: _ :: _ :: .leaf (.ident name) :: _) =>
    unit.addOther placed.module name attributes .enum
  | .phrase .unionItem (.phrase .attributes attributes :: _ :: _ :: .leaf (.ident name) :: _) =>
    unit.addOther placed.module name attributes .union
  | .phrase .typeItem (.phrase .attributes attributes :: _ :: _ :: .leaf (.ident name) :: _) =>
    unit.addOther placed.module name attributes .typeAlias
  | .phrase .constItem (.phrase .attributes attributes :: _ :: _ :: .leaf (.ident name) :: _) =>
    unit.addOther placed.module name attributes .constant
  | .phrase .staticItem (.phrase .attributes attributes :: _ :: _ :: _ :: .leaf (.ident name) :: _) =>
    unit.addOther placed.module name attributes .static
  | .phrase .implItem [_, _, _, _, .phrase .implFor implFor, selfType, _, body] =>
    match selfType.typePath? with
    | some path => .ok (unit.addImpl placed.module implFor path body.parts)
    | none => .ok unit
  | _ => .ok unit

def addItems (unit : SourceUnit) : List PlacedItem → SourceUnit × Option Error
  | [] => (unit, none)
  | item :: rest =>
    match unit.addItem item with
    | .ok unit => unit.addItems rest
    | .error error => (unit, some error)

def addFile (unit : SourceUnit) (module : String) (file : Node) : SourceUnit × Option Error :=
  unit.addItems (placeItems module (file.parts.drop 1))

def addText (unit : SourceUnit) (module text : String) : SourceUnit × Option Error :=
  match parseFile? text with
  | some file => unit.addFile module file
  | none => (unit, some (.unreadable module))

/-- Adds texts as the contents of their modules, up to the first error. -/
def addTexts (unit : SourceUnit) : List (String × String) → Except Error SourceUnit
  | [] => .ok unit
  | (module, text) :: rest =>
    match unit.addText module text with
    | (unit, none) => unit.addTexts rest
    | (_, some error) => .error error

end SourceUnit

end EntityTables
