import EntityTables.Syntax.Token

/-!
# Syntax trees

A tree is a token, a bracketed group, or a phrase: a part of the grammar with the trees it is made
of, in the order of the source. What the lexer makes has no phrases. A phrase of an expression, an
item or a member begins with its attributes, an empty phrase where there are none.
-/

namespace EntityTables.Syntax

/-- The parts of the grammar. -/
inductive Kind
  | file
  -- attributes
  | attributes
  | attr
  -- paths and their arguments
  | path
  | segment
  | genericArgs
  | parenArgs
  | assocArg
  | qualifiedPath
  | returnType
  -- types
  | pathType
  | qualifiedPathType
  | referenceType
  | pointerType
  | parenType
  | tupleType
  | arrayType
  | sliceType
  | traitObjectType
  | implTraitType
  | functionType
  | neverType
  | inferType
  | macroType
  -- bounds and generics
  | traitBound
  | captureBound
  | forLifetimes
  | generics
  | genericParam
  | whereClause
  | predicate
  -- expressions
  | arrayExpr
  | assignExpr
  | asyncExpr
  | awaitExpr
  | binaryExpr
  | blockExpr
  | breakExpr
  | callExpr
  | castExpr
  | closureExpr
  | constExpr
  | continueExpr
  | fieldExpr
  | forExpr
  | ifExpr
  | indexExpr
  | inferExpr
  | letExpr
  | literalExpr
  | loopExpr
  | macroExpr
  | matchExpr
  | methodCallExpr
  | parenExpr
  | pathExpr
  | qualifiedPathExpr
  | rangeExpr
  | addressExpr
  | referenceExpr
  | repeatExpr
  | returnExpr
  | structExpr
  | tryExpr
  | tryBlockExpr
  | tupleExpr
  | unaryExpr
  | unsafeExpr
  | whileExpr
  | yieldExpr
  -- parts of expressions
  | arm
  | fieldValue
  | label
  -- patterns
  | identPat
  | rangePat
  | restPat
  | typedPat
  | pattern
  -- statements
  | exprStmt
  | letStmt
  | macroStmt
  -- items
  | fnItem
  | structItem
  | enumItem
  | unionItem
  | traitItem
  | implItem
  | modItem
  | typeItem
  | constItem
  | staticItem
  | useItem
  | crateItem
  | foreignItem
  | macroItem
  | traitAliasItem
  -- parts of items
  | visibility
  | qualifiers
  | signature
  | receiver
  | param
  | field
  | tupleField
  | variant
  | supertraits
  | implFor
  | traitFn
  | implFn
  | member
  | useTree
  -- anything kept as it was written
  | verbatim
deriving DecidableEq, Repr, Inhabited

/-- A syntax tree. -/
inductive Node
  | leaf (token : Token)
  | group (delimiter : Delimiter) (body : List Node)
  | phrase (kind : Kind) (parts : List Node)
deriving Repr, Inhabited, BEq

namespace Node

/-- A tree without parts, printed as nothing. -/
def empty (kind : Kind) : Node := .phrase kind []

def ident (name : String) : Node := .leaf (.ident name)

def punct (text : String) : Node := .leaf (.punct text false)

def literal (text : String) : Node := .leaf (.literal text)

def kind? : Node → Option Kind
  | .phrase kind _ => some kind
  | _ => none

def parts : Node → List Node
  | .leaf _ => []
  | .group _ body => body
  | .phrase _ parts => parts

def is (kind : Kind) (node : Node) : Bool := node.kind? == some kind

/-- The name, if the tree is an identifier. -/
def identName? : Node → Option String
  | .leaf (.ident name) => some name
  | _ => none

def isIdent (name : String) (node : Node) : Bool := node.identName? == some name

def isPunct (text : String) : Node → Bool
  | .leaf (.punct t _) => t == text
  | _ => false

def isGroup (delimiter : Delimiter) : Node → Bool
  | .group d _ => d == delimiter
  | _ => false

mutual

def decideEq : (a b : Node) → Decidable (a = b)
  | .leaf s, .leaf t =>
    if h : s = t then isTrue (h ▸ rfl) else isFalse fun e => h (Node.leaf.inj e)
  | .group d s, .group e t =>
    if hd : d = e then
      match decideEqAll s t with
      | isTrue h => isTrue (hd ▸ h ▸ rfl)
      | isFalse h => isFalse fun e => h (Node.group.inj e).2
    else isFalse fun e => hd (Node.group.inj e).1
  | .phrase k s, .phrase l t =>
    if hk : k = l then
      match decideEqAll s t with
      | isTrue h => isTrue (hk ▸ h ▸ rfl)
      | isFalse h => isFalse fun e => h (Node.phrase.inj e).2
    else isFalse fun e => hk (Node.phrase.inj e).1
  | .leaf _, .group _ _ => isFalse nofun
  | .leaf _, .phrase _ _ => isFalse nofun
  | .group _ _, .leaf _ => isFalse nofun
  | .group _ _, .phrase _ _ => isFalse nofun
  | .phrase _ _, .leaf _ => isFalse nofun
  | .phrase _ _, .group _ _ => isFalse nofun

def decideEqAll : (s t : List Node) → Decidable (s = t)
  | [], [] => isTrue rfl
  | [], _ :: _ => isFalse nofun
  | _ :: _, [] => isFalse nofun
  | a :: s, b :: t =>
    match decideEq a b with
    | isFalse h => isFalse fun e => h (List.cons.inj e).1
    | isTrue h =>
      match decideEqAll s t with
      | isTrue h' => isTrue (h ▸ h' ▸ rfl)
      | isFalse h' => isFalse fun e => h' (List.cons.inj e).2

end
instance : DecidableEq Node := decideEq

end Node

end EntityTables.Syntax
