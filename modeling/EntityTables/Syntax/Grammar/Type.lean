import EntityTables.Syntax.Grammar.Path

/-!
# Types

The production for types. A type that goes on with `+` is a trait object without its keyword; a
reference binds closer than `+`.
-/

namespace EntityTables.Syntax

open EntityTables.Syntax.Parser

variable (sub : Nonterminal → Parser Node)

/-- Whether parentheses with arguments come next, perhaps after a `::`. -/
def startsParenArgs (input : Input) : Bool :=
  input.startsGroup .paren || (input.startsPunct "::" && (input.skip 2).startsGroup .paren)

def endsParenArgs : Node → Bool
  | .phrase .parenArgs [_, .phrase .returnType []] => true
  | .phrase .parenArgs [_, .phrase .returnType [_, result]] => result.is .parenType
  | _ => false

/-- Reads arguments in parentheses after the last name of a path, in at most the given rounds. -/
def withParenArgs : Nat → List Node → Parser (List Node)
  | 0, parts => return parts
  | rounds + 1, parts => do
    match parts.getLast? with
    | some (.phrase .segment [name]) =>
      if (← peek startsParenArgs) then
        discard (punct? "::")
        let arguments ← parenArgs sub
        let more ← if endsParenArgs arguments then moreSegments sub false else pure []
        withParenArgs rounds (parts.dropLast ++ .phrase .segment [name, arguments] :: more)
      else return parts
    | _ => return parts

def typePath : Parser Node := do
  let rounds ← peek List.length
  if (← peek (·.startsPunct "<")) then
    let qualified ← qualifiedPath sub false
    return .phrase .qualifiedPathType [.phrase .qualifiedPath (← withParenArgs sub rounds qualified.parts)]
  let plain ← path sub false
  return .phrase .pathType [.phrase .path (← withParenArgs sub rounds plain.parts)]

def abi? : Parser (List Node) :=
  orNothing (·.startsWord "extern") do
    let keyword ← word "extern"
    return keyword :: (← orNothing (·.startsString) (one any))

def startsNamedType (isFirst : Bool) (input : Input) : Bool :=
  (input.startsName || input.startsWord "_" || (isFirst && input.startsWord "self")) &&
    input.next.startsPunct ":" && !input.next.startsPunct "::"

def functionTypeParam (isFirst : Bool) : Parser Node := do
  let attributes ← outerAttributes sub
  if (← peek fun input => input.startsPunct "...") then
    return .phrase .param [attributes, ← punct "..."]
  let start ← get
  if isFirst && (← peek fun input => input.startsWord "mut" && input.next.startsWord "self") then
    discard anyWord
    discard anyWord
    if (← peek fun input => input.startsPunct ":" && !input.startsPunct "::") then
      discard (punct ":")
      discard (sub (.type true))
    return .phrase .param [attributes, ← sinceInput start]
  let label ← orNothing (startsNamedType isFirst) do
    return [← anyWord, ← punct ":"]
  if !label.isEmpty && (← peek (·.startsPunct "...")) then
    return .phrase .param (attributes :: label ++ [← punct "..."])
  return .phrase .param (attributes :: label ++ [← sub (.type true)])

def functionTypeParams : Parser (List Node) := do
  if (← peek List.isEmpty) then return []
  let first ← functionTypeParam sub true
  let rest ← many (·.startsPunct ",") do
    let comma ← punct ","
    if (← peek List.isEmpty) then return [comma]
    return [comma, ← functionTypeParam sub false]
  return first :: rest

def functionType (lifetimes : List Node) : Parser Node := do
  let unsafety ← word? "unsafe"
  let abi ← abi?
  let keyword ← word "fn"
  let params ← group .paren (functionTypeParams sub)
  return .phrase .functionType (lifetimes ++ unsafety ++ abi ++ [keyword, params, ← returnType sub false])

def hasTrait (bounds : List Node) : Bool :=
  bounds.any fun bound => bound.is .traitBound || bound.is .verbatim

/-- More bounds after the first, joined by `+`. -/
def moreBounds : Parser (List Node) :=
  repeated do
    if (← peek (·.startsPunct "+")) then
      let sign ← punct "+"
      if (← peek startsBound) then return some [sign, ← bound sub false]
      return some [sign]
    else return none

/-- The only bound of a trait object without its keyword, as it stands in parentheses. -/
def parenBound? (inner : Node) : Option Node :=
  match inner with
  | .phrase .pathType parts => some (.phrase .traitBound [.group .paren parts])
  | .phrase .traitObjectType [.phrase .traitBound parts] =>
    some (.phrase .traitBound [.group .paren parts])
  | _ => none

inductive ParenContent
  | nothing
  | only (type : Node)
  | optionalBound (bound : Node)
  | list (types : List Node)

def parenContent : Parser ParenContent := do
  if (← peek List.isEmpty) then return .nothing
  if (← peek (·.startsPunct "?")) then return .optionalBound (← bound sub false)
  let first ← sub (.type true)
  if (← peek (·.startsPunct ",")) then
    let rest ← many (·.startsPunct ",") do
      let comma ← punct ","
      if (← peek List.isEmpty) then return [comma]
      return [comma, ← sub (.type true)]
    return .list (first :: rest)
  return .only first

/-- A type in parentheses, or a tuple. -/
def parenOrTupleType (plus : Bool) : Parser Node := do
  match ← get with
  | .group .paren body :: rest =>
    let content ← within body (parenContent sub)
    set rest
    match content with
    | .nothing => return .phrase .tupleType [.group .paren []]
    | .list types => return .phrase .tupleType [.group .paren types]
    | .optionalBound bound =>
      let more ← moreBounds sub
      return .phrase .traitObjectType (.phrase .traitBound [.group .paren bound.parts] :: more)
    | .only inner =>
      if plus && (← peek (·.startsPunct "+")) then
        if let some first := parenBound? inner then
          return .phrase .traitObjectType (first :: (← moreBounds sub))
      return .phrase .parenType [.group .paren [inner]]
  | _ => refuse

/-- A path, a macro call, or the first trait of an object. -/
def pathLikeType (plus : Bool) (lifetimes : List Node) : Parser Node := do
  let type ← typePath sub
  match type with
  | .phrase .pathType [path] =>
    if (← peek fun input => input.startsPunct "!" && !input.startsPunct "!=") && isPlainPath path then
      return .phrase .macroType [path, ← punct "!", ← rawGroup]
    if !lifetimes.isEmpty || (plus && (← peek (·.startsPunct "+"))) then
      let more ← if plus then moreBounds sub else pure []
      return .phrase .traitObjectType (.phrase .traitBound (lifetimes ++ [path]) :: more)
    return type
  | _ => return type

def dynType (plus : Bool) : Parser Node := do
  let start ← get
  let keyword ← word "dyn"
  let star ← punct? "*"
  let bounds ← bounds sub plus false
  guard (hasTrait bounds)
  if star.isEmpty then return .phrase .traitObjectType (keyword :: bounds) else sinceInput start

def arrayOrSliceType : Parser Node := do
  let body ← group .bracket do
    let element ← sub (.type true)
    let length ← orNothing (·.startsPunct ";") do
      return [← punct ";", ← sub (.expr true)]
    return element :: length
  return .phrase (if body.parts.length == 1 then .sliceType else .arrayType) [body]

/-- A type; `plus` tells whether it may go on with `+`. -/
def typeRule (plus : Bool) : Parser Node := do
  let lifetimes ← forLifetimes? sub
  let input ← get
  if !lifetimes.isEmpty then
    guard (input.startsPathWord || input.startsOneOf ["fn", "unsafe", "extern"])
  if input.startsGroup .paren then parenOrTupleType sub plus
  else if input.startsOneOf ["fn", "unsafe", "extern"] then functionType sub lifetimes
  else if input.startsPathWord || input.startsAnyPunct ["::", "<"] then
    pathLikeType sub plus lifetimes
  else if input.startsWord "dyn" then dynType sub plus
  else if input.startsGroup .bracket then arrayOrSliceType sub
  else if input.startsPunct "*" then
    let star ← punct "*"
    let mutability ← when (·.startsOneOf ["const", "mut"])
    return .phrase .pointerType [star, mutability, ← sub (.type false)]
  else if input.startsPunct "&" then
    let sign ← punct "&"
    let lifetime ← lifetime?
    let mutability ← word? "mut"
    return .phrase .referenceType (sign :: lifetime ++ mutability ++ [← sub (.type false)])
  else if input.startsPunct "!" && !input.startsPunct "!=" then
    return .phrase .neverType [← punct "!"]
  else if input.startsWord "impl" then
    let keyword ← word "impl"
    let bounds ← bounds sub plus true
    guard (hasTrait bounds)
    return .phrase .implTraitType (keyword :: bounds)
  else if input.startsWord "_" then return .phrase .inferType [← anyWord]
  else if input.startsLifetime then
    let bounds ← bounds sub true false
    guard (hasTrait bounds)
    return .phrase .traitObjectType bounds
  else refuse

end EntityTables.Syntax
