import EntityTables.Syntax.Grammar.Signature

/-!
# Items

The productions for items and the members of traits, implementations and foreign blocks. What the
grammar has no name for, such as a function without a body, is kept as it is written.
-/

namespace EntityTables.Syntax

open EntityTables.Syntax.Parser

variable (sub : Nonterminal → Parser Node)

/-- What stands in front of an item: where it starts, its attributes and its visibility. -/
structure ItemFront where
  start : Input
  attributes : Node
  visibility : Node

namespace ItemFront

def isPrivate (front : ItemFront) : Bool := front.visibility.parts.isEmpty

def parts (front : ItemFront) : List Node := [front.attributes, front.visibility]

/-- All that was read since the start, as it is written. -/
def asWritten (front : ItemFront) : Parser Node := sinceInput front.start

end ItemFront

def itemFront : Parser ItemFront := do
  let start ← get
  let attributes ← outerAttributes sub
  return ⟨start, attributes, ← visibility⟩

/-- A field with a name; one called `_` may have a type written out as its fields. -/
def namedField : Parser Node := do
  let attributes ← outerAttributes sub
  let visibility ← visibility
  let name ← nameOrUnderscore
  let colon ← punct ":"
  let start ← get
  if name.isIdent "_" && start.startsOneOf ["struct", "union"] then
    discard anyWord
    discard (when (·.startsGroup .brace))
    return .phrase .field [attributes, visibility, name, colon, ← sinceInput start]
  return .phrase .field [attributes, visibility, name, colon, ← sub (.type true)]

def namedFields : Parser Node := group .brace (commaList (one (namedField sub)))

/-- A field without a name. -/
def tupleField : Parser Node := do
  let attributes ← outerAttributes sub
  let visibility ← visibility
  return .phrase .tupleField [attributes, visibility, ← sub (.type true)]

/-- Fields without names. -/
def tupleFields : Parser Node := group .paren (commaList (one (tupleField sub)))

def structItem (front : ItemFront) : Parser Node := do
  let keyword ← word "struct"
  let name ← name
  let generics ← generics sub
  let start := front.parts ++ [keyword, name, generics]
  if (← peek (·.startsGroup .paren)) then
    let fields ← tupleFields sub
    let predicates ← whereClause sub
    return .phrase .structItem (start ++ [fields, predicates, ← punct ";"])
  let predicates ← whereClause sub
  if (← peek (·.startsGroup .brace)) then
    return .phrase .structItem (start ++ [predicates, ← namedFields sub])
  return .phrase .structItem (start ++ [predicates, ← punct ";"])

/-- A variant of an enum; its visibility means nothing and is dropped. -/
def enumVariant : Parser Node := do
  let attributes ← outerAttributes sub
  discard visibility
  let name ← name
  let input ← get
  let fields ←
    if input.startsGroup .brace then one (namedFields sub)
    else if input.startsGroup .paren then one (tupleFields sub)
    else pure []
  let discriminant ← orNothing (·.startsPunct "=") do
    return [← punct "=", ← sub (.expr true)]
  return .phrase .variant (attributes :: name :: fields ++ discriminant)

def enumItem (front : ItemFront) : Parser Node := do
  let keyword ← word "enum"
  let name ← name
  let generics ← generics sub
  let predicates ← whereClause sub
  let variants ← group .brace (commaList (one (enumVariant sub)))
  return .phrase .enumItem (front.parts ++ [keyword, name, generics, predicates, variants])

def unionItem (front : ItemFront) : Parser Node := do
  let keyword ← word "union"
  let name ← name
  let generics ← generics sub
  let predicates ← whereClause sub
  return .phrase .unionItem
    (front.parts ++ [keyword, name, generics, predicates, ← namedFields sub])

/-- A named type: its name and parameters, bounds, value and predicates. -/
structure TypeDefinition where
  head : List Node
  hasColon : Bool
  bounds : List Node
  value : List Node
  predicates : Node
  closing : Node

/-- A named type with predicates before its value, after it, or at either place. -/
def typeDefinition (before after : Bool) : Parser TypeDefinition := do
  let keyword ← word "type"
  let name ← name
  let generics ← generics sub
  let hasColon ← peek (·.startsPunct ":")
  let bounds ← boundsAfterColon sub fun input =>
    input.startsWord "where" || input.startsAnyPunct ["=", ";"]
  let early ← if before then whereClause sub else pure (.empty .whereClause)
  let value ← orNothing (·.startsPunct "=") do
    return [← punct "=", ← sub (.type true)]
  let late ← if after && early.parts.isEmpty then whereClause sub
    else pure (.empty .whereClause)
  let closing ← punct ";"
  return {
    head := [keyword, name, generics], hasColon, bounds, value,
    predicates := if early.parts.isEmpty then late else early, closing }

def typeItem (front : ItemFront) : Parser Node := do
  let definition ← typeDefinition sub true false
  if definition.hasColon || definition.value.isEmpty then front.asWritten
  else
    return .phrase .typeItem
      (front.parts ++ definition.head ++ definition.predicates :: definition.value ++
        [definition.closing])

/-- A constant after `const`, if it has no parameters and no predicates: its parts and whether it
has a value. -/
def constantParts? (keyword : Node) : Parser (Option (List Node × Bool)) := do
  let name ← nameOrUnderscore
  let hasGenerics ← peek (·.startsPunct "<")
  discard (generics sub)
  let colon ← punct ":"
  let type ← sub (.type true)
  let value ← orNothing (·.startsPunct "=") do
    return [← punct "=", ← sub (.expr true)]
  let hasPredicates ← peek (·.startsWord "where")
  discard (whereClause sub)
  let closing ← punct ";"
  if hasGenerics || hasPredicates then return none
  return some (keyword :: name :: colon :: type :: value ++ [closing], !value.isEmpty)

def constItem (front : ItemFront) : Parser Node := do
  match ← constantParts? sub (← word "const") with
  | some (parts, true) => return .phrase .constItem (front.parts ++ parts)
  | _ => front.asWritten

def staticItem (front : ItemFront) : Parser Node := do
  let keyword ← word "static"
  let mutability ← word? "mut"
  let name ← name
  let type ← orNothing (fun input => !input.startsPunct "=") do
    return [← punct ":", ← sub (.type true)]
  let value ← orNothing (·.startsPunct "=") do
    return [← punct "=", ← sub (.expr true)]
  let closing ← punct ";"
  if type.isEmpty || value.isEmpty then front.asWritten
  else
    return .phrase .staticItem
      (front.parts ++ [keyword, .phrase .qualifiers mutability, name] ++ type ++ value ++ [closing])

/-- A function; one without a body is kept as it is written. -/
def fnItem (front : ItemFront) : Parser Node := do
  let signature ← signature sub false
  if (← peek (·.startsPunct ";")) then
    discard any
    front.asWritten
  else return .phrase .fnItem (front.parts ++ [signature, ← attributedBlock sub])

/-- A name in a use, or the names below it. -/
def useTreeRule : Parser Node := do
  let input ← get
  if input.startsPathWord || input.startsWord "try" then
    let name ← anyWord
    if (← peek (·.startsPunct "::")) then
      return .phrase .useTree [name, ← punct "::", ← sub .useTree]
    if (← peek (·.startsWord "as")) then
      return .phrase .useTree [name, ← word "as", ← nameOrUnderscore]
    return .phrase .useTree [name]
  else if input.startsPunct "*" then return .phrase .useTree [← punct "*"]
  else return .phrase .useTree [← group .brace (commaList (one (sub .useTree)))]

/-- The trees of a use at its root, where each may start with `::`. -/
def rootUseTree : Parser Node := do
  match ← get with
  | .group .brace body :: rest =>
    let parts ← within body (commaList do
      let leading ← punct? "::"
      return leading ++ [← sub .useTree])
    set rest
    return .phrase .useTree [.group .brace parts]
  | _ => sub .useTree

/-- A use; one that mixes absolute paths into a list is kept as it is written. -/
def useItem (front : ItemFront) : Parser Node := do
  let keyword ← word "use"
  let leading ← punct? "::"
  let tree ← if leading.isEmpty then rootUseTree sub else sub .useTree
  let closing ← punct ";"
  let isMixed := match tree with
    | .phrase .useTree [.group _ parts] => parts.any (Node.isPunct "::")
    | _ => false
  if isMixed then front.asWritten
  else return .phrase .useItem (front.parts ++ keyword :: leading ++ [tree, closing])

def crateItem (front : ItemFront) : Parser Node := do
  let keyword ← word "extern"
  let kind ← word "crate"
  let name ← when fun input => input.startsName || input.startsWord "self"
  let rename ← orNothing (·.startsWord "as") do
    return [← anyWord, ← nameOrUnderscore]
  return .phrase .crateItem (front.parts ++ keyword :: kind :: name :: rename ++ [← punct ";"])

/-- A macro call as an item or a member; one that is not in braces ends in a semicolon. -/
def macroCall (named : Bool) (attributes : Node) : Parser Node := do
  let path ← plainPath
  let sign ← punct "!"
  let name ← orNothing (fun input => named && (input.startsName || input.startsWord "try"))
    (one anyWord)
  let body ← rawGroup
  let closing ← if body.isGroup .brace then pure [] else one (punct ";")
  return .phrase .macroItem (attributes :: path :: sign :: name ++ body :: closing)

def startsMacroCall (input : Input) : Bool :=
  input.startsName || input.startsOneOf ["self", "super", "crate"] || input.startsPunct "::"

def traitMember : Parser Node := do
  let front ← itemFront sub
  let default ← word? "default"
  let input ← get
  let member ←
    if startsSignature false input then
      let signature ← signature sub false
      let body ← if (← peek (·.startsPunct ";")) then punct ";" else attributedBlock sub
      pure (.phrase .traitFn [front.attributes, signature, body])
    else if input.startsWord "const" then
      match ← constantParts? sub (← word "const") with
      | some (parts, _) => pure (.phrase .member (front.attributes :: parts))
      | none => front.asWritten
    else if input.startsWord "type" then
      let definition ← typeDefinition sub false true
      pure (.phrase .member (front.attributes :: definition.head ++ definition.bounds ++
        definition.value ++ [definition.predicates, definition.closing]))
    else
      guard (startsMacroCall input)
      macroCall false front.attributes
  if !(front.isPrivate && default.isEmpty) then
    guard !(member.is .macroItem)
    front.asWritten
  else return member

def traitRest (front : ItemFront) (qualifiers : List Node) (keyword name generics : Node) :
    Parser Node := do
  let supertraits ← boundsAfterColon sub fun input =>
    input.startsWord "where" || input.startsGroup .brace
  let predicates ← whereClause sub
  let members ← group .brace do
    return (← innerAttributes? sub) ++
      (← many (fun input => !input.isEmpty) (one (traitMember sub)))
  return .phrase .traitItem (front.parts ++ [.phrase .qualifiers qualifiers, keyword, name,
    generics, .phrase .supertraits supertraits, predicates, members])

/-- A trait, or a name for bounds. -/
def traitItem (front : ItemFront) : Parser Node := do
  let qualifiers := (← word? "unsafe") ++ (← word? "auto")
  let keyword ← word "trait"
  let name ← name
  let generics ← generics sub
  if qualifiers.isEmpty && (← peek (·.startsPunct "=")) then
    let sign ← punct "="
    let bounds ← boundsUntil sub fun input => input.startsWord "where" || input.startsPunct ";"
    let predicates ← whereClause sub
    return .phrase .traitAliasItem
      (front.parts ++ [keyword, name, generics, sign] ++ bounds ++ [predicates, ← punct ";"])
  traitRest sub front qualifiers keyword name generics

def implMember : Parser Node := do
  let front ← itemFront sub
  let hasDefault ← peek fun input => input.startsWord "default" && !input.next.startsPunct "!"
  let default ← if hasDefault then one anyWord else pure []
  let qualifiers := Node.phrase .qualifiers default
  let input ← get
  if startsSignature false input then
    let signature ← signature sub false
    if (← peek (·.startsPunct ";")) then
      discard any
      front.asWritten
    else return .phrase .implFn (front.parts ++ [qualifiers, signature, ← attributedBlock sub])
  else if input.startsWord "const" then
    match ← constantParts? sub (← word "const") with
    | some (parts, true) => return .phrase .member (front.parts ++ qualifiers :: parts)
    | _ => front.asWritten
  else if input.startsWord "type" then
    let definition ← typeDefinition sub false true
    if definition.hasColon || definition.value.isEmpty then front.asWritten
    else
      return .phrase .member (front.parts ++ qualifiers :: definition.head ++
        definition.value ++ [definition.predicates, definition.closing])
  else
    guard (front.isPrivate && default.isEmpty && startsMacroCall input)
    macroCall false front.attributes

/-- The path of a type that is only a path. -/
def pathOfType? : Node → Option Node
  | .phrase .pathType [path] => some path
  | _ => none

/-- An implementation, for a type alone or of a trait for a type. -/
def implItem (front : ItemFront) : Parser Node := do
  let default ← word? "default"
  let unsafety ← word? "unsafe"
  let keyword ← word "impl"
  let generics ← if (← peek (·.startsGenerics)) then generics sub else pure (.empty .generics)
  let isConst ← peek fun input =>
    input.startsWord "const" || (input.startsPunct "?" && input.next.startsWord "const")
  if isConst then
    discard (punct? "?")
    discard (word "const")
  let start ← get
  let negative ← orNothing
    (fun input => input.startsPunct "!" && !input.next.startsGroup .brace) (one (punct "!"))
  let first ← sub (.type true)
  let isFor ← peek (·.startsWord "for")
  let trait_ := pathOfType? first
  let implFor ← orNothing (·.startsWord "for") do
    return negative ++ trait_.toList ++ [← word "for"]
  let self ←
    if isFor then sub (.type true)
    else if negative.isEmpty then pure first
    else sinceInput start
  let predicates ← whereClause sub
  let members ← group .brace do
    return (← innerAttributes? sub) ++
      (← many (fun input => !input.isEmpty) (one (implMember sub)))
  if !front.isPrivate || isConst || (isFor && trait_.isNone) then front.asWritten
  else return .phrase .implItem [front.attributes, .phrase .qualifiers (default ++ unsafety),
    keyword, generics, .phrase .implFor implFor, self, predicates, members]

/-- A module, with its items or in a file of its own. -/
def modItem (front : ItemFront) : Parser Node := do
  let unsafety ← word? "unsafe"
  let keyword ← word "mod"
  let name ← if (← peek (·.startsWord "try")) then anyWord else name
  let body ← if (← peek (·.startsPunct ";")) then punct ";"
    else group .brace do
      return (← innerAttributes? sub) ++
        (← many (fun input => !input.isEmpty) (one (sub .item)))
  return .phrase .modItem (front.parts ++ [.phrase .qualifiers unsafety, keyword, name, body])

/-- A foreign function or static, type or macro call. -/
def foreignMember : Parser Node := do
  let front ← itemFront sub
  let input ← get
  if startsSignature true input then
    let signature ← signature sub true
    let isSafe := signature.parts.any fun part =>
      part.is .qualifiers && part.parts.any (Node.isIdent "safe")
    if (← peek (·.startsGroup .brace)) then
      discard (attributedBlock sub)
      front.asWritten
    else
      let closing ← punct ";"
      if isSafe then front.asWritten
      else return .phrase .member (front.parts ++ [signature, closing])
  else if input.startsWord "static" ||
      (input.startsOneOf ["unsafe", "safe"] && input.next.startsWord "static") then
    let safety ← orNothing (!·.startsWord "static") (one anyWord)
    let keyword ← word "static"
    let mutability ← word? "mut"
    let name ← name
    let colon ← punct ":"
    let type ← sub (.type true)
    let value ← orNothing (·.startsPunct "=") do
      return [← punct "=", ← sub (.expr true)]
    let closing ← punct ";"
    if safety.isEmpty && value.isEmpty then
      return .phrase .member
        (front.parts ++ keyword :: mutability ++ [name, colon, type, closing])
    else front.asWritten
  else if input.startsWord "type" then
    let definition ← typeDefinition sub true true
    if definition.hasColon || !definition.value.isEmpty then front.asWritten
    else
      return .phrase .member
        (front.parts ++ definition.head ++ [definition.predicates, definition.closing])
  else
    guard (front.isPrivate && startsMacroCall input)
    macroCall false front.attributes

def foreignItem (front : ItemFront) : Parser Node := do
  guard front.isPrivate
  let unsafety ← word? "unsafe"
  let abi ← abi?
  let members ← group .brace do
    return (← innerAttributes? sub) ++
      (← many (fun input => !input.isEmpty) (one (foreignMember sub)))
  return .phrase .foreignItem [front.attributes, .phrase .qualifiers (unsafety ++ abi), members]

/-- The definition of a macro by its arguments and body, kept as it is written. -/
def macroDefinition (front : ItemFront) : Parser Node := do
  discard (word "macro")
  discard name
  discard (orNothing (·.startsGroup .paren) (one any))
  discard (when (·.startsGroup .brace))
  front.asWritten

/-- An item that starts with `extern` and declares no function. -/
def externItem (front : ItemFront) : Parser Node := do
  if (← peek fun input => input.next.startsWord "crate") then crateItem front
  else foreignItem sub front

def itemRule : Parser Node := do
  let front ← itemFront sub
  let input ← get
  let second := input.next
  if startsSignature false input then fnItem sub front
  else if input.startsWord "extern" then externItem sub front
  else if input.startsWord "use" then useItem sub front
  else if input.startsWord "static" then staticItem sub front
  else if input.startsWord "const" then constItem sub front
  else if input.startsWord "unsafe" then
    if second.startsOneOf ["trait", "auto"] then traitItem sub front
    else if second.startsWord "impl" then implItem sub front
    else if second.startsWord "extern" then foreignItem sub front
    else modItem sub front
  else if input.startsWord "mod" then modItem sub front
  else if input.startsWord "type" then typeItem sub front
  else if input.startsWord "struct" then structItem sub front
  else if input.startsWord "enum" then enumItem sub front
  else if input.startsWord "union" && second.startsName then unionItem sub front
  else if input.startsWord "trait" || (input.startsWord "auto" && second.startsWord "trait") then
    traitItem sub front
  else if input.startsWord "impl" ||
      (input.startsWord "default" && !second.startsPunct "!") then implItem sub front
  else if input.startsWord "macro" then macroDefinition front
  else
    guard (front.isPrivate && startsMacroCall input)
    macroCall true front.attributes

end EntityTables.Syntax
