import EntityTables.Syntax.Grammar.Basic

/-!
# Paths

Names joined by `::`, with generic arguments. In an expression the arguments need a `::` before
them; in a type they do not.
-/

namespace EntityTables.Syntax

open EntityTables.Syntax.Parser

variable (sub : Nonterminal → Parser Node)

def plainPath : Parser Node := do
  let leading ← punct? "::"
  let wordOfPath := when (·.startsPathWord)
  let first ← wordOfPath
  let rest ← many (·.startsPunct "::") do
    let sign ← punct "::"
    return [sign, .phrase .segment [← wordOfPath]]
  return .phrase .path (leading ++ .phrase .segment [first] :: rest)

/-- A literal; a negative number is read with its sign. -/
def literalExpr : Parser Node := do
  if (← peek (·.startsPunct "-")) then
    let sign ← punct "-"
    let number ← when (·.startsNumber)
    return .phrase .literalExpr [.empty .attributes, sign, number]
  let token ← when fun input => input.startsLiteralToken || input.startsOneOf ["true", "false"]
  return .phrase .literalExpr [.empty .attributes, token]

/-- A block as an expression without attributes. -/
def bareBlockExpr : Parser Node := do
  return .phrase .blockExpr [.empty .attributes, ← sub .block]

/-- A constant as a generic argument: a literal or a block. -/
def constArgument : Parser Node := do
  if (← peek (·.startsLiteral)) then literalExpr else bareBlockExpr sub

/-- The arguments of an attribute, up to the end of the brackets: nothing, a group, or a value. -/
def attributeArguments : Parser (List Node) := do
  if (← peek (·.startsAnyGroup)) then one rawGroup
  else if (← peek (·.startsPunct "=")) then
    let sign ← punct "="
    let start ← get
    if let some literal ← attempt literalExpr then
      if (← peek List.isEmpty) then return [sign, literal]
      set start
    guard (!(start.startsPunct "#" && start.next.startsGroup .bracket))
    return [sign, ← sub (.expr true)]
  else return []

/-- The path of an attribute, for which one keyword is allowed. -/
def attributePath : Parser Node := do
  if (← peek (·.startsWord "unsafe")) then
    return .phrase .path [.phrase .segment [← anyWord]]
  plainPath

def outerAttribute : Parser Node := do
  let sign ← punct "#"
  let body ← group .bracket do
    let path ← attributePath
    return path :: (← attributeArguments sub)
  return .phrase .attr [sign, body]

def outerAttributes : Parser Node := do
  return .phrase .attributes (← many (·.startsPunct "#") (one (outerAttribute sub)))

def innerAttribute : Parser Node := do
  let sign ← punct "#"
  let mark ← punct "!"
  let body ← group .bracket do
    let path ← attributePath
    return path :: (← attributeArguments sub)
  return .phrase .attr [sign, mark, body]

def startsInnerAttribute (input : Input) : Bool :=
  input.startsPunct "#" && input.next.startsPunct "!"

def innerAttributes : Parser Node := do
  return .phrase .attributes (← many startsInnerAttribute (one (innerAttribute sub)))

/-- The lifetimes that `for` introduces. -/
def forLifetimes? : Parser (List Node) :=
  orNothing (·.startsWord "for") do
    let keyword ← word "for"
    let opening ← punct "<"
    let params ← separated (·.startsPunct ">") (punct ",") do
      let attributes ← outerAttributes sub
      let named ← lifetime
      let bounds ← orNothing (·.startsPunct ":") do
        let colon ← punct ":"
        let bounds ← chained (fun input => input.startsAnyPunct [",", ">"]) "+" (one lifetime)
        return if bounds.isEmpty then [] else colon :: bounds
      return [.phrase .genericParam (attributes :: named :: bounds)]
    let closing ← punct ">"
    return [.phrase .forLifetimes ([keyword, opening] ++ params ++ [closing])]

/-- The type after an arrow, if there is one. -/
def returnType (plus : Bool) : Parser Node := do
  return .phrase .returnType (← orNothing (·.startsPunct "->") do
    let arrow ← punct "->"
    return [arrow, ← sub (.type plus)])

/-- The arguments of a function type, in parentheses and with its result. -/
def parenArgs : Parser Node := do
  let inputs ← group .paren (commaList (one (sub (.type true))))
  return .phrase .parenArgs [inputs, ← returnType sub false]

/-- Arguments in angle brackets that are written right after a name with `=` or `:`. -/
def isPlainArgumentName : Node → Bool
  | .phrase .pathType [.phrase .path [.phrase .segment parts]] =>
    !parts.any (Node.is .parenArgs)
  | _ => false

def singleSegmentParts : Node → List Node
  | .phrase .pathType [.phrase .path [.phrase .segment parts]] => parts
  | node => [node]

/-- The bounds of a type: lifetimes, and traits with their modifiers; a bound with a constancy
mark is kept as it is written. -/
def bound (capture : Bool) : Parser Node := do
  if (← peek (·.startsLifetime)) then return ← lifetime
  if (← peek (·.startsWord "use")) then
    guard capture
    let keyword ← word "use"
    let opening ← punct "<"
    let captured ← separated (·.startsPunct ">") (punct ",")
      (one (when fun input => input.startsLifetime || input.startsName || input.startsWord "Self"))
    let closing ← punct ">"
    return .phrase .captureBound ([keyword, opening] ++ captured ++ [closing])
  let start ← get
  let traitParts : Parser (List Node) := do
    let lifetimes ← forLifetimes? sub
    let constancy ← if (← peek (·.startsGroup .bracket)) then
        one (group .bracket (one (word "const")))
      else if (← peek (·.startsWord "const")) then one (word "const")
      else if (← peek fun input => input.startsPunct "~" && input.next.startsWord "const") then
        pure [← punct "~", ← word "const"]
      else pure []
    let modifier ← punct? "?"
    let lateLifetimes ← if lifetimes.isEmpty && !modifier.isEmpty then forLifetimes? sub else pure []
    let path ← sub (.type false)
    let isPath := match path with
      | .phrase .pathType _ => true
      | _ => false
    guard isPath
    guard (lifetimes.isEmpty || modifier.isEmpty)
    return constancy ++ modifier ++ lifetimes ++ lateLifetimes ++ path.parts
  let parts ← if (← peek (·.startsGroup .paren)) then one (group .paren traitParts) else traitParts
  let isConst := parts.any fun part =>
    part.isIdent "const" || part.isGroup .bracket ||
      (part.isGroup .paren && part.parts.any fun inner => inner.isIdent "const" || inner.isGroup .bracket)
  if isConst then sinceInput start else return .phrase .traitBound parts

/-- Whether another bound may follow a `+`. -/
def startsBound (input : Input) : Bool :=
  input.startsAnyWord || input.startsAnyPunct ["::", "?", "~"] || input.startsLifetime ||
    input.startsGroup .paren || input.startsGroup .bracket

/-- Bounds joined by `+`; only the first is read where `plus` is not allowed. -/
def bounds (plus capture : Bool) : Parser (List Node) := do
  let first ← bound sub capture
  if !plus then return [first]
  let rest ← repeated do
    if (← peek (·.startsPunct "+")) then
      let sign ← punct "+"
      if (← peek startsBound) then return some [sign, ← bound sub capture]
      return some [sign]
    else return none
  return first :: rest

/-- Bounds up to where `stop` says. -/
def boundsUntil (stop : Input → Bool) : Parser (List Node) :=
  chained stop "+" (one (bound sub false))

def genericArgument : Parser Node := do
  if (← peek fun input => input.startsLifetime && !input.next.startsPunct "+") then
    return ← lifetime
  if (← peek fun input => input.startsLiteral || input.startsGroup .brace) then
    return ← constArgument sub
  let argument ← sub (.type true)
  if isPlainArgumentName argument then
    if (← peek (·.startsPunct "=")) then
      let sign ← punct "="
      let value ← if (← peek fun input => input.startsLiteral || input.startsGroup .brace) then
          constArgument sub
        else sub (.type true)
      return .phrase .assocArg (singleSegmentParts argument ++ [sign, value])
    if (← peek (·.startsPunct ":")) then
      let sign ← punct ":"
      let bounds ← boundsUntil sub (·.startsAnyPunct [",", ">"])
      return .phrase .assocArg (singleSegmentParts argument ++ sign :: bounds)
  return argument

/-- Generic arguments in angle brackets, perhaps with a `::` before them. -/
def genericArgs : Parser Node := do
  let leading ← punct? "::"
  let opening ← punct "<"
  let arguments ← separated (·.startsPunct ">") (punct ",") (one (genericArgument sub))
  let closing ← punct ">"
  return .phrase .genericArgs (leading ++ opening :: arguments ++ [closing])

def segment (inExpr : Bool) : Parser Node := do
  if (← peek (·.startsOneOf ["super", "self", "crate", "try"])) then
    return .phrase .segment [← anyWord]
  let name ← if (← peek (·.startsWord "Self")) then anyWord else name
  let hasArguments ← peek fun input =>
    (!inExpr && input.startsPunct "<" && !input.startsAnyPunct ["<=", "<<="]) ||
      (input.startsPunct "::" && (input.skip 2).startsPunct "<")
  let arguments ← if hasArguments then one (genericArgs sub) else pure []
  return .phrase .segment (name :: arguments)

/-- More segments after a path, unless parentheses follow the `::`. -/
def moreSegments (inExpr : Bool) : Parser (List Node) :=
  many (fun input => input.startsPunct "::" && !(input.skip 2).startsGroup .paren) do
    let sign ← punct "::"
    return [sign, ← segment sub inExpr]

/-- A path; a type may put its arguments right after a name, an expression may not. -/
def path (inExpr : Bool) : Parser Node := do
  let leading ← punct? "::"
  let first ← segment sub inExpr
  return .phrase .path (leading ++ first :: (← moreSegments sub inExpr))

/-- A path inside a type, as in `<T as Trait>::Name`. -/
def qualifiedPath (inExpr : Bool) : Parser Node := do
  let opening ← punct "<"
  let self ← sub (.type true)
  let trait_ ← orNothing (·.startsWord "as") do
    let keyword ← word "as"
    return [keyword, ← path sub false]
  let closing ← punct ">"
  let sign ← punct "::"
  let first ← segment sub inExpr
  let rest ← many (·.startsPunct "::") do
    let sign ← punct "::"
    return [sign, ← segment sub inExpr]
  return .phrase .qualifiedPath ([opening, self] ++ trait_ ++ [closing, sign, first] ++ rest)

def isPlainPath : Node → Bool
  | .phrase .path parts => parts.all fun part => !part.is .segment || part.parts.length == 1
  | _ => false

end EntityTables.Syntax
