import EntityTables.Syntax.Grammar.Path

/-!
# Patterns

The productions for patterns. Most patterns are kept as the trees they are made of; only those that
some rule asks about have a kind of their own.
-/

namespace EntityTables.Syntax

open EntityTables.Syntax.Parser

variable (sub : Nonterminal → Parser Node)

/-- The limits of a range: two dots, perhaps with `=`. Where the older three dots are allowed they
mean the same as `..=` and are printed so. -/
def rangeLimits (older : Bool) : Parser Node := do
  if (← peek (·.startsPunct "..=")) then punct "..="
  else if (← peek (·.startsPunct "...")) then
    guard older
    discard (punct "...")
    return .punct "..="
  else punct ".."

def isClosedRange (limits : Node) : Bool := !limits.isPunct ".."

def anyPath (inExpr : Bool) : Parser Node := do
  if (← peek (·.startsPunct "<")) then qualifiedPath sub inExpr else path sub inExpr

/-- A path as an expression without attributes. -/
def pathExprOf (path : Node) : Node :=
  .phrase (if path.is .path then .pathExpr else .qualifiedPathExpr) [.empty .attributes, path]

/-- A constant block as an expression without attributes. -/
def constBlock : Parser Node := do
  return .phrase .constExpr [.empty .attributes, ← word "const", ← sub .block]

def endsRangePattern (input : Input) : Bool :=
  input.isEmpty || input.startsAnyPunct ["|", "=", ",", ";"] || input.startsWord "if" ||
    (input.startsPunct ":" && !input.startsPunct "::")

/-- A bound of a range pattern, if one follows. -/
def rangeBound? : Parser (List Node) := do
  let input ← get
  if endsRangePattern input then return []
  else if input.startsLiteral then one literalExpr
  else if input.startsPathWord || input.startsAnyPunct ["::", "<"] then
    return [pathExprOf (← anyPath sub true)]
  else if input.startsWord "const" then one (constBlock sub)
  else refuse

def rangeAfter (first : List Node) : Parser Node := do
  let limits ← rangeLimits true
  let last ← rangeBound? sub
  guard (!(isClosedRange limits && last.isEmpty))
  return .phrase .rangePat (first ++ limits :: last)

def fieldPattern : Parser (List Node) := do
  let attributes ← outerAttributes sub
  if (← peek (·.startsPunct "..")) then
    let dots ← punct ".."
    guard (← peek List.isEmpty)
    return [.phrase .restPat [attributes, dots]]
  let modifiers ← many (·.startsOneOf ["box", "ref", "mut"]) (one anyWord)
  let member ← when fun input =>
    input.startsName || (modifiers.isEmpty && input.startsNumber)
  let isNumber := member.identName?.isNone
  if modifiers.isEmpty && ((← peek (·.startsPunct ":")) || isNumber) then
    let colon ← punct ":"
    return [.phrase .pattern [attributes, member, colon, ← sub .alternatives]]
  return [.phrase .pattern (attributes :: modifiers ++ [member])]

def pathPattern : Parser Node := do
  let path ← anyPath sub true
  let input ← get
  if input.startsPunct "!" && !input.startsPunct "!=" && isPlainPath path && path.is .path then
    return .phrase .macroExpr [.empty .attributes, path, ← punct "!", ← rawGroup]
  else if input.startsGroup .brace then
    return .phrase .pattern [path, ← group .brace (commaList (fieldPattern sub))]
  else if input.startsGroup .paren then
    return .phrase .pattern [path, ← group .paren (commaList (one (sub .alternatives)))]
  else if input.startsPunct ".." then rangeAfter sub [pathExprOf path]
  else return pathExprOf path

/-- A name that a pattern binds, perhaps with a pattern of its own. -/
def identPattern : Parser Node := do
  let byRef ← word? "ref"
  let mutability ← word? "mut"
  let name ← if (← peek (·.startsWord "self")) then anyWord else name
  let subpattern ← orNothing (·.startsPunct "@") do
    return [← punct "@", ← sub .pattern]
  return .phrase .identPat (byRef ++ mutability ++ name :: subpattern)

/-- A range pattern without its first bound, or the rest of a list. -/
def restOrRange : Parser Node := do
  let limits ← rangeLimits false
  let last ← rangeBound? sub
  if last.isEmpty then
    guard (!isClosedRange limits)
    return .phrase .restPat [limits]
  return .phrase .rangePat (limits :: last)

/-- An element of a slice pattern; a range in it has to be closed on both sides. -/
def sliceElement : Parser (List Node) := do
  let element ← sub .alternatives
  guard (!(element.is .rangePat && element.parts.length < 3))
  return [element]

/-- Whether a pattern starts with a path rather than a single name. -/
def startsPathPattern (input : Input) : Bool :=
  (input.startsName &&
      (input.next.startsAnyPunct ["::", "!", ".."] || input.next.startsGroup .brace ||
        input.next.startsGroup .paren)) ||
    (input.startsWord "self" && input.next.startsPunct "::") ||
    input.startsAnyPunct ["::", "<"] || input.startsOneOf ["Self", "super", "crate"]

def patternRule : Parser Node := do
  let input ← get
  if startsPathPattern input then pathPattern sub
  else if input.startsWord "_" then return .phrase .pattern [← anyWord]
  else if input.startsWord "box" then
    discard anyWord
    discard (sub .pattern)
    sinceInput input
  else if input.startsPunct "-" || input.startsLiteral || input.startsWord "const" then
    let first ← rangeBound? sub
    if (← peek (·.startsPunct "..")) then rangeAfter sub first
    else match first with
      | [only] => return only
      | _ => refuse
  else if input.startsOneOf ["ref", "mut", "self"] || input.startsName then identPattern sub
  else if input.startsPunct "&" then
    let sign ← punct "&"
    let mutability ← word? "mut"
    return .phrase .pattern (sign :: mutability ++ [← sub .pattern])
  else if input.startsGroup .paren then
    return .phrase .pattern [← group .paren (commaList (one (sub .alternatives)))]
  else if input.startsGroup .bracket then
    return .phrase .pattern [← group .bracket (commaList (sliceElement sub))]
  else if input.startsPunct ".." && !input.startsPunct "..." then restOrRange sub
  else refuse

def startsAlternative (input : Input) : Bool :=
  input.startsPunct "|" && !input.startsAnyPunct ["||", "|="]

/-- Patterns separated by bars, perhaps with a bar in front. -/
def alternativesRule : Parser Node := do
  let leading ← punct? "|"
  let first ← sub .pattern
  let rest ← many startsAlternative do
    return [← punct "|", ← sub .pattern]
  if leading.isEmpty && rest.isEmpty then return first
  return .phrase .pattern (leading ++ first :: rest)

end EntityTables.Syntax
