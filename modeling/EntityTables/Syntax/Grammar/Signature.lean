import EntityTables.Syntax.Grammar.Expr
import EntityTables.Syntax.Grammar.Type

/-!
# Signatures

The productions for visibility, generic parameters and the signatures of functions. A part that may
be missing is an empty phrase, so that every signature has the same number of parts. Parameters for
lifetimes are printed before the others; a list without parameters, bounds or predicates is not
printed at all.
-/

namespace EntityTables.Syntax

open EntityTables.Syntax.Parser

variable (sub : Nonterminal → Parser Node)

/-- Whether the parentheses after `pub` tell how far the name is visible. -/
def isRestriction : List Node → Bool
  | [.leaf (.ident w)] => w == "crate" || w == "self" || w == "super"
  | .leaf (.ident w) :: _ => w == "in"
  | _ => false

/-- The visibility of a name, empty if the name is private. -/
def visibility : Parser Node := do
  if !(← peek (·.startsWord "pub")) then return .empty .visibility
  let keyword ← word "pub"
  match ← get with
  | .group .paren body :: rest =>
    if isRestriction body then
      let parts ← within body do
        let first ← anyWord
        if first.isIdent "in" then return [first, ← plainPath] else return [first]
      set rest
      return .phrase .visibility [keyword, .group .paren parts]
    else return .phrase .visibility [keyword]
  | _ => return .phrase .visibility [keyword]

def startsColon (input : Input) : Bool := input.startsPunct ":" && !input.startsPunct "::"

/-- Bounds after a colon up to where `stop` says; without bounds the colon is dropped. -/
def boundsAfterColon (stop : Input → Bool) : Parser (List Node) :=
  orNothing (·.startsPunct ":") do
    let colon ← punct ":"
    let bounds ← boundsUntil sub stop
    return if bounds.isEmpty then [] else colon :: bounds

/-- The value that a constant parameter has if none is given. -/
def constDefault : Parser Node := do
  if (← peek (·.startsName)) then
    return pathExprOf (.phrase .path [.phrase .segment [← name]])
  constArgument sub

def genericParam : Parser Node := do
  let attributes ← outerAttributes sub
  let input ← get
  if input.startsLifetime then
    let named ← lifetime
    let bounds ← orNothing (·.startsPunct ":") do
      let colon ← punct ":"
      let bounds ← chained (fun input => input.isEmpty || input.startsAnyPunct [",", ">"]) "+"
        (one lifetime)
      return if bounds.isEmpty then [] else colon :: bounds
    return .phrase .genericParam (attributes :: named :: bounds)
  else if input.startsName then
    let name ← name
    let bounds ← boundsAfterColon sub fun input =>
      input.isEmpty || input.startsAnyPunct [",", ">", "="]
    let default ← orNothing (·.startsPunct "=") do
      return [← punct "=", ← sub (.type true)]
    return .phrase .genericParam (attributes :: name :: bounds ++ default)
  else if input.startsWord "const" then
    let keyword ← anyWord
    let name ← name
    let colon ← punct ":"
    let type ← sub (.type true)
    let default ← orNothing (·.startsPunct "=") do
      return [← punct "=", ← constDefault sub]
    return .phrase .genericParam ([attributes, keyword, name, colon, type] ++ default)
  else return .phrase .genericParam [attributes, ← word "_"]

def isLifetimeParam : Node → Bool
  | .phrase .genericParam (_ :: .leaf (.lifetime _) :: _) => true
  | _ => false

/-- The parameters of a list, each with the comma after it. -/
def pairsWithComma : List Node → List (List Node)
  | param :: comma :: rest =>
    if comma.isPunct "," then [param, comma] :: pairsWithComma rest
    else [param] :: pairsWithComma (comma :: rest)
  | [param] => [[param]]
  | [] => []

def lifetimesFirst (params : List Node) : List Node :=
  let pairs := pairsWithComma params
  let lifetimes := (pairs.filter (·.any isLifetimeParam)).flatten
  let others := (pairs.filter (!·.any isLifetimeParam)).flatten
  let endsOpen := (lifetimes.getLast?.map fun last => !last.isPunct ",").getD false
  if endsOpen && !others.isEmpty then lifetimes ++ Node.punct "," :: others
  else lifetimes ++ others

/-- The generic parameters in angle brackets, if there are any. -/
def generics : Parser Node := do
  if !(← peek (·.startsPunct "<")) then return .empty .generics
  let opening ← punct "<"
  let params ← separated (·.startsPunct ">") (punct ",") (one (genericParam sub))
  let closing ← punct ">"
  if params.isEmpty then return .empty .generics
  return .phrase .generics (opening :: lifetimesFirst params ++ [closing])

/-- Whether the predicates of a `where` end here. -/
def endsWhere (input : Input) : Bool :=
  input.isEmpty || input.startsGroup .brace || input.startsAnyPunct [",", ";", "="] ||
    startsColon input

/-- A predicate of a `where`. -/
def predicate : Parser Node := do
  if (← peek fun input => input.startsLifetime && input.next.startsPunct ":") then
    let named ← lifetime
    let colon ← punct ":"
    let bounds ← chained endsWhere "+" (one lifetime)
    return .phrase .predicate (named :: colon :: bounds)
  let lifetimes ← forLifetimes? sub
  let type ← sub (.type true)
  let colon ← punct ":"
  let bounds ← boundsUntil sub endsWhere
  return .phrase .predicate (lifetimes ++ type :: colon :: bounds)

/-- The predicates after `where`, if there are any. -/
def whereClause : Parser Node := do
  if !(← peek (·.startsWord "where")) then return .empty .whereClause
  let keyword ← word "where"
  let predicates ← chained endsWhere "," (one (predicate sub))
  if predicates.isEmpty then return .empty .whereClause
  return .phrase .whereClause (keyword :: predicates)

def receiver (attributes : Node) : Parser Node := do
  let reference ← orNothing (·.startsPunct "&") do
    return (← punct "&") :: (← lifetime?)
  let mutability ← word? "mut"
  let self ← word "self"
  let type ← orNothing (fun input => reference.isEmpty && input.startsPunct ":") do
    return [← punct ":", ← sub (.type true)]
  return .phrase .receiver (attributes :: reference ++ mutability ++ self :: type)

/-- A parameter of a function; a generic type alone stands for a parameter that is not named. -/
def functionParam : Parser Node := do
  let attributes ← outerAttributes sub
  if (← peek (·.startsPunct "...")) then return .phrase .restPat [attributes, ← punct "..."]
  if let some receiver ← attempt (receiver sub attributes) then return receiver
  if (← peek fun input => input.startsName && input.next.startsPunct "<") then
    let type ← sub (.type true)
    return .phrase .param [attributes, .phrase .pattern [.ident "_"], .punct ":", type]
  let pattern ← sub .pattern
  let colon ← punct ":"
  if (← peek (·.startsPunct "...")) then
    return .phrase .restPat [attributes, pattern, colon, ← punct "..."]
  return .phrase .param [attributes, pattern, colon, ← sub (.type true)]

def isParamOrder (params : List Node) : Bool :=
  !(params.drop 1).any (Node.is .receiver) && !params.dropLast.any (Node.is .restPat)

def functionParams : Parser (List Node) := do
  let params ← commaList (one (functionParam sub))
  guard (isParamOrder (params.filter (!Node.isPunct "," ·)))
  return params

/-- The words in front of `fn`. -/
def functionQualifiers (safe : Bool) : Parser Node := do
  let constancy ← word? "const"
  let asynchrony ← word? "async"
  let safety ← if safe then word? "safe" else pure []
  let unsafety ← if safety.isEmpty then word? "unsafe" else pure []
  return .phrase .qualifiers (constancy ++ asynchrony ++ safety ++ unsafety ++ (← abi?))

def signature (safe : Bool) : Parser Node := do
  let qualifiers ← functionQualifiers safe
  let keyword ← word "fn"
  let name ← name
  let generics ← generics sub
  let params ← group .paren (functionParams sub)
  let result ← returnType sub true
  return .phrase .signature
    [qualifiers, keyword, name, generics, params, result, ← whereClause sub]

/-- The input after a word, if the word comes next. -/
def Input.afterWord (input : Input) (word : String) : Input :=
  if input.startsWord word then input.next else input

def startsSignature (safe : Bool) (input : Input) : Bool :=
  let input := (input.afterWord "const").afterWord "async"
  let input := if safe && input.startsWord "safe" then input.next else input.afterWord "unsafe"
  let input :=
    if input.startsWord "extern" then
      if input.next.startsString then input.skip 2 else input.next
    else input
  input.startsWord "fn"

end EntityTables.Syntax
