import EntityTables.Syntax.Keyword

/-!
# Parsers

A parser reads trees off the front of its input and refuses what it cannot read. Parsers return the
trees they read as a list, so that an optional part is the empty list. The nonterminals name the
productions that refer to each other; a production takes the parser of the nonterminals as `sub`.
-/

namespace EntityTables.Syntax

inductive SyntaxError
  | missingComma
  | missingExpression (atEnd : Bool)
  | notAnArgument
  | unexpected
deriving DecidableEq, Repr, Inhabited

def SyntaxError.message : SyntaxError → String
  | .missingComma => "expected `,`"
  | .missingExpression false => "expected an expression"
  | .missingExpression true => "unexpected end of input, expected an expression"
  | .notAnArgument => "expected identifier or literal"
  | .unexpected => "unexpected token"

abbrev Parser (α : Type) := StateT Input (Except SyntaxError) α

/-- The binding strength of operators, from the loosest. -/
inductive Precedence
  | lowest
  | assign
  | range
  | or
  | and
  | compare
  | bitOr
  | bitXor
  | bitAnd
  | shift
  | sum
  | product
  | cast
deriving DecidableEq, Repr, Inhabited

def Precedence.rank : Precedence → Nat
  | .lowest => 0
  | .assign => 1
  | .range => 2
  | .or => 3
  | .and => 4
  | .compare => 5
  | .bitOr => 6
  | .bitXor => 7
  | .bitAnd => 8
  | .shift => 9
  | .sum => 10
  | .product => 11
  | .cast => 12

/-- The productions that refer to each other. A type may or may not go on with `+`; an expression
may or may not end in a struct literal. -/
inductive Nonterminal
  | type (plus : Bool)
  | pattern
  | alternatives
  | expr (struct : Bool)
  | operand (struct : Bool)
  | continuation (left : Node) (struct : Bool) (least : Precedence)
  | statementExpr
  | block
  | item
  | useTree
deriving Inhabited

namespace Parser

def refuseFor {α : Type} (error : SyntaxError) : Parser α := throw error

def refuse {α : Type} : Parser α := refuseFor .unexpected

def peek {α : Type} (question : Input → α) : Parser α := return question (← get)

/-- Refuses the input unless a condition holds. -/
def guard (condition : Bool) : Parser Unit := if condition then pure () else refuse

def any : Parser Node := do
  match ← get with
  | node :: rest => set rest; return node
  | [] => refuse

/-- The next tree, if the input passes a test. -/
def when (test : Input → Bool) : Parser Node := do
  guard (← peek test)
  any

/-- An operator as one token, or a refusal for the given reason. -/
def punctOr (error : SyntaxError) (operator : String) : Parser Node := do
  if (← peek (·.startsPunct operator)) then
    set ((← get).drop operator.length)
    return .punct operator
  else refuseFor error

def punct (operator : String) : Parser Node := punctOr .unexpected operator

def word (w : String) : Parser Node := when (·.startsWord w)

def name : Parser Node := when (·.startsName)

def anyWord : Parser Node := when (·.startsAnyWord)

def nameOrUnderscore : Parser Node := when fun input => input.startsName || input.startsWord "_"

def lifetime : Parser Node := when (·.startsLifetime)

/-- What a parser reads if the input passes a test, otherwise nothing. -/
def orNothing (test : Input → Bool) (parser : Parser (List Node)) : Parser (List Node) := do
  if (← peek test) then parser else return []

def one (parser : Parser Node) : Parser (List Node) := return [← parser]

/-- A word, if it comes next. -/
def word? (w : String) : Parser (List Node) := orNothing (·.startsWord w) (one (word w))

/-- An operator, if it comes next. -/
def punct? (operator : String) : Parser (List Node) :=
  orNothing (·.startsPunct operator) (one (punct operator))

/-- A lifetime, if it comes next. -/
def lifetime? : Parser (List Node) := orNothing (·.startsLifetime) (one lifetime)

/-- Runs a parser on trees of their own, all of which it has to read. -/
def within {α : Type} (body : List Node) (parser : Parser α) : Parser α := do
  match parser.run body with
  | .ok (a, []) => return a
  | .ok (_, _ :: _) => refuse
  | .error e => throw e

def group (delimiter : Delimiter) (parser : Parser (List Node)) : Parser Node := do
  match ← get with
  | .group d body :: rest =>
    guard (d == delimiter)
    let parts ← within body parser
    set rest
    return .group delimiter parts
  | _ => refuse

def rawGroup : Parser Node := when (·.startsAnyGroup)

/-- What a parser reads, or nothing and the input as before. -/
def attempt {α : Type} (parser : Parser α) : Parser (Option α) := do
  match parser.run (← get) with
  | .ok (a, rest) => set rest; return some a
  | .error _ => return none

/-- The trees between an earlier input and the present one, as they were written. -/
def sinceInput (start : Input) : Parser Node := do
  return .phrase .verbatim (start.take (start.length - (← get).length))

/-- Repeats a step in at most `steps` rounds, as long as it reads something. -/
def repeatWithin (steps : Nat) (step : Parser (Option (List Node))) (done : List Node) :
    Parser (List Node) :=
  match steps with
  | 0 => return done.reverse
  | steps + 1 => do
    match ← step with
    | some nodes => repeatWithin steps step (nodes.reverse ++ done)
    | none => return done.reverse

def repeated (step : Parser (Option (List Node))) : Parser (List Node) := do
  repeatWithin ((← get).length + 1) step []

def many (test : Input → Bool) (part : Parser (List Node)) : Parser (List Node) :=
  repeated do if (← peek test) then return some (← part) else return none

/-- Parts with a separator that has to stand between two of them and may stand after the last,
up to where `stop` says. -/
def separated (stop : Input → Bool) (separator : Parser Node) (part : Parser (List Node)) :
    Parser (List Node) :=
  repeated do
    if (← peek stop) then return none
    let nodes ← part
    if (← peek stop) then return some nodes
    return some (nodes ++ [← separator])

/-- Parts with an operator between them, up to where `stop` says or no operator follows. -/
def chained (stop : Input → Bool) (operator : String) (part : Parser (List Node)) :
    Parser (List Node) := do
  if (← peek stop) then return []
  let first ← part
  let rest ← repeated do
    if (← peek (·.startsPunct operator)) then
      let sign ← punct operator
      if (← peek stop) then return some [sign]
      return some (sign :: (← part))
    else return none
  return first ++ rest

/-- Parts between commas up to the end of the input. -/
def commaList (part : Parser (List Node)) : Parser (List Node) :=
  separated List.isEmpty (punctOr .missingComma ",") part

end Parser

end EntityTables.Syntax
