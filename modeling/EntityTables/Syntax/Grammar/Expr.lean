import EntityTables.Syntax.Grammar.Statement
import EntityTables.Text.CharClass

/-!
# Expressions

The productions for operands: literals, paths, calls, control flow and whatever may follow an
operand directly.
-/

namespace EntityTables.Syntax

open EntityTables.Syntax.Parser EntityTables.Text

variable (sub : Nonterminal → Parser Node)

def label? : Parser (List Node) :=
  orNothing (·.startsLifetime) do
    return [.phrase .label [← lifetime, ← punct ":"]]

def ifExpr : Parser Node := do
  let clause : Parser (List Node) := do
    return [← word "if", ← sub (.expr false), ← sub .block]
  let first ← clause
  let more ← many (fun input => input.startsWord "else" && input.next.startsWord "if") do
    return (← word "else") :: (← clause)
  let last ← orNothing (·.startsWord "else") do
    return [← word "else", ← bareBlockExpr sub]
  return bareExpr .ifExpr (first ++ more ++ last)

/-- A `while` loop. -/
def whileExpr (label : List Node) : Parser Node := do
  let keyword ← word "while"
  let condition ← sub (.expr false)
  return bareExpr .whileExpr (label ++ [keyword, condition, ← attributedBlock sub])

/-- A `for` loop. -/
def forExpr (label : List Node) : Parser Node := do
  let keyword ← word "for"
  let pattern ← sub .alternatives
  let preposition ← word "in"
  let range ← sub (.expr false)
  return bareExpr .forExpr
    (label ++ [keyword, pattern, preposition, range, ← attributedBlock sub])

def loopExpr (label : List Node) : Parser Node := do
  return bareExpr .loopExpr (label ++ [← word "loop", ← attributedBlock sub])

def blockExpr (label : List Node) : Parser Node := do
  return bareExpr .blockExpr (label ++ [← attributedBlock sub])

/-- An arm of a `match`; a body that is no block needs a comma unless it is the last. -/
def matchArm : Parser (List Node) := do
  let attributes ← outerAttributes sub
  let pattern ← sub .alternatives
  let condition ← orNothing (·.startsWord "if") do
    return [← word "if", ← sub (.expr true)]
  let arrow ← punct "=>"
  let body ← sub .statementExpr
  let comma ← if !body.isBlockLike && !(← peek List.isEmpty) then one (punct ",") else punct? ","
  return [.phrase .arm (attributes :: pattern :: condition ++ [arrow, body] ++ comma)]

/-- A `match`. -/
def matchExpr : Parser Node := do
  let keyword ← word "match"
  let scrutinee ← sub (.expr false)
  let arms ← group .brace do
    return (← innerAttributes? sub) ++ (← many (fun input => !input.isEmpty) (matchArm sub))
  return bareExpr .matchExpr [keyword, scrutinee, arms]

def labeledExpr : Parser Node := do
  let label ← label?
  let input ← get
  if input.startsWord "while" then whileExpr sub label
  else if input.startsWord "for" then forExpr sub label
  else if input.startsWord "loop" then loopExpr sub label
  else blockExpr sub label

/-- Whether a closure starts here with `for` and the lifetimes it introduces. -/
def startsForLifetimes (input : Input) : Bool :=
  input.startsWord "for" && input.next.startsGenerics

/-- An expression that ends in a block, if one starts here. -/
def blockLike? : Parser (Option Node) := do
  let input ← get
  let opensBlock := input.next.startsGroup .brace
  if input.startsWord "if" then return some (← ifExpr sub)
  else if input.startsWord "while" then return some (← whileExpr sub [])
  else if input.startsWord "for" && !startsForLifetimes input then
    return some (← forExpr sub [])
  else if input.startsWord "loop" then return some (← loopExpr sub [])
  else if input.startsWord "match" then return some (← matchExpr sub)
  else if input.startsWord "try" && opensBlock then
    return some (bareExpr .tryBlockExpr [← anyWord, ← sub .block])
  else if input.startsWord "unsafe" then
    return some (bareExpr .unsafeExpr [← anyWord, ← attributedBlock sub])
  else if input.startsWord "const" && opensBlock then
    return some (bareExpr .constExpr [← anyWord, ← attributedBlock sub])
  else if input.startsGroup .brace then return some (← blockExpr sub [])
  else if input.startsLifetime then return some (← labeledExpr sub)
  else return none

def callArguments : Parser Node := group .paren (commaList (one (sub (.expr true))))

/-- The indices that a number after a dot stands for: `0.1` is two of them. -/
def memberIndices? (text : String) : Option (List Node) :=
  let parts := splitAtChar '.' text.toList
  let index? (digits : List Char) : Option Node :=
    if digits.isEmpty || !digits.all (fun c => isDigit c || c == '_') then none
    else
      let digits := digits.filter (· != '_')
      let value := digits.foldl (fun value c => 10 * value + (c.toNat - '0'.toNat)) 0
      if value < UInt32.size then some (.literal (toString value)) else none
  parts.mapM index?

/-- A field, a method call or the end of a future after an operand and a dot. -/
def memberAfter (base : Node) : Parser Node := do
  let dot ← punct "."
  if (← peek (·.startsWord "await")) then return bareExpr .awaitExpr [base, dot, ← anyWord]
  match ← get with
  | .leaf (.literal text) :: rest =>
    let trimmed := if text.endsWith "." then (text.dropEnd 1).toString else text
    match memberIndices? trimmed with
    | some indices =>
      let whole := indices.foldl (fun base index => bareExpr .fieldExpr [base, dot, index]) base
      if trimmed == text then
        set rest
        return whole
      set (Node.punct "." :: rest)
      return whole
    | none => refuse
  | _ =>
    let member ← name
    let turbofish ← if (← peek (·.startsPunct "::")) then genericArgs sub
      else pure (.empty .genericArgs)
    if !turbofish.parts.isEmpty || (← peek (·.startsGroup .paren)) then
      return bareExpr .methodCallExpr [base, dot, member, turbofish, ← callArguments sub]
    return bareExpr .fieldExpr [base, dot, member]

/-- What follows an operand directly: arguments, a member, an index or a question mark. -/
def trailer? (base : Node) : Parser (Option Node) := do
  let input ← get
  if input.startsGroup .paren then return some (bareExpr .callExpr [base, ← callArguments sub])
  else if input.startsPunct "." && !input.startsPunct ".." && !base.is .rangeExpr then
    return some (← memberAfter sub base)
  else if input.startsGroup .bracket then
    return some (bareExpr .indexExpr [base, ← group .bracket (one (sub (.expr true)))])
  else if input.startsPunct "?" && !base.is .rangeExpr then
    return some (bareExpr .tryExpr [base, ← punct "?"])
  else return none

def withTrailers (base : Node) : Parser Node := grow (trailer? sub) base

def startsExpr (input : Input) : Bool :=
  (input.startsAnyWord && !input.startsWord "as") || input.startsAnyGroup || input.startsLiteral ||
    (input.startsPunct "!" && !input.startsPunct "!=") ||
    (input.startsPunct "-" && !input.startsAnyPunct ["-=", "->"]) ||
    (input.startsPunct "*" && !input.startsPunct "*=") ||
    (input.startsPunct "|" && !input.startsPunct "|=") ||
    (input.startsPunct "&" && !input.startsPunct "&=") ||
    input.startsPunct ".." ||
    (input.startsPunct "<" && !input.startsAnyPunct ["<=", "<<="]) ||
    input.startsAnyPunct ["::", "#"] || input.startsLifetime

def closureParam : Parser Node := do
  let attributes ← outerAttributes sub
  let pattern ← sub .pattern
  let type ← orNothing (·.startsPunct ":") do
    return [← punct ":", ← sub (.type true)]
  return .phrase (if type.isEmpty then .pattern else .typedPat) (attributes :: pattern :: type)

/-- A closure; one that declares its result has a block as its body. -/
def closureExpr (struct : Bool) : Parser Node := do
  let lifetimes ← forLifetimes? sub
  let words := (← word? "const") ++ (← word? "static") ++ (← word? "async") ++ (← word? "move")
  let opening ← punct "|"
  let params ← separated (·.startsPunct "|") (punct ",") (one (closureParam sub))
  let closing ← punct "|"
  let front := lifetimes ++ words ++ opening :: params ++ [closing]
  if (← peek (·.startsPunct "->")) then
    let arrow ← punct "->"
    let result := Node.phrase .returnType [arrow, ← sub (.type true)]
    return bareExpr .closureExpr (front ++ [result, ← bareBlockExpr sub])
  return bareExpr .closureExpr (front ++ [← sub (.expr struct)])

/-- A field of a struct literal, perhaps only its name. -/
def fieldValue : Parser Node := do
  let attributes ← outerAttributes sub
  match ← get with
  | .leaf (.literal text) :: rest =>
    match memberIndices? text with
    | some [index] =>
      set rest
      return .phrase .fieldValue [attributes, index, ← punct ":", ← sub (.expr true)]
    | _ => refuse
  | _ =>
    let member ← name
    let value ← orNothing (·.startsPunct ":") do
      return [← punct ":", ← sub (.expr true)]
    return .phrase .fieldValue (attributes :: member :: value)

/-- The fields of a struct literal, perhaps with a value for the rest of them. -/
def structFields : Parser (List Node) :=
  commaList do
    if (← peek (·.startsPunct "..")) then
      let dots ← punct ".."
      if (← peek List.isEmpty) then return [dots]
      let rest ← sub (.expr true)
      guard (← peek List.isEmpty)
      return [dots, rest]
    return [← fieldValue sub]

def pathLikeExpr (struct : Bool) : Parser Node := do
  let path ← anyPath sub true
  let input ← get
  if input.startsPunct "!" && !input.startsPunct "!=" && path.is .path && isPlainPath path then
    return bareExpr .macroExpr [path, ← punct "!", ← rawGroup]
  else if struct && input.startsGroup .brace then
    return bareExpr .structExpr [path, ← group .brace (structFields sub)]
  else return pathExprOf path

/-- What stands in parentheses in an expression: an expression alone, or the parts of a tuple. -/
def parenOrTupleExpr : Parser Node := do
  let body ← group .paren (commaList (one (sub (.expr true))))
  return bareExpr (if body.parts.length == 1 then .parenExpr else .tupleExpr) [body]

/-- An array, given by its elements or by one element and a length. -/
def arrayOrRepeatExpr : Parser Node := do
  let body ← group .bracket do
    if (← peek List.isEmpty) then return []
    let first ← sub (.expr true)
    if (← peek (·.startsPunct ";")) then
      return [first, ← punct ";", ← sub (.expr true)]
    if (← peek List.isEmpty) then return [first]
    let comma ← punct ","
    return first :: comma :: (← commaList (one (sub (.expr true))))
  let isRepeat := body.parts.any (Node.isPunct ";")
  return bareExpr (if isRepeat then .repeatExpr else .arrayExpr) [body]

/-- The value that leaves a loop, a function or a generator, if one follows. -/
def leavingValue? (struct : Bool) : Parser (List Node) :=
  orNothing (fun input => startsExpr input && (struct || !input.startsGroup .brace))
    (one (sub (.expr true)))

/-- The end of a loop with its value; a label with a colon after it would belong to the value. -/
def breakExpr (struct : Bool) : Parser Node := do
  let keyword ← word "break"
  let label ← lifetime?
  guard (label.isEmpty || !(← peek (·.startsPunct ":")))
  return bareExpr .breakExpr (keyword :: label ++ (← leavingValue? sub struct))

def letExpr (struct : Bool) : Parser Node := do
  let keyword ← word "let"
  let pattern ← sub .alternatives
  let sign ← punct "="
  let first ← sub (.operand struct)
  return bareExpr .letExpr
    [keyword, pattern, sign, ← sub (.continuation first struct .compare)]

def startsClosure (input : Input) : Bool :=
  input.startsPunct "|" || input.startsOneOf ["move", "static"] || startsForLifetimes input ||
    (input.startsWord "const" && !input.next.startsGroup .brace) ||
    (input.startsWord "async" && (input.next.startsPunct "|" || input.next.startsWord "move"))

def startsAsyncBlock (input : Input) : Bool :=
  input.startsWord "async" &&
    (input.next.startsGroup .brace ||
      (input.next.startsWord "move" && (input.skip 2).startsGroup .brace))

def startsPathExpr (input : Input) : Bool :=
  input.startsPathWord || input.startsAnyPunct ["::", "<"] ||
    (input.startsWord "try" && input.next.startsAnyPunct ["!", "::"])

/-- An operand without what follows it. -/
def atom (struct : Bool) : Parser Node := do
  let input ← get
  if input.startsLiteralToken || input.startsOneOf ["true", "false"] then literalExpr
  else if startsAsyncBlock input then
    let keyword ← anyWord
    return bareExpr .asyncExpr (keyword :: (← word? "move") ++ [← sub .block])
  else if input.startsWord "try" && input.next.startsGroup .brace then
    return bareExpr .tryBlockExpr [← anyWord, ← sub .block]
  else if startsClosure input then closureExpr sub struct
  else if input.startsWord "builtin" && input.next.startsPunct "#" then
    discard anyWord
    discard (punct "#")
    discard name
    discard (when (·.startsGroup .paren))
    sinceInput input
  else if startsPathExpr input then pathLikeExpr sub struct
  else if input.startsGroup .paren then parenOrTupleExpr sub
  else if input.startsWord "break" then breakExpr sub struct
  else if input.startsWord "continue" then
    return bareExpr .continueExpr ((← anyWord) :: (← lifetime?))
  else if input.startsWord "return" then
    return bareExpr .returnExpr ((← anyWord) :: (← leavingValue? sub true))
  else if input.startsWord "become" then
    discard anyWord
    discard (sub (.expr true))
    sinceInput input
  else if input.startsGroup .bracket then arrayOrRepeatExpr sub
  else if input.startsWord "let" then letExpr sub struct
  else if input.startsWord "yield" then
    return bareExpr .yieldExpr ((← anyWord) :: (← leavingValue? sub true))
  else if let some block ← blockLike? sub then return block
  else if input.startsPunct ".." then rangeFrom sub struct []
  else if input.startsWord "_" then return bareExpr .inferExpr [← anyWord]
  else refuseFor (.missingExpression input.isEmpty)

/-- An operand with its attributes; one that the grammar has no name for is kept as it is
written. -/
def attributedOperand (struct : Bool) (start : Input) (attributes : Node) : Parser Node := do
  let whole ← withTrailers sub (← atom sub struct)
  if whole.is .verbatim then sinceInput start
  else
    guard (attributes.parts.isEmpty || !whole.is .rangeExpr)
    return whole.withAttributes attributes.parts

/-- An operand: signs, then what they apply to. -/
def operandRule (struct : Bool) : Parser Node := do
  let start ← get
  let attributes ← outerAttributes sub
  let input ← get
  if input.startsPunct "&" then
    let sign ← punct "&"
    let isAddress ← peek fun input =>
      input.startsWord "raw" && input.next.startsOneOf ["mut", "const"]
    if isAddress then
      let keyword ← anyWord
      let mutability ← anyWord
      return .phrase .addressExpr
        [attributes, sign, keyword, mutability, ← sub (.operand struct)]
    let mutability ← word? "mut"
    return .phrase .referenceExpr (attributes :: sign :: mutability ++ [← sub (.operand struct)])
  else if input.startsAnyPunct ["*", "!", "-"] then
    let sign ← punct (if input.startsPunct "*" then "*" else if input.startsPunct "!" then "!" else "-")
    return .phrase .unaryExpr [attributes, sign, ← sub (.operand struct)]
  else attributedOperand sub struct start attributes

def statementExprRule : Parser Node := do
  let attributes ← outerAttributes sub
  let first ← match ← blockLike? sub with
    | some block => pure block
    | none => sub (.operand true)
  if !first.isBlockLike then
    sub (.continuation (first.withAttributes attributes.parts) true .lowest)
  else if (← peek fun input =>
      (input.startsPunct "." && !input.startsPunct "..") || input.startsPunct "?") then
    let whole ← withTrailers sub first
    sub (.continuation (whole.withAttributes attributes.parts) true .lowest)
  else return first.withAttributes attributes.parts

end EntityTables.Syntax
