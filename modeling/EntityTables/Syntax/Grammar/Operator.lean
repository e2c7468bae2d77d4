import EntityTables.Syntax.Grammar.Pattern

/-!
# Operators

The operators of expressions with their binding strengths, and the productions that join operands.
An operand on the right takes every operator that binds tighter than the one before it; assignment
groups from the right, comparison does not group at all.
-/

namespace EntityTables.Syntax

open EntityTables.Syntax.Parser

variable (sub : Nonterminal → Parser Node)

/-- The binary operators with their strengths; a longer operator stands before its front. -/
def binaryOperators : List (String × Precedence) :=
  [("+=", .assign), ("-=", .assign), ("*=", .assign), ("/=", .assign), ("%=", .assign),
    ("^=", .assign), ("&=", .assign), ("|=", .assign), ("<<=", .assign), (">>=", .assign),
    ("&&", .and), ("||", .or), ("<<", .shift), (">>", .shift), ("==", .compare), ("<=", .compare),
    ("!=", .compare), (">=", .compare), ("+", .sum), ("-", .sum), ("*", .product), ("/", .product),
    ("%", .product), ("^", .bitXor), ("&", .bitAnd), ("|", .bitOr), ("<", .compare),
    (">", .compare)]

def binaryOperator? (input : Input) : Option (String × Precedence) :=
  binaryOperators.find? fun (text, _) => input.startsPunct text

def startsAssignment (input : Input) : Bool := input.startsPunct "=" && !input.startsPunct "=>"

def nextPrecedence (input : Input) : Precedence :=
  match binaryOperator? input with
  | some (_, strength) => strength
  | none =>
    if startsAssignment input then .assign
    else if input.startsPunct ".." then .range
    else if input.startsWord "as" then .cast
    else .lowest

def isComparison : Node → Bool
  | .phrase .binaryExpr [_, _, .leaf (.punct text _), _] =>
    binaryOperators.any fun (t, strength) => t == text && strength == .compare
  | _ => false

/-- An expression phrase without attributes. -/
def bareExpr (kind : Kind) (parts : List Node) : Node := .phrase kind (.empty .attributes :: parts)

def growWithin (steps : Nat) (step : Node → Parser (Option Node)) (node : Node) : Parser Node :=
  match steps with
  | 0 => return node
  | steps + 1 => do
    match ← step node with
    | some larger => growWithin steps step larger
    | none => return node

def grow (step : Node → Parser (Option Node)) (node : Node) : Parser Node := do
  growWithin ((← get).length + 1) step node

/-- The operand after an operator, with all that binds tighter than the operator. -/
def rightOperand (struct : Bool) (strength : Precedence) : Parser Node := do
  let first ← sub (.operand struct)
  grow (fun left => do
    let next := nextPrecedence (← get)
    if strength.rank < next.rank || (next == .assign && strength == .assign) then
      let before ← peek List.length
      let larger ← sub (.continuation left struct next)
      return if (← peek List.length) == before then none else some larger
    else return none) first

def endsRange (struct : Bool) (input : Input) : Bool :=
  input.isEmpty || input.startsAnyPunct [",", ";"] ||
    (input.startsPunct "." && !input.startsPunct "..") || input.startsAnyPunct ["?", "=>"] ||
    (!struct && input.startsGroup .brace) ||
    input.startsAnyPunct ["=", "+", "/", "%", "^", ">", "<=", "!=", "-=", "*=", "&=", "|=", "<<="] ||
    input.startsWord "as"

def rangeFrom (struct : Bool) (start : List Node) : Parser Node := do
  let limits ← rangeLimits false
  if !isClosedRange limits && (← peek (endsRange struct)) then
    return bareExpr .rangeExpr (start ++ [limits])
  return bareExpr .rangeExpr (start ++ [limits, ← rightOperand sub struct .range])

def startsAfterCast (input : Input) : Bool :=
  (input.startsPunct "." && !input.startsPunct "..") || input.startsPunct "?" ||
    input.startsGroup .bracket || input.startsGroup .paren

/-- One operator after an operand, with what belongs to it; nothing if the operator binds looser
than `least`. -/
def operatorAfter? (struct : Bool) (least : Precedence) (left : Node) : Parser (Option Node) := do
  let input ← get
  if left.is .rangeExpr then return none
  match binaryOperator? input with
  | some (text, strength) =>
    if strength.rank < least.rank then return none
    if strength == .compare && isComparison left then refuse
    let operator ← punct text
    return some (bareExpr .binaryExpr [left, operator, ← rightOperand sub struct strength])
  | none =>
    if least.rank ≤ Precedence.assign.rank && startsAssignment input then
      let sign ← punct "="
      return some (bareExpr .assignExpr [left, sign, ← rightOperand sub struct .assign])
    else if least.rank ≤ Precedence.range.rank && input.startsPunct ".." then
      return some (← rangeFrom sub struct [left])
    else if input.startsWord "as" then
      let keyword ← word "as"
      let type ← sub (.type false)
      guard !(← peek startsAfterCast)
      return some (bareExpr .castExpr [left, keyword, type])
    else return none

def continuationRule (left : Node) (struct : Bool) (least : Precedence) : Parser Node :=
  grow (operatorAfter? sub struct least) left

def exprRule (struct : Bool) : Parser Node := do
  let first ← sub (.operand struct)
  sub (.continuation first struct .lowest)

end EntityTables.Syntax
