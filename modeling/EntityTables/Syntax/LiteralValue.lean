import EntityTables.Syntax.Literal

/-!
# Values of literals

The kind of a literal, read off its written form, and the text that a string literal denotes.
-/

namespace EntityTables.Syntax

open EntityTables.Text

inductive LiteralKind
  | string
  | byteString
  | terminatedString
  | byte
  | char
  | int
  | float
  | bool
deriving DecidableEq, Repr

/-- Whether the text after the letter of an exponent makes the number one with an exponent. -/
def hasExponent (seen : Bool) : List Char → Bool
  | [] => seen
  | c :: rest =>
    if c == '_' then hasExponent seen rest
    else if c == '+' || c == '-' then true
    else if isDigit c then hasExponent true rest
    else seen && isIdentStart c

def isFraction (text : List Char) : Bool :=
  match text with
  | '0' :: 'x' :: _ => false
  | '0' :: 'o' :: _ => false
  | '0' :: 'b' :: _ => false
  | _ =>
    match text.dropWhile isDigitOrUnderscore with
    | '.' :: _ => true
    | c :: rest => (c == 'e' || c == 'E') && hasExponent false rest
    | [] => false

def literalKind (text : List Char) : LiteralKind :=
  match text with
  | '"' :: _ => .string
  | 'r' :: _ => .string
  | 'b' :: '\'' :: _ => .byte
  | 'b' :: _ => .byteString
  | 'c' :: _ => .terminatedString
  | '\'' :: _ => .char
  | _ => if isFraction text then .float else .int

def isContinuationBlank (c : Char) : Bool := c == ' ' || c == '\t' || c == '\n' || c == '\r'

def escapedChar (c : Char) : Char :=
  if c == 'n' then '\n' else if c == 'r' then '\r' else if c == 't' then '\t'
  else if c == '0' then '\x00' else c

def QuoteState.leaveBlanks (state : QuoteState) (c : Char) : QuoteState :=
  match state with
  | .continuation | .continuationReturn => if isContinuationBlank c then .continuation else .plain
  | state => state

/-- The characters that a quoted literal denotes, from a state inside it on. -/
def unquote (state : QuoteState) : List Char → List Char
  | [] => []
  | c :: rest =>
    match state.leaveBlanks c with
    | .plain =>
      if c == '"' then []
      else if c == '\r' then unquote .afterReturn rest
      else if c == '\\' then unquote .escape rest
      else c :: unquote .plain rest
    | .afterReturn => c :: unquote .plain rest
    | .escape =>
      if c == 'x' then unquote .hexHigh rest
      else if c == 'u' then unquote .unicodeOpen rest
      else if c == '\n' || c == '\r' then unquote .continuation rest
      else escapedChar c :: unquote .plain rest
    | .hexHigh => unquote (.hexLow c) rest
    | .hexLow high => Char.ofNat (16 * hexDigitValue high + hexDigitValue c) :: unquote .plain rest
    | .unicodeOpen => unquote (.unicode 0 0) rest
    | .unicode value digits =>
      if c == '\x7d' then Char.ofNat value :: unquote .plain rest
      else if c == '_' then unquote (.unicode value digits) rest
      else unquote (.unicode (16 * value + hexDigitValue c) (digits + 1)) rest
    | .continuation | .continuationReturn => unquote .continuation rest

/-- The text up to a quote followed by `hashes`. -/
def rawBody (hashes : List Char) : List Char → List Char
  | [] => []
  | c :: rest =>
    if c == '"' && hashes.isPrefixOf rest then [] else c :: rawBody hashes rest

/-- The text that a string literal denotes, if the literal is one. -/
def stringValue? (text : String) : Option String :=
  match text.toList with
  | '"' :: rest => some (String.ofList (unquote .plain rest))
  | 'r' :: rest =>
    let (hashes, rest) := rest.span (· == '#')
    some (String.ofList (rawBody hashes (rest.drop 1)))
  | _ => none

end EntityTables.Syntax
