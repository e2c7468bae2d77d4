import EntityTables.Text.CharClass
import EntityTables.Text.CodeRange

/-!
# Literals

The written forms of literals. Each scanner splits a text into the literal at its front and the
rest, and refuses a text that does not start with one.
-/

namespace EntityTables.Syntax

open EntityTables.Text

/-- A text split into a scanned front and the rest, or a refusal. -/
abbrev Scan := Option (List Char × List Char)

def Scan.after (front : List Char) (scan : Scan) : Scan :=
  scan.map fun (text, rest) => (front ++ text, rest)

def Scan.andThen (scan : Scan) (next : List Char → Scan) : Scan :=
  scan.bind fun (text, rest) => (next rest).after text

def scanIdent (text : List Char) : Scan :=
  match text with
  | c :: _ => if isIdentStart c then some (text.span isIdentContinue) else none
  | [] => none

def scanSuffix (text : List Char) : Scan := some ((scanIdent text).getD ([], text))

def isHexDigit (c : Char) : Bool :=
  isDigit c || ('a' ≤ c && c ≤ 'f') || ('A' ≤ c && c ≤ 'F')

inductive QuoteKind
  | text
  | bytes
  | terminated
deriving DecidableEq, Repr

inductive QuoteState
  | plain
  | afterReturn
  | escape
  | hexHigh
  | hexLow (high : Char)
  | unicodeOpen
  | unicode (value digits : Nat)
  | continuation
  | continuationReturn
deriving DecidableEq, Repr

inductive QuoteStep
  | refuse
  | finish
  | goOn (state : QuoteState)
deriving DecidableEq, Repr

def isScalar (code : Nat) : Bool := code < 0xD800 || (0xE000 ≤ code && code < 0x110000)

def QuoteKind.plainStep (kind : QuoteKind) (c : Char) : QuoteStep :=
  if c == '"' then .finish
  else if c == '\r' then .goOn .afterReturn
  else if c == '\\' then .goOn .escape
  else match kind with
    | .text => .goOn .plain
    | .bytes => if isWide c then .refuse else .goOn .plain
    | .terminated => if c == '\x00' then .refuse else .goOn .plain

def QuoteKind.escapeStep (kind : QuoteKind) (c : Char) : QuoteStep :=
  if c == 'x' then .goOn .hexHigh
  else if c == 'n' || c == 'r' || c == 't' || c == '\\' || c == '\'' || c == '"' then .goOn .plain
  else if c == '0' then if kind = .terminated then .refuse else .goOn .plain
  else if c == 'u' then if kind = .bytes then .refuse else .goOn .unicodeOpen
  else if c == '\n' then .goOn .continuation
  else if c == '\r' then .goOn .continuationReturn
  else .refuse

def QuoteKind.step (kind : QuoteKind) (state : QuoteState) (c : Char) : QuoteStep :=
  match state with
  | .plain => kind.plainStep c
  | .afterReturn => if c == '\n' then .goOn .plain else .refuse
  | .escape => kind.escapeStep c
  | .hexHigh =>
    if isHexDigit c && (kind ≠ .text || ('0' ≤ c && c ≤ '7')) then .goOn (.hexLow c) else .refuse
  | .hexLow high =>
    if isHexDigit c && (kind ≠ .terminated || !(high == '0' && c == '0')) then .goOn .plain
    else .refuse
  | .unicodeOpen => if c == '\x7b' then .goOn (.unicode 0 0) else .refuse
  | .unicode value digits =>
    if c == '\x7d' && digits != 0 then
      if isScalar value && (kind ≠ .terminated || value != 0) then .goOn .plain else .refuse
    else if c == '_' && digits != 0 then .goOn (.unicode value digits)
    else if isHexDigit c && digits < 6 then .goOn (.unicode (16 * value + hexDigitValue c) (digits + 1))
    else .refuse
  | .continuation =>
    if c == ' ' || c == '\t' || c == '\n' then .goOn .continuation
    else if c == '\r' then .goOn .continuationReturn
    else kind.plainStep c
  | .continuationReturn => if c == '\n' then .goOn .continuation else .refuse

def QuoteKind.scan (kind : QuoteKind) (state : QuoteState) : List Char → Scan
  | [] => none
  | c :: rest =>
    match kind.step state c with
    | .refuse => none
    | .finish => some ([c], rest)
    | .goOn next => Scan.after [c] (kind.scan next rest)

/-- The rest of a raw literal up to a quote followed by `hashes`. -/
def scanRawBody (kind : QuoteKind) (hashes : List Char) : List Char → Scan
  | [] => none
  | '"' :: rest =>
    if hashes.isPrefixOf rest then some ('"' :: hashes, rest.drop hashes.length)
    else Scan.after ['"'] (scanRawBody kind hashes rest)
  | '\r' :: rest =>
    match rest with
    | '\n' :: rest => Scan.after ['\r', '\n'] (scanRawBody kind hashes rest)
    | _ => none
  | c :: rest =>
    if (kind = .bytes && isWide c) || (kind = .terminated && c == '\x00') then none
    else Scan.after [c] (scanRawBody kind hashes rest)

/-- A raw literal after its prefix: hashes, a quote, and text up to the same hashes. -/
def scanRaw (kind : QuoteKind) (text : List Char) : Scan :=
  let (hashes, rest) := text.span (· == '#')
  match rest with
  | '"' :: body =>
    if hashes.length ≤ 255 then Scan.after (hashes ++ ['"']) (scanRawBody kind hashes body) else none
  | _ => none

def scanUnicodeDigits (value digits : Nat) : List Char → Scan
  | [] => none
  | c :: rest =>
    if c == '\x7d' && digits != 0 then if isScalar value then some ([c], rest) else none
    else if c == '_' && digits != 0 then Scan.after [c] (scanUnicodeDigits value digits rest)
    else if isHexDigit c && digits < 6 then
      Scan.after [c] (scanUnicodeDigits (16 * value + hexDigitValue c) (digits + 1) rest)
    else none

/-- One character between single quotes, plain or escaped. -/
def scanQuotedChar (bytes : Bool) : List Char → Scan
  | '\\' :: 'x' :: a :: b :: rest =>
    if isHexDigit a && isHexDigit b && (bytes || ('0' ≤ a && a ≤ '7')) then
      some (['\\', 'x', a, b], rest)
    else none
  | '\\' :: 'u' :: '\x7b' :: rest =>
    if bytes then none else Scan.after ['\\', 'u', '\x7b'] (scanUnicodeDigits 0 0 rest)
  | '\\' :: c :: rest =>
    if c == 'n' || c == 'r' || c == 't' || c == '\\' || c == '0' || c == '\'' || c == '"' then
      some (['\\', c], rest)
    else none
  | ['\\'] => none
  | c :: rest => if bytes && isWide c then none else some ([c], rest)
  | [] => none

def scanQuote : List Char → Scan
  | '\'' :: rest => some (['\''], rest)
  | _ => none

/-- Digits and underscores of a number in a base; a digit beyond the base is refused. -/
def scanDigits (base : Nat) (empty : Bool) : List Char → Scan
  | [] => if empty then none else some ([], [])
  | c :: rest =>
    let stop : Scan := if empty then none else some ([], c :: rest)
    if isDigit c then
      if base ≤ hexDigitValue c then none else Scan.after [c] (scanDigits base false rest)
    else if isHexDigit c then
      if base ≤ hexDigitValue c then stop else Scan.after [c] (scanDigits base false rest)
    else if c == '_' then
      if empty && base == 10 then none else Scan.after [c] (scanDigits base empty rest)
    else stop

/-- A number may not run into an identifier. -/
def refuseIdentAfter (scan : Scan) : Scan :=
  scan.bind fun (text, rest) =>
    match rest with
    | c :: _ => if isIdentContinue c then none else some (text, rest)
    | [] => some (text, rest)

def scanWholeDigits (text : List Char) : Scan :=
  match text with
  | '0' :: 'x' :: rest => Scan.after ['0', 'x'] (scanDigits 16 true rest)
  | '0' :: 'o' :: rest => Scan.after ['0', 'o'] (scanDigits 8 true rest)
  | '0' :: 'b' :: rest => Scan.after ['0', 'b'] (scanDigits 2 true rest)
  | _ => scanDigits 10 true text

def scanWhole (text : List Char) : Scan :=
  refuseIdentAfter ((scanWholeDigits text).andThen scanSuffix)

def isDigitOrUnderscore (c : Char) : Bool := isDigit c || c == '_'

/-- The exponent of a number after its letter: an optional sign between underscores, then a digit
somewhere. -/
def scanExponent (text : List Char) : Scan :=
  let (early, rest) := text.span (· == '_')
  let (sign, rest) := match rest with
    | '+' :: r => (['+'], r)
    | '-' :: r => (['-'], r)
    | r => ([], r)
  let (digits, rest) := rest.span isDigitOrUnderscore
  if digits.any isDigit then some (early ++ sign ++ digits, rest) else none

def scanFractionDigits (text : List Char) : Scan :=
  match text with
  | c :: _ =>
    if !isDigit c then none
    else
      let (whole, rest) := text.span isDigitOrUnderscore
      let (fraction, hasDot, rest) : List Char × Bool × List Char := match rest with
        | '.' :: r =>
          let refused := match r with
            | d :: _ => d == '.' || isIdentStart d
            | [] => false
          if refused then ([], false, rest)
          else
            let (digits, r) := r.span isDigitOrUnderscore
            ('.' :: digits, true, r)
        | r => ([], false, r)
      match rest with
      | e :: r =>
        if e == 'e' || e == 'E' then
          match scanExponent r with
          | some (exponent, r) => some (whole ++ fraction ++ e :: exponent, r)
          | none => if hasDot then some (whole ++ fraction, rest) else none
        else if hasDot then some (whole ++ fraction, rest) else none
      | [] => if hasDot then some (whole ++ fraction, rest) else none
  | [] => none

/-- A number with a fraction or an exponent, with its suffix. -/
def scanFraction (text : List Char) : Scan :=
  refuseIdentAfter ((scanFractionDigits text).andThen scanSuffix)

def scanQuotedLiteral (text : List Char) : Scan :=
  match text with
  | '"' :: rest => (Scan.after ['"'] (QuoteKind.text.scan .plain rest)).andThen scanSuffix
  | 'r' :: rest => (Scan.after ['r'] (scanRaw .text rest)).andThen scanSuffix
  | 'b' :: '"' :: rest => (Scan.after ['b', '"'] (QuoteKind.bytes.scan .plain rest)).andThen scanSuffix
  | 'b' :: 'r' :: rest => (Scan.after ['b', 'r'] (scanRaw .bytes rest)).andThen scanSuffix
  | 'c' :: '"' :: rest =>
    (Scan.after ['c', '"'] (QuoteKind.terminated.scan .plain rest)).andThen scanSuffix
  | 'c' :: 'r' :: rest => (Scan.after ['c', 'r'] (scanRaw .terminated rest)).andThen scanSuffix
  | 'b' :: '\'' :: rest =>
    ((Scan.after ['b', '\''] (scanQuotedChar true rest)).andThen scanQuote).andThen scanSuffix
  | '\'' :: rest => ((Scan.after ['\''] (scanQuotedChar false rest)).andThen scanQuote).andThen scanSuffix
  | _ => none

def scanLiteral (text : List Char) : Scan :=
  (scanQuotedLiteral text <|> scanFraction text) <|> scanWhole text

end EntityTables.Syntax
