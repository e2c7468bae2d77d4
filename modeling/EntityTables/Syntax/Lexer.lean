import EntityTables.Syntax.Literal
import EntityTables.Syntax.Node
import EntityTables.Text.Quoted

/-!
# Lexer

Reads a source text into token trees. Blanks and comments are dropped; a documentation comment
becomes the attribute it stands for. A text is refused if a character starts no token, a literal or
a comment is not closed, or the brackets do not match.
-/

namespace EntityTables.Syntax

open EntityTables.Text

/-- A token, or a bracket that opens or closes a group. -/
inductive Lexeme
  | token (token : Token)
  | opening (delimiter : Delimiter)
  | closing (delimiter : Delimiter)
deriving DecidableEq, Repr

/-- Blanks between tokens; the marks for writing direction count as blanks. -/
def isBlank (c : Char) : Bool := isSpace c || c == '\u200e' || c == '\u200f'

/-- The text of a line and what follows it; the line ends before its line break. -/
def splitLine : List Char → List Char × List Char
  | [] => ([], [])
  | '\n' :: rest => ([], '\n' :: rest)
  | '\r' :: '\n' :: rest => ([], '\n' :: rest)
  | c :: rest =>
    let (line, rest) := splitLine rest
    (c :: line, rest)

/-- The rest of a block comment inside `depth` comments around it, with its end. -/
def scanBlockComment (depth : Nat) : List Char → Scan
  | '/' :: '*' :: rest => Scan.after ['/', '*'] (scanBlockComment (depth + 1) rest)
  | '*' :: '/' :: rest =>
    if depth = 0 then some (['*', '/'], rest)
    else Scan.after ['*', '/'] (scanBlockComment (depth - 1) rest)
  | c :: rest => Scan.after [c] (scanBlockComment depth rest)
  | [] => none

def startsLineComment : List Char → Bool
  | '/' :: '/' :: '/' :: '/' :: _ => true
  | '/' :: '/' :: '/' :: _ => false
  | '/' :: '/' :: '!' :: _ => false
  | '/' :: '/' :: _ => true
  | _ => false

def startsBlockComment : List Char → Bool
  | '/' :: '*' :: '*' :: '*' :: _ => true
  | '/' :: '*' :: '*' :: '/' :: _ => true
  | '/' :: '*' :: '*' :: _ => false
  | '/' :: '*' :: '!' :: _ => false
  | '/' :: '*' :: _ => true
  | _ => false

/-- One blank or plain comment at the front, dropped. -/
def dropBlank (text : List Char) : Option (List Char) :=
  match text with
  | [] => none
  | c :: rest =>
    if isBlank c then some rest
    else if startsLineComment text then some (splitLine (rest.drop 1)).2
    else if startsBlockComment text then (scanBlockComment 0 (rest.drop 1)).map (·.2)
    else none

/-- A documentation comment: its text, and whether it speaks of what encloses it. -/
structure DocComment where
  text : List Char
  inner : Bool

def returnsPaired : List Char → Bool
  | [] => true
  | '\r' :: '\n' :: rest => returnsPaired rest
  | '\r' :: _ => false
  | _ :: rest => returnsPaired rest

/-- A block comment after its opening, without its end. -/
def scanBlockDoc (inner : Bool) (rest : List Char) : Option (DocComment × List Char) :=
  (scanBlockComment 0 rest).map fun (text, rest) => (⟨text.dropLast.dropLast, inner⟩, rest)

def scanDocComment (text : List Char) : Option (DocComment × List Char) :=
  let found : Option (DocComment × List Char) := match text with
    | '/' :: '/' :: '!' :: rest =>
      let (line, rest) := splitLine rest
      some (⟨line, true⟩, rest)
    | '/' :: '*' :: '!' :: rest => scanBlockDoc true rest
    | '/' :: '/' :: '/' :: '/' :: _ => none
    | '/' :: '/' :: '/' :: rest =>
      let (line, rest) := splitLine rest
      some (⟨line, false⟩, rest)
    | '/' :: '*' :: '*' :: '*' :: _ => none
    | '/' :: '*' :: '*' :: rest => scanBlockDoc false rest
    | _ => none
  found.filter fun (comment, _) => returnsPaired comment.text

def DocComment.lexemes (comment : DocComment) : List Lexeme :=
  [.token (.punct "#" false)] ++ (if comment.inner then [.token (.punct "!" false)] else []) ++
    [.opening .bracket, .token (.ident "doc"), .token (.punct "=" false),
      .token (.literal (quoteLiteral (String.ofList comment.text))), .closing .bracket]

def isPunctuation (c : Char) : Bool := "~!@#$%^&*-=+|;:,<.>/?'".toList.contains c

/-- Whether a text starts with punctuation rather than a comment. -/
def startsPunctuation : List Char → Bool
  | '/' :: '/' :: _ => false
  | '/' :: '*' :: _ => false
  | c :: _ => isPunctuation c
  | [] => false

def isRawForbidden (name : List Char) : Bool :=
  ["_", "super", "self", "Self", "crate"].any (·.toList == name)

/-- An identifier, possibly raw. -/
def scanName : List Char → Scan
  | 'r' :: '#' :: rest =>
    (scanIdent rest).bind fun (name, rest) =>
      if isRawForbidden name then none else some ('r' :: '#' :: name, rest)
  | text => scanIdent text

/-- A lifetime after its quote, which no other quote may close. -/
def scanLifetime (text : List Char) : Scan :=
  (scanName text).bind fun (name, rest) =>
    match rest with
    | '\'' :: _ => none
    | '#' :: _ => if ['r', '#'].isPrefixOf text then some (name, rest) else none
    | _ => some (name, rest)

/-- Whether a text starts like a quoted literal, which no identifier may. -/
def startsQuotedPrefix (text : List Char) : Bool :=
  ["r\"", "r#\"", "r##", "b\"", "b'", "br\"", "br#", "c\"", "cr\"", "cr#"].any
    fun front => front.toList.isPrefixOf text

def scanToken (text : List Char) : Option (Token × List Char) :=
  match scanLiteral text with
  | some (literal, rest) => some (.literal (String.ofList literal), rest)
  | none =>
    match text with
    | '\'' :: rest =>
      (scanLifetime rest).map fun (name, rest) => (.lifetime (String.ofList ('\'' :: name)), rest)
    | c :: rest =>
      if startsPunctuation text then
        some (.punct (String.singleton c) (startsPunctuation rest), rest)
      else if startsQuotedPrefix text then none
      else (scanName text).map fun (name, rest) => (.ident (String.ofList name), rest)
    | [] => none

def bracket? : Char → Option Lexeme
  | '(' => some (.opening .paren)
  | '[' => some (.opening .bracket)
  | '\x7b' => some (.opening .brace)
  | ')' => some (.closing .paren)
  | ']' => some (.closing .bracket)
  | '\x7d' => some (.closing .brace)
  | _ => none

/-- The lexemes at the front of a text after blanks: none at a blank, several for a documentation
comment. -/
def scanLexemes (text : List Char) : Option (List Lexeme × List Char) :=
  match dropBlank text with
  | some rest => some ([], rest)
  | none =>
    match scanDocComment text with
    | some (comment, rest) => some (comment.lexemes, rest)
    | none =>
      match text with
      | [] => none
      | c :: rest =>
        match bracket? c with
        | some lexeme => some ([lexeme], rest)
        | none => (scanToken text).map fun (token, rest) => ([.token token], rest)

/-- The lexemes of a text, read in at most the given number of steps. -/
def lexemesWithin : Nat → List Char → Option (List Lexeme)
  | _, [] => some []
  | 0, _ => none
  | steps + 1, text =>
    (scanLexemes text).bind fun (front, rest) =>
      (lexemesWithin steps rest).map (front ++ ·)

/-- A group whose closing bracket was not read yet: the trees before it, the last one first, and
its own bracket. -/
structure OpenGroup where
  before : List Node
  delimiter : Delimiter

/-- Nests lexemes into trees; `done` holds the trees of the innermost group, the last one first. -/
def nestFrom (done : List Node) (outer : List OpenGroup) : List Lexeme → Option (List Node)
  | [] => if outer.isEmpty then some done.reverse else none
  | .token token :: rest => nestFrom (.leaf token :: done) outer rest
  | .opening delimiter :: rest => nestFrom [] (⟨done, delimiter⟩ :: outer) rest
  | .closing delimiter :: rest =>
    match outer with
    | ⟨before, opened⟩ :: outer =>
      if opened = delimiter then nestFrom (.group opened done.reverse :: before) outer rest
      else none
    | [] => none

/-- A text without a byte order mark at its front. -/
def dropByteOrderMark : List Char → List Char
  | '\uFEFF' :: rest => rest
  | text => text

def lex? (text : String) : Option (List Node) :=
  let chars := dropByteOrderMark text.toList
  (lexemesWithin chars.length chars).bind (nestFrom [] [])

end EntityTables.Syntax
