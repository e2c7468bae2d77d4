import EntityTables.Syntax.Node

/-!
# Keywords

The words that cannot name anything, and the questions a parser asks about the trees ahead of it.
-/

namespace EntityTables.Syntax

/-- The reserved words, the underscore among them. -/
def reservedWords : List String :=
  ["_", "abstract", "as", "async", "await", "become", "box", "break", "const", "continue", "crate",
    "do", "dyn", "else", "enum", "extern", "false", "final", "fn", "for", "if", "impl", "in", "let",
    "loop", "macro", "match", "mod", "move", "mut", "override", "priv", "pub", "ref", "return",
    "Self", "self", "static", "struct", "super", "trait", "true", "try", "type", "typeof", "unsafe",
    "unsized", "use", "virtual", "where", "while", "yield"]

def isName (word : String) : Bool := !reservedWords.contains word

/-- The trees that a parser has not read yet. -/
abbrev Input := List Node

namespace Input

def next (input : Input) : Input := input.tail

def skip (input : Input) (count : Nat) : Input := input.drop count

def startsWord (input : Input) (word : String) : Bool :=
  match input with
  | .leaf (.ident w) :: _ => w == word
  | _ => false

def startsOneOf (input : Input) (words : List String) : Bool := words.any input.startsWord

/-- Whether a word comes next, reserved or not. -/
def startsAnyWord : Input → Bool
  | .leaf (.ident _) :: _ => true
  | _ => false

def startsName : Input → Bool
  | .leaf (.ident w) :: _ => isName w
  | _ => false

def startsLifetime : Input → Bool
  | .leaf (.lifetime _) :: _ => true
  | _ => false

/-- Whether the characters of an operator come next; all but the last have to be joint. -/
def startsChars : Input → List Char → Bool
  | _, [] => true
  | .leaf (.punct text _) :: _, [c] => text == String.singleton c
  | .leaf (.punct text joint) :: rest, c :: chars =>
    text == String.singleton c && joint && startsChars rest chars
  | _, _ => false

/-- Whether an operator comes next, which may be the front of a longer one. -/
def startsPunct (input : Input) (operator : String) : Bool := input.startsChars operator.toList

def startsAnyPunct (input : Input) (operators : List String) : Bool :=
  operators.any input.startsPunct

def startsGroup : Input → Delimiter → Bool
  | .group d _ :: _, delimiter => d == delimiter
  | _, _ => false

def startsAnyGroup : Input → Bool
  | .group _ _ :: _ => true
  | _ => false

def startsLiteralToken : Input → Bool
  | .leaf (.literal _) :: _ => true
  | _ => false

def startsNumber : Input → Bool
  | .leaf (.literal text) :: _ => (text.toList.head?.map fun c => '0' ≤ c && c ≤ '9').getD false
  | _ => false

def startsString : Input → Bool
  | .leaf (.literal text) :: _ => (text.toList.head?.map fun c => c == '"' || c == 'r').getD false
  | _ => false

/-- Whether a literal comes next: a literal token, a truth value, or a negative number. -/
def startsLiteral (input : Input) : Bool :=
  input.startsLiteralToken || input.startsOneOf ["true", "false"] ||
    (input.startsPunct "-" && input.next.startsNumber)

/-- Whether a path may start here with a word that is a name or stands for a module or type. -/
def startsPathWord (input : Input) : Bool :=
  input.startsName || input.startsOneOf ["self", "Self", "super", "crate"]

/-- Whether a generic parameter list starts here rather than a qualified path. -/
def startsGenerics (input : Input) : Bool :=
  input.startsPunct "<" &&
    (let second := input.next
    let third := second.next
    second.startsPunct ">" || second.startsPunct "#" ||
      ((second.startsLifetime || second.startsName) &&
        (third.startsPunct ">" || third.startsPunct "," ||
          (third.startsPunct ":" && !third.startsPunct "::") || third.startsPunct "=")) ||
      second.startsWord "const")

end Input

end EntityTables.Syntax
