/-!
# Tokens

The smallest parts of a source text. A punctuation token is a single character when the lexer
made it and a whole operator when the grammar did; `joint` tells that no blank follows it in print.
-/

namespace EntityTables.Syntax

inductive Delimiter
  | paren
  | bracket
  | brace
deriving DecidableEq, Repr, Inhabited

def Delimiter.opening : Delimiter → String
  | .paren => "("
  | .bracket => "["
  | .brace => "\x7b"

def Delimiter.closing : Delimiter → String
  | .paren => ")"
  | .bracket => "]"
  | .brace => "\x7d"

inductive Token
  | ident (name : String)
  | lifetime (name : String)
  | literal (text : String)
  | punct (text : String) (joint : Bool)
deriving DecidableEq, Repr, Inhabited

def Token.text : Token → String
  | .ident name => name
  | .lifetime name => name
  | .literal text => text
  | .punct text _ => text

/-- Whether the next token follows without a blank. -/
def Token.isJoint : Token → Bool
  | .punct _ joint => joint
  | _ => false

end EntityTables.Syntax
