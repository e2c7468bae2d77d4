import EntityTables.Text.CharClass

/-!
# Quoted text

The written form of a text between double quotes. Quotes, backslashes and control characters are
escaped; printable characters stand as they are. Source literals and listings differ only in how
they write a null character and a mark that would join the quote before it.
-/

namespace EntityTables.Text

def hexDigit (n : Nat) : Char :=
  if n < 10 then Char.ofNat ('0'.toNat + n) else Char.ofNat ('a'.toNat + (n - 10))

/-- The hexadecimal digits of a number, the last one first. -/
def hexDigitsReversed (n : Nat) : List Char :=
  if n < 16 then [hexDigit n] else hexDigit (n % 16) :: hexDigitsReversed (n / 16)
termination_by n

/-- The hexadecimal digits of a number, without leading zeros. -/
def hexText (n : Nat) : List Char := (hexDigitsReversed n).reverse

def unicodeEscape (c : Char) : List Char :=
  ['\\', 'u', '\x7b'] ++ hexText c.toNat ++ ['\x7d']

/-- A character inside quotes; `escapeMarks` tells whether a joining mark is escaped. -/
def quoteChar (escapeMarks : Bool) (c : Char) : List Char :=
  if c == '"' then ['\\', '"']
  else if c == '\\' then ['\\', '\\']
  else if c == '\n' then ['\\', 'n']
  else if c == '\r' then ['\\', 'r']
  else if c == '\t' then ['\\', 't']
  else if c == '\x00' then ['\\', '0']
  else if (escapeMarks && extendsCluster c) || !isPrintable c then unicodeEscape c
  else [c]

/-- Whether an octal digit comes next, which would read as part of `\0`. -/
def startsOctal : List Char → Bool
  | [] => false
  | c :: _ => '0' ≤ c && c ≤ '7'

def quoteLiteralChars : List Char → List Char
  | [] => []
  | c :: rest =>
    (if c == '\x00' && startsOctal rest then ['\\', 'x', '0', '0'] else quoteChar true c)
      ++ quoteLiteralChars rest

def quoteLiteral (text : String) : String :=
  String.ofList ('"' :: quoteLiteralChars text.toList ++ ['"'])

/-- The characters of a text as a listing shows them: a joining mark is escaped only in front. -/
def quoteListingChars : List Char → List Char
  | [] => []
  | c :: rest => quoteChar true c ++ rest.flatMap (quoteChar false)

def quoteListing (text : String) : String :=
  String.ofList ('"' :: quoteListingChars text.toList ++ ['"'])

end EntityTables.Text
