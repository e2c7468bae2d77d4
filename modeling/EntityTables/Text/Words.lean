import EntityTables.Text.LetterCase

/-!
# Words of a name

A name is cut into words at separators and at changes of case. Database names are the words in
lower or upper case, joined by underscores; table types and sequences are plurals.
-/

namespace EntityTables.Text

def isSeparator (c : Char) : Bool := c == '_' || c == '-' || isSpace c

def startsLower : List Char → Bool
  | [] => false
  | c :: _ => isLower c

/-- Whether a new word starts at `c`, standing in front of `rest`; `before` is the character before
it in the same word, if any. -/
def startsWord (before : Option Char) (c : Char) (rest : List Char) : Bool :=
  match before with
  | none => true
  | some b => isUpper c && (isLower b || (startsLower rest && (isUpper b || isDigit b)))

/-- Cuts a text that continues a word whose last character is `before`: the end of that word, then
the words after it. -/
def wordsAfter (before : Option Char) : List Char → List Char × List (List Char)
  | [] => ([], [])
  | c :: rest =>
    if isSeparator c then ([], (wordsAfter none rest).2)
    else
      let (word, words) := wordsAfter (some c) rest
      if startsWord before c rest then ([], (c :: word) :: words) else (c :: word, words)

/-- The words of a text, in order. -/
def wordsOf (text : List Char) : List (List Char) := (wordsAfter none text).2

/-- The words of a name, in order. -/
def splitWords (name : String) : List String := (wordsOf name.toList).map String.ofList

/-- Words joined by underscores, each passed through `convert`. -/
def joinWords (convert : List Char → List Char) (words : List (List Char)) : List Char :=
  ['_'].intercalate (words.map convert)

/-- The name in lower case with underscores: `IOUtils` is `io_utils`. -/
def lowerSnake (name : String) : String :=
  String.ofList (joinWords lowercase (wordsOf name.toList))

/-- The name in upper case with underscores: `PwdUtils` is `PWD_UTILS`. -/
def upperSnake (name : String) : String :=
  String.ofList (joinWords uppercase (wordsOf name.toList))

def endsInAny (text : List Char) (endings : List String) : Bool :=
  endings.any fun ending => ending.toList.isSuffixOf text

/-- The plural of a name: `es` after a hissing sound, `ies` for a `y` after a consonant or `u`,
otherwise `s`. -/
def pluralize (name : String) : String :=
  let lower := lowercase name.toList
  if endsInAny lower ["s", "sh", "ch", "x"] then name ++ "es"
  else if endsInAny lower ["y"] && !endsInAny lower ["ay", "ey", "oy"] then
    String.ofList name.toList.dropLast ++ "ies"
  else name ++ "s"

end EntityTables.Text
