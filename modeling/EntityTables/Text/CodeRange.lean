/-!
# Ranges of code points

Character tables are written as text, one word per range, and read once into arrays. `CodeRanges`
is a set of characters; `CaseRuns` and `CaseExpansions` are the two kinds of case mapping.
-/

namespace EntityTables.Text

/-- The value of a hexadecimal digit in upper case, zero for any other character. -/
def hexDigitValue (c : Char) : Nat :=
  if '0' ≤ c ∧ c ≤ '9' then c.toNat - '0'.toNat
  else if 'A' ≤ c ∧ c ≤ 'F' then c.toNat - 'A'.toNat + 10
  else if 'a' ≤ c ∧ c ≤ 'f' then c.toNat - 'a'.toNat + 10
  else 0

def hexValue (digits : List Char) : Nat :=
  digits.foldl (fun n c => 16 * n + hexDigitValue c) 0

/-- The parts of a text between the occurrences of a separator character. -/
def splitAtChar (sep : Char) : List Char → List (List Char)
  | [] => [[]]
  | c :: rest =>
    if c = sep then [] :: splitAtChar sep rest
    else match splitAtChar sep rest with
      | [] => [[c]]
      | part :: parts => (c :: part) :: parts

/-- The words of a text, which blanks and line ends separate. -/
def tableWords (text : String) : List (List Char) :=
  ((splitAtChar '\n' text.toList).flatMap (splitAtChar ' ')).filter (!·.isEmpty)

/-- A set of characters, as inclusive ranges of code points. -/
structure CodeRanges where
  ranges : Array (Nat × Nat)

namespace CodeRanges

private def parseRange (word : List Char) : Nat × Nat :=
  match splitAtChar '-' word with
  | [first, last] => (hexValue first, hexValue last)
  | [only] => (hexValue only, hexValue only)
  | _ => (0, 0)

/-- Reads words such as `41-5A` and `B5`. -/
def parse (text : String) : CodeRanges :=
  ⟨((tableWords text).map parseRange).toArray⟩

def contains (set : CodeRanges) (c : Char) : Bool :=
  set.ranges.any fun (first, last) => first ≤ c.toNat && c.toNat ≤ last

end CodeRanges

structure CaseRun where
  first : Nat
  last : Nat
  step : Nat
  shift : Int

structure CaseRuns where
  runs : Array CaseRun

namespace CaseRuns

private def decimalValue (digits : List Char) : Nat :=
  digits.foldl (fun n c => 10 * n + (c.toNat - '0'.toNat)) 0

private def parseShift : List Char → Int
  | '-' :: digits => - (decimalValue digits : Int)
  | '+' :: digits => decimalValue digits
  | _ => 0

private def parseRun (word : List Char) : CaseRun :=
  match splitAtChar ':' word with
  | [codes, shift] =>
    let (codes, step) := match splitAtChar '/' codes with
      | [codes, step] => (codes, decimalValue step)
      | _ => (codes, 1)
    match splitAtChar '-' codes with
    | [first, last] => ⟨hexValue first, hexValue last, step, parseShift shift⟩
    | _ => ⟨hexValue codes, hexValue codes, 1, parseShift shift⟩
  | _ => ⟨1, 0, 1, 0⟩

/-- Reads words such as `C0-D6:+32`, `100-12E/2:+1` and `178:-121`. -/
def parse (text : String) : CaseRuns :=
  ⟨((tableWords text).map parseRun).toArray⟩

/-- The image of a character, if a run moves it. -/
def find? (table : CaseRuns) (c : Char) : Option Char :=
  let code := c.toNat
  (table.runs.find? fun run =>
    run.first ≤ code && code ≤ run.last && (code - run.first) % run.step == 0).map
    fun run => Char.ofNat ((code : Int) + run.shift).toNat

end CaseRuns

structure CaseExpansions where
  entries : Array (Nat × List Char)

namespace CaseExpansions

private def parseEntry (word : List Char) : Nat × List Char :=
  match splitAtChar ':' word with
  | [code, image] => (hexValue code, (splitAtChar '.' image).map fun digits => Char.ofNat (hexValue digits))
  | _ => (0, [])

/-- Reads words such as `DF:53.53`. -/
def parse (text : String) : CaseExpansions :=
  ⟨((tableWords text).map parseEntry).toArray⟩

/-- The image of a character, if it has an entry. -/
def find? (table : CaseExpansions) (c : Char) : Option (List Char) :=
  (table.entries.find? (·.1 == c.toNat)).map (·.2)

end CaseExpansions

end EntityTables.Text
