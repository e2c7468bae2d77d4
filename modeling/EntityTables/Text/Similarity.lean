/-!
# Similarity of names

The Jaro–Winkler similarity of two names, from 0 to 1: how many characters they share at nearby
places, with an addition for a common beginning. It finds the known name that an unknown one was
probably meant to be.
-/

namespace EntityTables.Text

/-- The characters of a name at which a match was found, and those at which none was. -/
abbrev Marked := List (Char × Bool)

/-- Marks the first free occurrence of a character at a place from `first` up to `last`. -/
def markMatch (c : Char) (first last : Nat) : Nat → Marked → Option Marked
  | _, [] => none
  | place, (d, taken) :: rest =>
    if place ≥ last then none
    else if first ≤ place && c == d && !taken then some ((d, true) :: rest)
    else (markMatch c first last (place + 1) rest).map ((d, taken) :: ·)

/-- Marks the matches of one name in the other; gives the matched characters of the first name and
the second name with its marks. -/
def markMatches (range : Nat) : Nat → List Char → Marked → List Char × Marked
  | _, [], other => ([], other)
  | place, c :: rest, other =>
    match markMatch c (place - range) (place + range + 1) 0 other with
    | some other =>
      let (matched, other) := markMatches range (place + 1) rest other
      (c :: matched, other)
    | none => markMatches range (place + 1) rest other

def countDifferences (a b : List Char) : Nat := ((a.zip b).filter fun (c, d) => c != d).length

def jaro (a b : List Char) : Float :=
  if a.isEmpty && b.isEmpty then 1.0
  else
    let range := max a.length b.length / 2 - 1
    let (matched, marked) := markMatches range 0 a (b.map fun c => (c, false))
    if matched.isEmpty then 0.0
    else
      let others := (marked.filter (·.2)).map (·.1)
      let transposed := countDifferences matched others / 2
      let count := matched.length.toFloat
      (count / a.length.toFloat + count / b.length.toFloat +
        (matched.length - transposed).toFloat / count) / 3.0

/-- The length of the common beginning of two texts, up to four characters. -/
def commonFront (a b : List Char) : Nat :=
  (((a.take 4).zip b).takeWhile fun (c, d) => c == d).length

def similarity (a b : String) : Float :=
  let whole := jaro a.toList b.toList
  if whole > 0.7 then
    whole + 0.1 * (commonFront a.toList b.toList).toFloat * (1.0 - whole)
  else whole

/-- Of the names that are more than 0.8 similar to a name, the first of the most similar ones. -/
def mostSimilar? (name : String) (known : List String) : Option String :=
  let best := known.foldl (fun (best : Option (String × Float)) candidate =>
    let value := similarity name candidate
    match best with
    | none => if value > 0.8 then some (candidate, value) else none
    | some (_, highest) => if value > highest then some (candidate, value) else best) none
  best.map (·.1)

end EntityTables.Text
