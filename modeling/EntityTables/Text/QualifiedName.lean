/-!
# Qualified names

Names joined by `::`, as text. The text is cut at every pair of colons from the left; the module
of a name is what stands before the last pair.
-/

namespace EntityTables.Text

/-- The parts of a text between pairs of colons. -/
def splitColons : List Char → List (List Char)
  | ':' :: ':' :: rest => [] :: splitColons rest
  | c :: rest =>
    match splitColons rest with
    | [] => [[c]]
    | part :: parts => (c :: part) :: parts
  | [] => [[]]

def nameParts (name : String) : List String := (splitColons name.toList).map String.ofList

def joinNames (names : List String) : String := "::".intercalate names

def nameWithin (module name : String) : String := module ++ "::" ++ name

/-- What stands before and after the last pair of colons of a text that is given from its end. -/
def splitLastColons : List Char → List Char → Option (List Char × List Char)
  | after, ':' :: ':' :: rest => some (rest.reverse, after)
  | after, c :: rest => splitLastColons (c :: after) rest
  | _, [] => none

/-- The module and the last part of a qualified name, if it has a pair of colons. -/
def splitLast? (name : String) : Option (String × String) :=
  (splitLastColons [] name.toList.reverse).map fun (module, last) =>
    (String.ofList module, String.ofList last)

def endsInParts (name : String) (parts : List String) : Bool := parts.isSuffixOf (nameParts name)

end EntityTables.Text
