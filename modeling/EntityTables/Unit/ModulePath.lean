import EntityTables.Text.QualifiedName
import EntityTables.Text.CodeRange

/-!
# Modules of files

The module that a file below a source root declares: its directories and its name. A file called
`mod`, and a file `lib` or `main` at the root, stands for its directory.
-/

namespace EntityTables

open EntityTables.Text

inductive PathPart
  | root
  | current
  | parent
  | name (text : String)
deriving DecidableEq, Repr

namespace PathPart

def text : PathPart → String
  | root => "/"
  | current => "."
  | parent => ".."
  | name text => text

/-- The part that a text between slashes is; empty texts and dots are none. -/
def ofText? (text : List Char) : Option PathPart :=
  if text.isEmpty || text == ['.'] then none
  else if text == ['.', '.'] then some .parent
  else some (.name (String.ofList text))

end PathPart

/-- The parts of a file path. A dot counts only at the front of a relative path. -/
def pathParts (path : String) : List PathPart :=
  let chars := path.toList
  let texts := splitAtChar '/' chars
  let parts := texts.filterMap PathPart.ofText?
  if chars.head? == some '/' then .root :: parts
  else if texts.head? == some ['.'] then .current :: parts
  else parts

def afterFront? {α : Type} [DecidableEq α] : List α → List α → Option (List α)
  | [], list => some list
  | a :: front, b :: list => if a = b then afterFront? front list else none
  | _ :: _, [] => none

/-- A file name without its last extension. A dot at the front starts no extension. -/
def withoutExtension (name : String) : String :=
  let reversed := name.toList.reverse
  match reversed.dropWhile (· != '.') with
  | [] => name
  | [_] => name
  | ['.', '.'] => ".."
  | _ :: stem => String.ofList stem.reverse

def moduleNames (parts : List PathPart) : List String :=
  match parts.getLast? with
  | none => []
  | some last =>
    let front := parts.dropLast.map PathPart.text
    let name := match last with
      | .name text => withoutExtension text
      | part => part.text
    let standsForDirectory :=
      name == "mod" || (front.isEmpty && (name == "lib" || name == "main"))
    if standsForDirectory then front else front ++ [name]

/-- The module of a file below a source root; a file elsewhere counts with its whole path. -/
def moduleOfFile (root file : String) : String :=
  let parts := pathParts file
  let below := (afterFront? (pathParts root) parts).getD parts
  joinNames ("crate" :: moduleNames below)

end EntityTables
