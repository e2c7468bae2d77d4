import EntityTables.Call.Pass
import EntityTables.Generated.Code
import EntityTables.Unit.ModulePath

/-!
# Workspaces

The files below a directory, and what a build does with them: it reads the files that declare tables,
writes the generated code, and writes files with their calls redirected. A directory is there as long
as a file is in it.
-/

namespace EntityTables

open EntityTables.Generated (Code)
open EntityTables.Syntax (parseFile?)

/-- The files below a directory, each under the names that lead to it. -/
structure Workspace where
  files : List (List String × String)

namespace Workspace

/-- The directory without files. -/
def empty : Workspace := ⟨[]⟩

def file? (workspace : Workspace) (names : List String) : Option String :=
  (workspace.files.find? (·.1 == names)).map (·.2)

def isDirectory (workspace : Workspace) (names : List String) : Bool :=
  names.isEmpty ||
    workspace.files.any fun (path, _) => names.isPrefixOf path && names.length < path.length

/-- The names that the rest of a path leads to from a directory. A part can only follow a directory,
and a path that leaves the workspace leads nowhere. -/
def follow? (workspace : Workspace) (names : List String) : List PathPart → Option (List String)
  | [] => some names
  | part :: rest =>
    if !workspace.isDirectory names then none
    else
      match part with
      | .root => none
      | .current => workspace.follow? names rest
      | .parent => if names.isEmpty then none else workspace.follow? names.dropLast rest
      | .name name => workspace.follow? (names ++ [name]) rest

def names? (workspace : Workspace) (path : String) : Option (List String) :=
  if path.isEmpty then none else workspace.follow? [] (pathParts path)

def read (workspace : Workspace) (path : String) : Except Error String :=
  match workspace.names? path with
  | none => .error (.file path .notFound)
  | some names =>
    match workspace.file? names with
    | some text => .ok text
    | none => .error (.file path (if workspace.isDirectory names then .isDirectory else .notFound))

def put (workspace : Workspace) (names : List String) (text : String) : Workspace :=
  ⟨(names, text) :: workspace.files.filter fun (path, _) => path != names⟩

/-- Writes a file into a directory that exists. A path that ends in a slash is that of a directory. -/
def write (workspace : Workspace) (path text : String) : Except Error Workspace :=
  match workspace.names? path with
  | none => .error (.file path .notFound)
  | some names =>
    if workspace.isDirectory names || path.toList.getLast? == some '/' then
      .error (.file path .isDirectory)
    else .ok (workspace.put names text)

def plainNames (path : String) : List String :=
  (pathParts path).filterMap fun part =>
    match part with
    | .name name => some name
    | _ => none

/-- Places a file, with the directories that lead to it. -/
def place (workspace : Workspace) (path text : String) : Workspace :=
  workspace.put (plainNames path) text

def addFile (workspace : Workspace) (root : String) (unit : SourceUnit) (path : String) :
    Except Error SourceUnit := do
  let text ← workspace.read path
  match parseFile? text with
  | none => throw (.unreadable path)
  | some file =>
    match unit.addFile (moduleOfFile root path) file with
    | (unit, none) => return unit
    | (_, some error) => throw error

def unitOf (workspace : Workspace) (root : String) (paths : List String) :
    Except Error SourceUnit :=
  paths.foldlM (workspace.addFile root) SourceUnit.empty

def writeCode (workspace : Workspace) (code : Code) (path : String) : Except Error Workspace :=
  workspace.write path code.render

def redirectFile (workspace : Workspace) (registry : Call.Registry) (root path out : String) :
    Except Error (Call.Report × Workspace) := do
  let text ← workspace.read path
  let (redirected, report) ← Call.redirectText registry (moduleOfFile root path) path text
  return (report, ← workspace.write out redirected)

end Workspace

end EntityTables
