import EntityTables.Call.Registry
import EntityTables.Call.Redirect
import EntityTables.Syntax.Printer

/-!
# Redirecting all calls

Redirects the calls of a file or an expression from the inside out. A call of a virtual function
without an implementation, and one that may mean several, is left as it is and counted.
-/

namespace EntityTables.Call

open EntityTables.Syntax

structure Report where
  redirected : Nat
  unpaired : Nat
  ambiguous : Nat
deriving DecidableEq, Repr, Inhabited

namespace Report

def untouched (report : Report) : Nat := report.unpaired + report.ambiguous

def none : Report := ⟨0, 0, 0⟩

end Report

/-- Where a call stands: its module, and the container of `self` if it is known. -/
structure Scope where
  module : String
  selfContainer : Option String
deriving Inhabited

/-- The scope inside an item: a module has a name, an implementation for a plain path gives `self`
a container, and a trait takes it away. -/
def Scope.enter (scope : Scope) (kind : Kind) (parts : List Node) : Scope :=
  match kind, parts with
  | .modItem, [_, _, _, _, .leaf (.ident name), _] =>
    { scope with module := Text.nameWithin scope.module name }
  | .implItem, [_, _, _, _, _, selfType, _, _] =>
    { scope with selfContainer := selfType.plainTypePath?.map fun path =>
        Text.nameWithin scope.module path.pathText }
  | .traitItem, _ => { scope with selfContainer := none }
  | _, _ => scope

/-- What is called by an expression. -/
inductive Target
  | function (path : Node)
  | method (receiver : Node) (name : String) (named : Bool)

/-- The target of an expression, if it is a call. -/
def target? (expr : Node) : Option Target :=
  (CallExpr.ofNode? expr).map fun call =>
    match call.callee with
    | .function _ path => .function path
    | .method receiver _ name _ => .method receiver name (call.arguments.any (·.isNamed))

/-- Whether an expression is `self`. -/
def isSelf : Node → Bool
  | .phrase .pathExpr [_, path] => path.soleName? == some "self"
  | _ => false

def Registry.resolve (registry : Registry) (scope : Scope) : Target → Resolution
  | .function path => registry.resolveFunction path scope.module
  | .method receiver name named =>
    registry.resolveMethod name (if isSelf receiver then scope.selfContainer else none) named

/-- A step of the pass: it counts calls and may fail. -/
abbrev Passing (α : Type) := StateT Report (Except CallError) α

def redirectHere (registry : Registry) (scope : Scope) (expr : Node) : Passing Node :=
  match CallExpr.ofNode? expr, target? expr with
  | some call, some target =>
    match registry.resolve scope target with
    | .notVirtual => return expr
    | .unpaired _ => do
      modify fun report => { report with unpaired := report.unpaired + 1 }
      return expr
    | .ambiguous _ | .unverified _ => do
      modify fun report => { report with ambiguous := report.ambiguous + 1 }
      return expr
    | .pair pair => do
      let redirected ← redirectCall call pair scope.module
      modify fun report => { report with redirected := report.redirected + 1 }
      return redirected.expr
  | _, _ => return expr

mutual

/-- Redirects the calls in a tree. -/
def redirectTree (registry : Registry) (scope : Scope) : Node → Passing Node
  | .leaf token => return .leaf token
  | .group delimiter body => return .group delimiter (← redirectTrees registry scope body)
  | .phrase kind parts => do
    let parts ← redirectTrees registry (scope.enter kind parts) parts
    redirectHere registry scope (.phrase kind parts)

def redirectTrees (registry : Registry) (scope : Scope) : List Node → Passing (List Node)
  | [] => return []
  | node :: rest => do
    let node ← redirectTree registry scope node
    return node :: (← redirectTrees registry scope rest)

end

def redirectIn (registry : Registry) (module : String) (tree : Node) :
    Except CallError (Node × Report) :=
  (redirectTree registry ⟨module, none⟩ tree).run Report.none

/-- Parses a file, redirects its calls and prints it. -/
def redirectText (registry : Registry) (module path text : String) :
    Except Error (String × Report) :=
  match parseFile? text with
  | none => .error (.unreadable path)
  | some file =>
    match redirectIn registry module file with
    | .ok (file, report) => .ok (file.print, report)
    | .error error => .error (.call error)

end EntityTables.Call
