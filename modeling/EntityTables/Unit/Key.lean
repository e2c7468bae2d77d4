import EntityTables.Text.QualifiedName
import EntityTables.Syntax.Grammar

/-!
# Keys of declarations

The full path of a declaration, from the root of the crate.
-/

namespace EntityTables

open EntityTables.Text

structure Key where
  text : String
deriving DecidableEq, Repr, Inhabited

namespace Key

def within (module name : String) : Key := ⟨nameWithin module name⟩

def module (key : Key) : String := ((splitLast? key.text).map (·.1)).getD ""

def name (key : Key) : String := ((splitLast? key.text).map (·.2)).getD key.text

def endsIn (key : Key) (names : List String) : Bool := endsInParts key.text names

/-- The key as a path in generated code, if it is one. -/
def path? (key : Key) : Option Syntax.Node := Syntax.parsePath? key.text

end Key

end EntityTables
