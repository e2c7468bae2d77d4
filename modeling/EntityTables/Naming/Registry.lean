import EntityTables.Error
import EntityTables.Keyed
import EntityTables.Naming.Strategy
import EntityTables.Text.Quoted

/-!
# The registry of naming strategies

The strategies that options may select besides the built-in ones. A strategy is registered for one
side, either as a value that all users share or to be made anew for each.
-/

namespace EntityTables.Naming

open EntityTables.Text

inductive Ownership
  | shared
  | owned
deriving DecidableEq, Repr

structure Handle (σ : Type) where
  ownership : Ownership
  strategy : σ

def Handle.describe {σ : Type} (handle : Handle σ) : String :=
  match handle.ownership with
  | .shared => "StrategyHandle::Shared"
  | .owned => "StrategyHandle::Owned"

inductive Registered
  | database (handle : Handle DatabaseNaming)
  | coding (handle : Handle CodingNaming)

def Registered.side : Registered → NamingSide
  | .database _ => .database
  | .coding _ => .coding

structure Registry where
  strategies : Keyed String Registered

namespace Registry

/-- The registry without strategies of its own. -/
def empty : Registry := ⟨[]⟩

def register (registry : Registry) (name : String) (strategy : Registered) : Registry :=
  ⟨registry.strategies.insert name strategy⟩

def lowerSnakeSelector : String := "lower-snake-case"

def upperSnakeSelector : String := "upper-snake-case"

def pluralSelector : String := "default"

def find (registry : Registry) (selector : String) : Except ConfigError Registered :=
  match registry.strategies.find? selector with
  | some strategy => .ok strategy
  | none => .error (.strategyNotFound selector)

def database (registry : Registry) (selector : String) :
    Except ConfigError (Handle DatabaseNaming) :=
  if selector == lowerSnakeSelector then .ok ⟨.shared, .lowerSnake⟩
  else if selector == upperSnakeSelector then .ok ⟨.shared, .upperSnake⟩
  else do
    match ← registry.find selector with
    | .database handle => .ok handle
    | other => .error (.strategyWrongShape selector .database other.side)

def coding (registry : Registry) (selector : String) : Except ConfigError (Handle CodingNaming) :=
  if selector == pluralSelector then .ok ⟨.shared, .plural⟩
  else do
    match ← registry.find selector with
    | .coding handle => .ok handle
    | other => .error (.strategyWrongShape selector .coding other.side)

def describe (registry : Registry) : String :=
  if registry.strategies.isEmpty then "NamingStrategyRegistry \x7b strategies: [] \x7d"
  else
    "NamingStrategyRegistry \x7b strategies: [" ++
      ", ".intercalate (registry.strategies.keys.map quoteListing) ++ "] \x7d"

end Registry

end EntityTables.Naming
