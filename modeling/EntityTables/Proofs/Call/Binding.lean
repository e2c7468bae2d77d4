import EntityTables.Call.Redirect
import Mathlib.Data.List.Nodup

/-!
# Which parameters the arguments take

A positional argument takes the parameter at its own place and a named one the parameter that it
names. Arguments that can be bound take different parameters, each of them one that exists.
-/

namespace EntityTables.Call

open EntityTables.Syntax

/-- The expression that an argument gives. -/
def Argument.value : Argument → Node
  | .positional value => value
  | .named _ value => value

/-- The parameter that an argument at a place of a call takes. -/
def Argument.target? (function : VirtualFunction) (place : Nat) : Argument → Option Nat
  | .positional _ => some place
  | .named name _ => function.position? name

/-- The parameters that arguments take, in the order of the arguments, the first at a place. -/
def targetsFrom (function : VirtualFunction) (place : Nat) (arguments : List Argument) : List Nat :=
  (arguments.zipIdx place).filterMap fun (argument, place) => argument.target? function place

/-- The parameters that the arguments of a call take, in the order of the arguments. -/
def targets (function : VirtualFunction) (arguments : List Argument) : List Nat :=
  targetsFrom function 0 arguments

variable {function : VirtualFunction}

theorem targetsFrom_cons {place position : Nat} {argument : Argument} {rest : List Argument}
    (htarget : argument.target? function place = some position) :
    targetsFrom function place (argument :: rest) =
      position :: targetsFrom function (place + 1) rest := by
  simp only [targetsFrom, List.zipIdx_cons, List.filterMap_cons, htarget]

theorem position?_lt {name : String} {position : Nat}
    (hposition : function.position? name = some position) :
    position < function.parameters.length :=
  (List.findIdx?_eq_some_iff_findIdx_eq.mp hposition).1

/-- What binding has established when some arguments are bound: their parameters exist and differ,
and without names they are the first ones. -/
structure BoundSoFar (function : VirtualFunction) (place : Nat) (named : Bool)
    (bound : List (Nat × Node)) : Prop where
  inRange : ∀ position ∈ bound.map (·.1), position < function.parameters.length
  nodup : (bound.map (·.1)).Nodup
  positional : named = false → bound.map (·.1) = List.range place

namespace BoundSoFar

variable {place : Nat} {named : Bool} {bound : List (Nat × Node)}

theorem start : BoundSoFar function 0 false [] where
  inRange := by simp
  nodup := by simp
  positional _ := rfl

theorem snoc_positional (hbound : BoundSoFar function place false bound)
    (hplace : place < function.parameters.length) (value : Node) :
    BoundSoFar function (place + 1) false (bound ++ [(place, value)]) := by
  have hpositions := hbound.positional rfl
  have hall : (bound ++ [(place, value)]).map (·.1) = List.range (place + 1) := by
    rw [List.map_append, hpositions, List.range_succ]
    rfl
  refine ⟨fun position hmem => ?_, ?_, fun _ => hall⟩
  · rw [hall, List.mem_range] at hmem
    omega
  · rw [hall]
    exact List.nodup_range

theorem snoc_named {position : Nat} (hbound : BoundSoFar function place named bound)
    (hposition : position < function.parameters.length)
    (hfresh : position ∉ bound.map (·.1)) (value : Node) :
    BoundSoFar function (place + 1) true (bound ++ [(position, value)]) := by
  refine ⟨?_, ?_, nofun⟩
  · intro other hmem
    rw [List.map_append, List.mem_append] at hmem
    rcases hmem with hmem | hmem
    · exact hbound.inRange other hmem
    · rw [List.mem_singleton.mp hmem]
      exact hposition
  · rw [List.map_append]
    refine List.Nodup.append hbound.nodup (List.nodup_singleton _) ?_
    simpa using hfresh

end BoundSoFar

/-- One step of binding: the argument takes its target, which was free, and the rest continue. -/
theorem bindFrom_cons_ok {count place : Nat} {named : Bool} {bound result : List (Nat × Node)}
    {argument : Argument} {rest : List Argument} (hbound : BoundSoFar function place named bound)
    (hok : bindFrom function count place named bound (argument :: rest) = .ok result) :
    ∃ position after, argument.target? function place = some position ∧
      BoundSoFar function (place + 1) after (bound ++ [(position, argument.value)]) ∧
      bindFrom function count (place + 1) after (bound ++ [(position, argument.value)]) rest =
        .ok result := by
  cases argument with
  | positional value =>
      cases named with
      | true => simp [bindFrom] at hok
      | false =>
          by_cases hplace : place < function.parameters.length
          · simp only [bindFrom, Bool.false_eq_true, if_false, ge_iff_le,
              Nat.not_le.mpr hplace] at hok
            exact ⟨place, false, rfl, hbound.snoc_positional hplace value, hok⟩
          · simp [bindFrom, Nat.not_lt.mp hplace] at hok
  | named name value =>
      cases hposition : function.position? name with
      | none => simp [bindFrom, hposition] at hok
      | some position =>
          by_cases htaken : bound.any (·.1 == position)
          · simp [bindFrom, hposition, htaken] at hok
          · simp only [bindFrom, hposition, htaken, Bool.false_eq_true, if_false] at hok
            have hfresh : position ∉ bound.map (·.1) := by simpa using htaken
            exact ⟨position, true, hposition,
              hbound.snoc_named (position?_lt hposition) hfresh value, hok⟩

/-- Binding appends one entry for each argument, and keeps what it has established. -/
theorem bindFrom_ok {count place : Nat} {named : Bool} {bound result : List (Nat × Node)}
    {arguments : List Argument} (hbound : BoundSoFar function place named bound)
    (hok : bindFrom function count place named bound arguments = .ok result) :
    (∃ place named, BoundSoFar function place named result) ∧
      (targetsFrom function place arguments).length = arguments.length ∧
      result = bound ++ (targetsFrom function place arguments).zip (arguments.map (·.value)) := by
  induction arguments generalizing place named bound with
  | nil =>
      simp only [bindFrom, Except.ok.injEq] at hok
      subst hok
      exact ⟨⟨place, named, hbound⟩, rfl, by simp [targetsFrom]⟩
  | cons argument rest ih =>
      obtain ⟨position, after, htarget, hnext, hrest⟩ := bindFrom_cons_ok hbound hok
      obtain ⟨hall, hlength, hresult⟩ := ih hnext hrest
      rw [targetsFrom_cons htarget]
      refine ⟨hall, ?_, ?_⟩
      · rw [List.length_cons, List.length_cons, hlength]
      · rw [hresult, List.map_cons, List.zip_cons_cons, List.append_assoc]
        rfl

/-- Arguments that can be bound are bound to their targets, which differ. -/
theorem bindArguments_ok {arguments : List Argument} {bound : List (Nat × Node)}
    (hok : bindArguments function arguments = .ok bound) :
    bound.map (·.1) = targets function arguments ∧ bound.map (·.2) = arguments.map (·.value) ∧
      (targets function arguments).Nodup ∧
      ∀ position ∈ targets function arguments, position < function.parameters.length := by
  obtain ⟨⟨_, _, hall⟩, hlength, hresult⟩ := bindFrom_ok BoundSoFar.start hok
  rw [List.nil_append] at hresult
  have hpositions : bound.map (·.1) = targets function arguments := by
    rw [hresult, List.map_fst_zip (by simp [hlength]), targets]
  have hvalues : bound.map (·.2) = arguments.map (·.value) := by
    rw [hresult, List.map_snd_zip (by simp [hlength])]
  exact ⟨hpositions, hvalues, hpositions ▸ hall.nodup, hpositions ▸ hall.inRange⟩

end EntityTables.Call
