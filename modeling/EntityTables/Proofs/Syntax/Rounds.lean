import EntityTables.Proofs.Syntax.Running
import EntityTables.Syntax.Grammar

/-!
# Rounds of repetitions

A repetition followed round by round on an input that is known: each round reads something and
leaves the input of the next, until one reads nothing.
-/

namespace EntityTables.Syntax

open EntityTables.Syntax.Parser

/-- The rounds of a step from an input: what they read together, and what they leave. -/
inductive Rounds (step : Parser (Option (List Node))) : Input → List Node → Input → Prop
  | stop {input rest : Input} (hstep : step.run input = .ok (none, rest)) :
      Rounds step input [] rest
  | round {input middle rest : Input} {nodes more : List Node}
      (hstep : step.run input = .ok (some nodes, middle)) (hless : middle.length < input.length)
      (hmore : Rounds step middle more rest) : Rounds step input (nodes ++ more) rest

section Repeated

variable {step : Parser (Option (List Node))} {input middle rest : Input}
  {nodes more read : List Node}

theorem Rounds.run_repeatWithin (hrounds : Rounds step input read rest) {steps : Nat}
    (hsteps : input.length < steps) (done : List Node) :
    (repeatWithin steps step done).run input = .ok (done.reverse ++ read, rest) := by
  induction hrounds generalizing steps done with
  | @stop input rest hstep =>
      obtain ⟨fewer, rfl⟩ : ∃ fewer, steps = fewer + 1 := ⟨steps - 1, by omega⟩
      rw [List.append_nil, repeatWithin]
      exact run_bind_eq_ok.mpr ⟨none, rest, hstep, rfl⟩
  | @round input middle rest nodes more hstep hless hmore ih =>
      obtain ⟨fewer, rfl⟩ : ∃ fewer, steps = fewer + 1 := ⟨steps - 1, by omega⟩
      have hfewer : middle.length < fewer := by omega
      rw [repeatWithin]
      refine run_bind_eq_ok.mpr ⟨some nodes, middle, hstep, ?_⟩
      dsimp only
      rw [ih hfewer, List.reverse_append, List.reverse_reverse, List.append_assoc]

theorem run_repeated (hrounds : Rounds step input read rest) :
    (repeated step).run input = .ok (read, rest) :=
  run_bind_eq_ok.mpr ⟨input, input, rfl, hrounds.run_repeatWithin (Nat.lt_succ_self _) []⟩

end Repeated

/-! ### Parts that a test lets in -/

/-- A step that reads a part if the input passes a test. -/
def partStep (test : Input → Bool) (part : Parser (List Node)) : Parser (Option (List Node)) := do
  if (← peek test) then return some (← part) else return none

section Many

variable {test : Input → Bool} {part : Parser (List Node)} {input middle rest : Input}
  {nodes more : List Node}

theorem Rounds.done (htest : test input = false) : Rounds (partStep test part) input [] input := by
  refine .stop (run_bind_eq_ok.mpr ⟨_, _, run_peek test, ?_⟩)
  rw [htest]
  rfl

theorem Rounds.again (htest : test input = true) (hpart : part.run input = .ok (nodes, middle))
    (hless : middle.length < input.length) (hmore : Rounds (partStep test part) middle more rest) :
    Rounds (partStep test part) input (nodes ++ more) rest := by
  refine .round (run_bind_eq_ok.mpr ⟨_, _, run_peek test, ?_⟩) hless hmore
  rw [htest]
  exact run_bind_eq_ok.mpr ⟨nodes, middle, hpart, rfl⟩

theorem run_many (hrounds : Rounds (partStep test part) input nodes rest) :
    (many test part).run input = .ok (nodes, rest) := run_repeated hrounds

end Many

/-! ### Parts with a separator -/

/-- A step that reads a part, and the separator after it unless the parts end there. -/
def separatedStep (stop : Input → Bool) (separator : Parser Node) (part : Parser (List Node)) :
    Parser (Option (List Node)) := do
  if (← peek stop) then return none
  let nodes ← part
  if (← peek stop) then return some nodes
  return some (nodes ++ [← separator])

section Separated

variable {stop : Input → Bool} {separator : Parser Node} {part : Parser (List Node)}
  {input middle after rest : Input} {nodes more : List Node} {sign : Node}

theorem Rounds.ended (hstop : stop input = true) :
    Rounds (separatedStep stop separator part) input [] input := by
  refine .stop (run_bind_eq_ok.mpr ⟨_, _, run_peek stop, ?_⟩)
  rw [hstop]
  rfl

theorem Rounds.last (hstart : stop input = false) (hpart : part.run input = .ok (nodes, rest))
    (hstop : stop rest = true) (hless : rest.length < input.length) :
    Rounds (separatedStep stop separator part) input nodes rest := by
  rw [← List.append_nil nodes]
  refine .round (run_bind_eq_ok.mpr ⟨_, _, run_peek stop, ?_⟩) hless (.ended hstop)
  rw [hstart]
  refine run_bind_eq_ok.mpr ⟨nodes, rest, hpart, run_bind_eq_ok.mpr ⟨_, _, run_peek stop, ?_⟩⟩
  rw [hstop]
  rfl

theorem Rounds.next (hstart : stop input = false) (hpart : part.run input = .ok (nodes, middle))
    (hgo : stop middle = false) (hsign : separator.run middle = .ok (sign, after))
    (hless : after.length < input.length)
    (hmore : Rounds (separatedStep stop separator part) after more rest) :
    Rounds (separatedStep stop separator part) input (nodes ++ [sign] ++ more) rest := by
  refine .round (run_bind_eq_ok.mpr ⟨_, _, run_peek stop, ?_⟩) hless hmore
  rw [hstart]
  refine run_bind_eq_ok.mpr ⟨nodes, middle, hpart, run_bind_eq_ok.mpr ⟨_, _, run_peek stop, ?_⟩⟩
  rw [hgo]
  exact run_bind_eq_ok.mpr ⟨sign, after, hsign, rfl⟩

theorem run_separated (hrounds : Rounds (separatedStep stop separator part) input nodes rest) :
    (separated stop separator part).run input = .ok (nodes, rest) := run_repeated hrounds

end Separated

/-! ### Operands that grow -/

/-- The rounds in which a tree grows from an input, up to the last tree and what is left. -/
inductive Growth (step : Node → Parser (Option Node)) : Node → Input → Node → Input → Prop
  | stop {node : Node} {input rest : Input} (hstep : (step node).run input = .ok (none, rest)) :
      Growth step node input node rest
  | round {node larger last : Node} {input middle rest : Input}
      (hstep : (step node).run input = .ok (some larger, middle))
      (hless : middle.length < input.length) (hmore : Growth step larger middle last rest) :
      Growth step node input last rest

section Grow

variable {step : Node → Parser (Option Node)} {node last : Node} {input rest : Input}

theorem Growth.run_growWithin (hgrowth : Growth step node input last rest) {steps : Nat}
    (hsteps : input.length < steps) : (growWithin steps step node).run input = .ok (last, rest) := by
  induction hgrowth generalizing steps with
  | @stop node input rest hstep =>
      obtain ⟨fewer, rfl⟩ : ∃ fewer, steps = fewer + 1 := ⟨steps - 1, by omega⟩
      rw [growWithin]
      exact run_bind_eq_ok.mpr ⟨none, rest, hstep, rfl⟩
  | @round node larger last input middle rest hstep hless hmore ih =>
      obtain ⟨fewer, rfl⟩ : ∃ fewer, steps = fewer + 1 := ⟨steps - 1, by omega⟩
      have hfewer : middle.length < fewer := by omega
      rw [growWithin]
      exact run_bind_eq_ok.mpr ⟨some larger, middle, hstep, ih hfewer⟩

theorem run_grow (hgrowth : Growth step node input last rest) :
    (grow step node).run input = .ok (last, rest) :=
  run_bind_eq_ok.mpr ⟨input, input, rfl, hgrowth.run_growWithin (Nat.lt_succ_self _)⟩

end Grow

end EntityTables.Syntax
