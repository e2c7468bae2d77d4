import EntityTables.Proofs.Call.Evaluation
import EntityTables.Proofs.Call.Flags

/-!
# What an implementation receives

An implementation has one slot for each parameter. The expressions for the slots evaluate the
arguments that were bound, whether those stay where they are or were bound to locals in front of the
call, and give every slot what was bound to its parameter.
-/

namespace EntityTables.Call

open EntityTables.Syntax

/-- A pair whose implementation belongs to its virtual function. -/
theorem derive?_eq_some {virtual : VirtualFunction} {pair : Pair}
    (hpair : Pair.derive? virtual = some pair) :
    pair.virtual = virtual ∧ pair.implementation.parameters = virtual.parameters.map .of ∧
      pair.implementation.encoding = ⟨virtual.parameters.length⟩ ∧
      pair.implementation.flags = pair.implementation.encoding.flagNames := by
  unfold Pair.derive? at hpair
  cases hname : implementationName? virtual.name with
  | none => simp [hname] at hpair
  | some name =>
      simp only [hname, Option.map_some, Option.some.injEq] at hpair
      subst hpair
      exact ⟨rfl, rfl, rfl, rfl⟩

theorem name_of_derive? {virtual : VirtualFunction} {pair : Pair}
    (hpair : Pair.derive? virtual = some pair) :
    pair.implementation.name = implementationPrefix ++ pair.virtual.name := by
  obtain ⟨name, hname, rfl⟩ := Option.map_eq_some_iff.mp hpair
  unfold implementationName? at hname
  split at hname
  · cases hname
  · exact (Option.some.inj hname).symm

/-! ### Slots -/

section Slots

variable {α : Type} {bound : List (Nat × α)} {position : Nat}

theorem slotOf?_cons_self (value : α) :
    slotOf? ((position, value) :: bound) position = some value := by
  simp [slotOf?]

theorem slotOf?_cons_of_ne {other : Nat} {value : α} (hne : other ≠ position) :
    slotOf? ((other, value) :: bound) position = slotOf? bound position := by
  have hfalse : (other == position) = false := by simpa using hne
  simp [slotOf?, hfalse]

theorem slotOf?_eq_none (hfree : position ∉ bound.map (·.1)) : slotOf? bound position = none := by
  have hnone : bound.find? (·.1 == position) = none := by
    rw [List.find?_eq_none]
    intro entry hmem hentry
    exact hfree (List.mem_map.mpr ⟨entry, hmem, by simpa using hentry⟩)
  rw [slotOf?, hnone]
  rfl

/-- Reading by name what was bound by position. -/
theorem lookup_zip_map {name : Nat → String} {positions : List Nat} {values : List α}
    (hname : ∀ other ∈ positions, name other = name position → other = position) :
    ((positions.map name).zip values).lookup (name position) =
      slotOf? (positions.zip values) position := by
  induction positions generalizing values with
  | nil => rfl
  | cons other rest ih =>
      cases values with
      | nil => rfl
      | cons value values =>
          simp only [List.map_cons, List.zip_cons_cons]
          by_cases hsame : other = position
          · subst hsame
            rw [slotOf?_cons_self, List.lookup_cons_self]
          · have hother : (name position == name other) = false := by
              refine beq_false_of_ne fun heq => hsame ?_
              exact hname other (by simp) heq.symm
            rw [slotOf?_cons_of_ne hsame, List.lookup_cons, hother]
            exact ih fun other hmem => hname other (List.mem_cons_of_mem _ hmem)

theorem slotOf?_zip_isSome {positions : List Nat} {values : List α}
    (hlength : values.length = positions.length) (hmem : position ∈ positions) :
    ∃ value, slotOf? (positions.zip values) position = some value := by
  induction positions generalizing values with
  | nil => cases hmem
  | cons other rest ih =>
      cases values with
      | nil => simp at hlength
      | cons value values =>
          rw [List.zip_cons_cons]
          by_cases hsame : other = position
          · subst hsame
            exact ⟨value, slotOf?_cons_self value⟩
          · rw [slotOf?_cons_of_ne hsame]
            refine ih (by simpa using hlength) ?_
            exact (List.mem_cons.mp hmem).resolve_left fun h => hsame h.symm

theorem slotOf?_zip_eq_none {positions : List Nat} {values : List α}
    (hfree : position ∉ positions) : slotOf? (positions.zip values) position = none := by
  refine slotOf?_eq_none fun hmem => hfree ?_
  obtain ⟨⟨other, value⟩, hzip, rfl⟩ := List.mem_map.mp hmem
  exact (List.of_mem_zip hzip).1

theorem slotOf?_map {positions : List Nat} {expr : Nat → α} (hmem : position ∈ positions) :
    slotOf? (positions.map fun other => (other, expr other)) position = some (expr position) := by
  induction positions with
  | nil => cases hmem
  | cons other rest ih =>
      rw [List.map_cons]
      by_cases hsame : other = position
      · subst hsame
        exact slotOf?_cons_self _
      · rw [slotOf?_cons_of_ne hsame]
        exact ih ((List.mem_cons.mp hmem).resolve_left fun h => hsame h.symm)

/-- Positions that never descend and differ are in ascending order. -/
theorem pairwise_lt_of_hasDescent {positions : List Nat} (hdescent : hasDescent positions = false)
    (hnodup : positions.Nodup) : positions.Pairwise (· < ·) := by
  rw [← List.isChain_iff_pairwise]
  induction positions using hasDescent.induct with
  | case1 first second rest ih =>
      simp only [hasDescent, gt_iff_lt, Bool.or_eq_false_iff, decide_eq_false_iff_not,
        Nat.not_lt] at hdescent
      have hne : first ≠ second := fun h => (List.nodup_cons.mp hnodup).1 (by simp [h])
      refine List.IsChain.cons_cons ?_ (ih hdescent.2 (List.nodup_cons.mp hnodup).2)
      omega
  | case2 positions hshort =>
      rcases positions with _ | ⟨first, _ | ⟨second, rest⟩⟩
      · exact .nil
      · exact .singleton _
      · exact (hshort _ _ _ rfl).elim

end Slots

/-! ### What an implementation receives -/

/-- One entry for each parameter, made from what is bound to it. -/
def fill {α β : Type} (slot : ImplementationParameter → Option α → β)
    (parameters : List ImplementationParameter) (start : Nat) (bound : List (Nat × α)) : List β :=
  (parameters.zipIdx start).map fun (parameter, position) => slot parameter (slotOf? bound position)

section Fill

variable {α β : Type} {slot : ImplementationParameter → Option α → β}
  {parameter : ImplementationParameter} {parameters : List ImplementationParameter}
  {start position : Nat} {bound : List (Nat × α)}

theorem fill_cons : fill slot (parameter :: parameters) start bound =
    slot parameter (slotOf? bound start) :: fill slot parameters (start + 1) bound := rfl

theorem fill_skip {value : α} (hlt : position < start) :
    fill slot parameters start ((position, value) :: bound) = fill slot parameters start bound := by
  refine List.map_congr_left fun ⟨parameter, other⟩ hmem => ?_
  have hstart : start ≤ other := List.le_snd_of_mem_zipIdx hmem
  simp only [slotOf?_cons_of_ne (Nat.ne_of_lt (Nat.lt_of_lt_of_le hlt hstart))]

theorem getElem?_fill (hparameter : parameters[position]? = some parameter) :
    (fill slot parameters 0 bound)[position]? = some (slot parameter (slotOf? bound position)) := by
  simp [fill, hparameter]

theorem length_fill : (fill slot parameters start bound).length = parameters.length := by
  simp [fill]

/-- The arguments of an implementation: its slots, and the words of the flags behind them. -/
theorem parts_implementationArguments (implementation : ImplementationFunction)
    (targets : List Nat) (placed : List (Nat × Node)) :
    (implementationArguments implementation targets placed).parts =
      commaSeparated (fill slotExpr implementation.parameters 0 placed ++
        (implementation.encoding.encode targets).map wordExpr) := rfl

end Fill

namespace Semantics

variable {m : Type → Type} {V : Type} (s : Semantics m V)

/-- What an implementation receives for a parameter that a call supplies with a value, or not. -/
def slot (parameter : ImplementationParameter) : Option V → V
  | some value => if parameter.wrapped then s.present value else value
  | none => s.absent

/-- What an implementation receives if the given parameters take the given values. -/
def received (implementation : ImplementationFunction) (targets : List Nat)
    (values : List V) : List V :=
  fill s.slot implementation.parameters 0 (targets.zip values) ++
    (implementation.encoding.encode targets).map s.word

variable [Monad m] (locals : Locals V)

theorem eval_slotExpr_none (parameter : ImplementationParameter) :
    s.eval locals (slotExpr parameter none) = pure (s.slot parameter none) :=
  s.eval_none locals

variable [LawfulMonad m]

theorem eval_slotExpr_some (parameter : ImplementationParameter) (value : Node) :
    s.eval locals (slotExpr parameter (some value)) =
      (fun v => s.slot parameter (some v)) <$> s.eval locals value := by
  cases hwrapped : parameter.wrapped with
  | true => simp [slotExpr, slot, hwrapped, eval_someExpr]
  | false => simp [slotExpr, slot, hwrapped]

theorem mapM_wordExpr (words : List UInt32) :
    (words.map wordExpr).mapM (s.eval locals) = pure (words.map s.word) := by
  have hword : (s.eval locals ∘ wordExpr) = fun word => pure (s.word word) :=
    funext fun word => s.eval_wordExpr locals word
  rw [List.mapM_map, hword, List.mapM_pure]

/-! ### Arguments that stay where they are -/

section InPlace

variable {parameter : ImplementationParameter} {rest : List ImplementationParameter} {start : Nat}
  {bound : List (Nat × Node)}

/-- The expressions for parameters evaluate the bound ones in order, each once. -/
def EvaluatesInPlace (parameters : List ImplementationParameter) (start : Nat)
    (bound : List (Nat × Node)) : Prop :=
  (fill slotExpr parameters start bound).mapM (s.eval locals) =
    (bound.map (·.2)).mapM (s.eval locals) >>= fun values =>
      pure (fill s.slot parameters start ((bound.map (·.1)).zip values))

theorem EvaluatesInPlace.cons_bound {value : Node}
    (hrest : s.EvaluatesInPlace locals rest (start + 1) bound) :
    s.EvaluatesInPlace locals (parameter :: rest) start ((start, value) :: bound) := by
  unfold EvaluatesInPlace at hrest ⊢
  rw [fill_cons, slotOf?_cons_self, fill_skip (Nat.lt_succ_self _), List.mapM_cons,
    eval_slotExpr_some, hrest]
  simp [fill_cons, slotOf?_cons_self, fill_skip]

theorem EvaluatesInPlace.cons_free (hfree : start ∉ bound.map (·.1))
    (hrest : s.EvaluatesInPlace locals rest (start + 1) bound) :
    s.EvaluatesInPlace locals (parameter :: rest) start bound := by
  unfold EvaluatesInPlace at hrest ⊢
  rw [fill_cons, slotOf?_eq_none hfree, List.mapM_cons, eval_slotExpr_none, pure_bind, hrest,
    bind_assoc]
  refine bind_congr fun values => ?_
  rw [pure_bind, fill_cons, slotOf?_zip_eq_none hfree]

/-- Arguments in the order of their parameters are evaluated in that order where they stand. -/
theorem evaluatesInPlace {parameters : List ImplementationParameter}
    (hsorted : (bound.map (·.1)).Pairwise (· < ·))
    (hrange : ∀ position ∈ bound.map (·.1), start ≤ position ∧
      position < start + parameters.length) :
    s.EvaluatesInPlace locals parameters start bound := by
  induction parameters generalizing start bound with
  | nil =>
      rcases bound with _ | ⟨entry, others⟩
      · simp [EvaluatesInPlace, fill]
      · have hentry := hrange entry.1 (by simp)
        simp only [List.length_nil] at hentry
        omega
  | cons parameter rest ih =>
      simp only [List.length_cons] at hrange
      by_cases hmem : start ∈ bound.map (·.1)
      · -- The first parameter is bound, by the first argument since they are in order.
        rcases bound with _ | ⟨⟨position, value⟩, others⟩
        · cases hmem
        · simp only [List.map_cons, List.pairwise_cons, List.mem_cons] at hsorted hrange hmem
          have hposition : position = start := by
            have hstart := (hrange position (Or.inl rfl)).1
            rcases hmem with hmem | hmem
            · exact hmem.symm
            · have hlt := hsorted.1 start hmem
              omega
          subst hposition
          refine (ih hsorted.2 fun other hother => ?_).cons_bound
          have hgt := hsorted.1 other hother
          have hbounds := hrange other (Or.inr hother)
          omega
      · refine (ih hsorted fun other hother => ?_).cons_free s locals hmem
        have hbounds := hrange other hother
        have hne : other ≠ start := fun h => hmem (h ▸ hother)
        omega

end InPlace

/-! ### Arguments that are bound in front of the call -/

theorem mapM_eq_pure {α β : Type} {step : α → m β} {result : α → β} {items : List α}
    (hstep : ∀ item ∈ items, step item = pure (result item)) :
    items.mapM step = pure (items.map result) := by
  induction items with
  | nil => rfl
  | cons item rest ih =>
      rw [List.mapM_cons, hstep item (by simp), pure_bind,
        ih fun other hmem => hstep other (List.mem_cons_of_mem _ hmem), pure_bind]
      rfl

/-- What follows on a list of results need only be known for lists of the right length. -/
theorem mapM_bind_congr {α β γ : Type} {step : α → m β} {items : List α}
    {first second : List β → m γ}
    (hnext : ∀ results : List β, results.length = items.length → first results = second results) :
    items.mapM step >>= first = items.mapM step >>= second := by
  induction items generalizing first second with
  | nil => simpa using hnext [] rfl
  | cons item rest ih =>
      simp only [List.mapM_cons, bind_assoc, pure_bind]
      refine bind_congr fun result => ih fun results hlength => ?_
      exact hnext (result :: results) (by simp [hlength])

/-- Locals that hold the arguments read back what was bound. -/
theorem mapM_fill_locals {parameters : List ImplementationParameter} {positions : List Nat}
    {values : List V} {name : Nat → String} (hlength : values.length = positions.length)
    (hlocals : ∀ position ∈ positions,
      locals (withoutRaw (name position)) = slotOf? (positions.zip values) position) :
    (fill slotExpr parameters 0
        (positions.map fun position => (position, nameExpr (name position)))).mapM
      (s.eval locals) = pure (fill s.slot parameters 0 (positions.zip values)) := by
  rw [fill, List.mapM_map]
  refine mapM_eq_pure fun ⟨parameter, position⟩ _ => ?_
  rw [Function.comp_apply]
  by_cases hbound : position ∈ positions
  · obtain ⟨value, hvalue⟩ := slotOf?_zip_isSome hlength hbound
    simp only [slotOf?_map hbound, hvalue]
    rw [eval_slotExpr_some, eval_nameExpr s locals ((hlocals position hbound).trans hvalue),
      map_pure]
  · have hfree : slotOf? (positions.map fun position => (position, nameExpr (name position)))
        position = none := slotOf?_eq_none (by simpa using hbound)
    simp only [hfree, slotOf?_zip_eq_none hbound]
    exact s.eval_slotExpr_none locals parameter

end Semantics

end EntityTables.Call
