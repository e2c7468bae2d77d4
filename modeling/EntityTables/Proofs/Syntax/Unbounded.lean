import EntityTables.Proofs.Syntax.Nesting

/-!
# Readings without a bound

With the depth that its input needs, a nonterminal is a parser of its own. It does what its
production does over such parsers, so that a production can be followed without a count of how deep
it nests.
-/

namespace EntityTables.Syntax

open EntityTables.Syntax.Parser

/-- The parser of a nonterminal, with the depth that its input needs. -/
def reading (start : Nonterminal) : Parser Node := do
  nonterminal (nestingBound (← get)) start

theorem run_reading_eq (start : Nonterminal) (input : Input) :
    (reading start).run input = (nonterminal (nestingBound input) start).run input := by
  rw [reading, StateT.run_bind, StateT.run_get, pure_bind]

section Reading

variable {used : Bool} {size depth : Nat}

theorem reading_agrees (hdepth : 2 * (size + 1) ≤ depth) (start : Nonterminal) :
    Agrees false size (reading start) (nonterminal depth start) where
  agreesAt input hfits := by
    have hown : Fits false (Node.sizeOfAll input) input := ⟨Nat.le_refl _⟩
    have hsize : Node.sizeOfAll input ≤ size := hfits.size_le
    have hbound : 2 * (Node.sizeOfAll input + 1) ≤ nestingBound input := by
      rw [nestingBound]
      omega
    have hsame := nonterminal_agrees hbound (Nat.le_trans (by omega) hdepth) start
    have hrun : (reading start).run input = (nonterminal depth start).run input := by
      rw [run_reading_eq]
      exact (hsame.agreesAt input).run_eq
    refine ⟨hrun, fun hread => ?_⟩
    rw [run_reading_eq] at hread
    have hrest := ((hsame.agreesAt input).fits hread).size_le
    exact hfits.of_le hrest

theorem reading_agrees_true (hdepth : 2 * size ≤ depth) (start : Nonterminal) :
    Agrees true size (reading start) (nonterminal depth start) :=
  .true_of_pred fun smaller hsize => reading_agrees (by omega) start

/-- A production over readings does what it does over parsers that are deep enough. -/
theorem production_agrees (hdepth : 2 * (size + 1) ≤ depth) (start : Nonterminal) :
    Agrees false size (production reading start) (production (nonterminal depth) start) := by
  have hbelow := @reading_agrees_true size depth (by omega)
  have hpattern := @reading_agrees size depth hdepth .pattern
  have hoperand := fun struct => @reading_agrees size depth hdepth (.operand struct)
  have hcontinuation := fun left struct least =>
    @reading_agrees size depth hdepth (.continuation left struct least)
  cases start with
  | type plus => exact typeRule_agrees plus
  | pattern => exact patternRule_agrees
  | alternatives => exact alternativesRule_agrees
  | expr struct => exact exprRule_agrees struct
  | operand struct => exact operandRule_agrees struct
  | continuation left struct least => exact continuationRule_agrees left struct least
  | statementExpr => exact statementExprRule_agrees
  | block => exact blockRule_agrees
  | item => exact itemRule_agrees
  | useTree => exact useTreeRule_agrees

/-- **A reading is its production over readings.** -/
theorem run_reading {start : Nonterminal} {input : Input} :
    (reading start).run input = (production reading start).run input := by
  have hfits : Fits false (Node.sizeOfAll input) input := ⟨Nat.le_refl _⟩
  have hdeep := @reading_agrees (Node.sizeOfAll input) (2 * (Node.sizeOfAll input + 1) + 1)
    (by omega) start
  have hproduction := @production_agrees (Node.sizeOfAll input) (2 * (Node.sizeOfAll input + 1))
    (Nat.le_refl _) start
  rw [(hdeep.agreesAt input).run_eq, (hproduction.agreesAt input).run_eq]
  rfl

/-- A reading of a whole input, by a parser over readings. -/
theorem readAll_eq_ok {α : Type} {parser : (Nonterminal → Parser Node) → Parser α} {input : Input}
    {result : α}
    (hagrees : ∀ depth, 2 * (Node.sizeOfAll input + 1) ≤ depth →
      (parser reading).run input = (parser (nonterminal depth)).run input) :
    readAll input parser = .ok result ↔ (parser reading).run input = .ok (result, []) := by
  rw [hagrees (nestingBound input) (by rw [nestingBound]; omega), readAll]
  rcases (parser (nonterminal (nestingBound input))).run input with error | ⟨read, rest⟩
  · simp
  · cases rest with
    | nil => simp
    | cons node rest => simp

end Reading

end EntityTables.Syntax
