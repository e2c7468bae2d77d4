import EntityTables.Proofs.Schema.References
import EntityTables.Proofs.Unit.Lookup

/-!
# Resolution without a memory

What a table is does not depend on what was resolved before: here it is rebuilt from the
declarations every time it is asked for. Only the declarations that are being resolved are known, so
that a cycle ends in the same error.

A table that can be rebuilt at all can be rebuilt under every stack that its references do not lead
to, and is the same there. That is what makes it safe to keep.
-/

namespace EntityTables.Schema

open Relation

/-- The table of a key, rebuilt while some declarations are being resolved. -/
def rebuild (resolver : Resolver) (stack : List Declaration) (key : Key) : Except Error Table :=
  if _fresh : key ∈ stack.map (·.key) then .error (.circularReference (cycleFrom key stack))
  else
    match _found : resolver.unit.get? key with
    | none => .error (.unreadable key.text)
    | some declaration =>
      buildTable resolver (rebuild resolver (declaration :: stack)) declaration
termination_by (remaining resolver.unit stack).length
decreasing_by exact remaining_length_lt _found _fresh

variable {resolver : Resolver} {stack : List Declaration} {key : Key}

theorem rebuild_of_mem (hmem : key ∈ stack.map (·.key)) :
    rebuild resolver stack key = .error (.circularReference (cycleFrom key stack)) := by
  rw [rebuild, dif_pos hmem]

theorem rebuild_of_get?_eq_none (hfresh : key ∉ stack.map (·.key))
    (hnone : resolver.unit.get? key = none) :
    rebuild resolver stack key = .error (.unreadable key.text) := by
  rw [rebuild, dif_neg hfresh]
  split
  · rfl
  · simp_all

theorem rebuild_of_get?_eq_some {declaration : Declaration} (hfresh : key ∉ stack.map (·.key))
    (hfound : resolver.unit.get? key = some declaration) :
    rebuild resolver stack key =
      buildTable resolver (rebuild resolver (declaration :: stack)) declaration := by
  rw [rebuild, dif_neg hfresh]
  split
  · simp_all
  · rename_i other hother
    rw [hfound, Option.some.injEq] at hother
    rw [hother]

theorem rebuild_eq_ok_iff {table : Table} :
    rebuild resolver stack key = .ok table ↔
      key ∉ stack.map (·.key) ∧ ∃ declaration, resolver.unit.get? key = some declaration ∧
        buildTable resolver (rebuild resolver (declaration :: stack)) declaration = .ok table := by
  by_cases hmem : key ∈ stack.map (·.key)
  · simp [rebuild_of_mem hmem, hmem]
  · cases hfound : resolver.unit.get? key with
    | none => simp [rebuild_of_get?_eq_none hmem hfound]
    | some declaration => simp [rebuild_of_get?_eq_some hmem hfound, hmem]

/-! ### Where the references of a table lead -/

theorem exists_target_of_rebuild_ok {table : Table} {target : Key}
    (hok : rebuild resolver stack key = .ok table)
    (hrefers : ColumnRefersTo resolver.unit key target) :
    ∃ declaration table, resolver.unit.get? key = some declaration ∧
      rebuild resolver (declaration :: stack) target = .ok table := by
  obtain ⟨-, declaration, hfound, hbuild⟩ := rebuild_eq_ok_iff.mp hok
  obtain ⟨table, htable⟩ := exists_target_of_buildTable_ok hfound hbuild hrefers
  exact ⟨declaration, table, hfound, htable⟩

/-- Everything that a rebuilt table leads to was rebuilt on top of the same stack. -/
theorem exists_rebuild_of_reaches {table : Table} {target : Key}
    (hok : rebuild resolver stack key = .ok table)
    (hreaches : ReflTransGen (ColumnRefersTo resolver.unit) key target) :
    ∃ deeper table, stack.map (·.key) ⊆ deeper.map (·.key) ∧
      rebuild resolver deeper target = .ok table := by
  induction hreaches with
  | refl => exact ⟨stack, table, List.Subset.refl _, hok⟩
  | tail _ hrefers ih =>
      obtain ⟨deeper, table, hsubset, htable⟩ := ih
      obtain ⟨declaration, next, -, hnext⟩ := exists_target_of_rebuild_ok htable hrefers
      refine ⟨declaration :: deeper, next, ?_, hnext⟩
      exact List.Subset.trans hsubset (List.subset_cons_self _ _)

theorem not_mem_of_reaches {table : Table} {target : Key}
    (hok : rebuild resolver stack key = .ok table)
    (hreaches : ReflTransGen (ColumnRefersTo resolver.unit) key target) :
    target ∉ stack.map (·.key) := by
  obtain ⟨deeper, table, hsubset, htable⟩ := exists_rebuild_of_reaches hok hreaches
  exact fun hmem => (rebuild_eq_ok_iff.mp htable).1 (hsubset hmem)

/-- A table is the same under every stack that its references do not lead to. -/
theorem rebuild_ok_of_avoids {table : Table} (hok : rebuild resolver stack key = .ok table)
    {other : List Declaration}
    (havoids : ∀ target, ReflTransGen (ColumnRefersTo resolver.unit) key target →
      target ∉ other.map (·.key)) :
    rebuild resolver other key = .ok table := by
  induction stack, key using rebuild.induct resolver generalizing other table with
  | case1 stack key hmem => simp [rebuild_of_mem hmem] at hok
  | case2 stack key hmem hnone => simp [rebuild_of_get?_eq_none hmem hnone] at hok
  | case3 stack key hmem declaration hfound ih =>
      rw [rebuild_of_get?_eq_some hmem hfound] at hok
      rw [rebuild_of_get?_eq_some (havoids key .refl) hfound]
      refine buildTable_ok_mono hfound hok fun target hrefers table htable => ?_
      refine ih target htable fun further hfurther => ?_
      -- the rebuilt target already avoids the declaration itself
      have hdeclaration := not_mem_of_reaches htable hfurther
      have hother := havoids further (.head hrefers hfurther)
      rw [List.map_cons, List.mem_cons, not_or] at hdeclaration ⊢
      exact ⟨hdeclaration.1, hother⟩

end EntityTables.Schema
