import EntityTables.Proofs.Schema.Cycle
import EntityTables.Proofs.Schema.Session
import Mathlib.Data.List.Perm.Subperm

/-!
# How deep resolution goes

Resolution follows references from declaration to declaration, over cycles too. Here a resolver keeps
slots and a stack without any promise about them, and nothing but a given depth ends the recursion.
The declarations that are being resolved are different ones all the same, and their slots say so, so
the number of declarations is a depth that is never used up: resolution comes to an end, with the
answer of a resolver whose sessions promise all that.
-/

namespace EntityTables.Schema

open SourceUnit (key_of_get?)

/-- What a resolver keeps, without a promise that the slots agree with the stack. -/
structure Memory where
  slot? : Key → Option Slot
  stack : List Declaration

namespace Memory

/-- Begins to resolve a declaration. -/
def enter (memory : Memory) (declaration : Declaration) : Memory where
  slot? := Session.put memory.slot? declaration.key (some .inProgress)
  stack := declaration :: memory.stack

/-- Ends the resolution of a declaration, with its table unless it failed. -/
def leave (memory : Memory) (declaration : Declaration) (table : Option Table) : Memory where
  slot? := Session.put memory.slot? declaration.key (table.map .resolved)
  stack := memory.stack.tail

/-- The slots that say so are those of the declarations on the stack, which are different ones and
no more than a unit declares. -/
structure Orderly (unit : SourceUnit) (memory : Memory) : Prop where
  distinct : (memory.stack.map (·.key)).Nodup
  inProgress_iff : ∀ key, memory.slot? key = some .inProgress ↔ key ∈ memory.stack.map (·.key)
  length_le : memory.stack.length ≤ unit.declarations.length

end Memory

def Session.memory (session : Session) : Memory := ⟨session.slot?, session.stack⟩

/-- A run of a resolver: what it keeps now, and what it kept before. -/
structure Run where
  memory : Memory
  past : List Memory

def Run.next (run : Run) (memory : Memory) : Run := ⟨memory, run.memory :: run.past⟩

/-- A step of a run that is without a result if its depth does not suffice. -/
abbrev Descent (α : Type) := ExceptT Error (StateT Run Option) α

/-- Resolves the table of a key, with at most so many declarations that are entered inside of each
other. -/
def descend (resolver : Resolver) (depth : Nat) (key : Key) : Descent Table :=
  fun run =>
    match run.memory.slot? key with
    | some (.resolved table) => some (.ok table, run)
    | some .inProgress =>
      some (.error (.circularReference (cycleFrom key run.memory.stack)), run)
    | none =>
      match resolver.unit.get? key with
      | none => some (.error (.unreadable key.text), run)
      | some declaration =>
        match depth with
        | 0 => none
        | depth + 1 => do
          let (result, after) ← (buildTable resolver (descend resolver depth) declaration).run
            (run.next (run.memory.enter declaration))
          return (result, after.next (after.memory.leave declaration result.toOption))

/-! ### Sessions as memories -/

section Session

variable {unit : SourceUnit} {stack : List Declaration} {declaration : Declaration}

theorem memory_enter (session : Session.During stack)
    (fresh : session.1.slot? declaration.key = none) :
    (Session.enter session declaration fresh).1.memory =
      session.1.memory.enter declaration := by
  obtain ⟨session, rfl⟩ := session
  rfl

theorem memory_leave (session : Session.During (declaration :: stack)) (table : Option Table) :
    (Session.leave session table).1.memory = session.1.memory.leave declaration table := by
  simp [Session.memory, Memory.leave, Session.leave, session.2]

/-- There are no more declarations on the stack of a session than a unit has, if all are declared
there. -/
theorem orderly_memory (session : Session.During stack)
    (hdeclared : stack ⊆ unit.declarations) : session.1.memory.Orderly unit where
  distinct := session.1.distinct
  inProgress_iff := session.1.inProgress_iff
  length_le := by
    have hdistinct : stack.Nodup := .of_map (·.key) (session.2 ▸ session.1.distinct)
    rw [Session.memory, session.2]
    exact (hdistinct.subperm hdeclared).length_le

end Session

/-! ### Descents that follow resolution -/

theorem run_bind_descent {α β : Type} (step : Descent α) (next : α → Descent β) (run : Run) :
    (step >>= next).run run =
      match step.run run with
      | some (.ok a, after) => (next a).run after
      | some (.error error, after) => some (.error error, after)
      | none => none := by
  rw [ExceptT.run_bind]
  simp only [bind, StateT.bind]
  rcases step.run run with _ | ⟨_ | _, _⟩ <;> rfl

/-- From a depth on, a descent does what resolution under a stack does, and keeps order while it
does. -/
def Follows {α : Type} (unit : SourceUnit) (enough : Nat) (stack : List Declaration)
    (descent : Nat → Descent α) (step : Resolving (Session.During stack) α) : Prop :=
  ∀ session, ∃ seen, (∀ memory ∈ seen, memory.Orderly unit) ∧
    ∀ depth, enough ≤ depth → ∀ past, (descent depth).run ⟨session.1.memory, past⟩ =
      some ((step.run session).1, ⟨(step.run session).2.1.memory, seen ++ past⟩)

namespace Follows

variable {α β : Type} {unit : SourceUnit} {enough : Nat} {stack : List Declaration}

theorem of_except (result : Except Error α) :
    Follows unit enough stack (fun _ => ofExcept result) (ofExcept result) := by
  intro session
  refine ⟨[], by simp, fun depth _ past => ?_⟩
  cases result <;> rfl

theorem pure (a : α) : Follows unit enough stack (fun _ => pure a) (pure a) :=
  of_except (.ok a)

theorem bind {descent : Nat → Descent α} {step : Resolving (Session.During stack) α}
    {descentNext : Nat → α → Descent β} {stepNext : α → Resolving (Session.During stack) β}
    (hstep : Follows unit enough stack descent step)
    (hnext : ∀ a, Follows unit enough stack (descentNext · a) (stepNext a)) :
    Follows unit enough stack (fun depth => descent depth >>= descentNext depth)
      (step >>= stepNext) := by
  intro session
  obtain ⟨seen, hseen, hrun⟩ := hstep session
  rw [run_bind]
  rcases hmiddle : step.run session with ⟨_ | a, middle⟩
  · refine ⟨seen, hseen, fun depth hdepth past => ?_⟩
    rw [run_bind_descent, hrun depth hdepth past, hmiddle]
  · obtain ⟨seenNext, hseenNext, hrunNext⟩ := hnext a middle
    refine ⟨seenNext ++ seen, ?_, fun depth hdepth past => ?_⟩
    · intro memory hmem
      rcases List.mem_append.mp hmem with hmem | hmem
      · exact hseenNext memory hmem
      · exact hseen memory hmem
    · rw [run_bind_descent, hrun depth hdepth past, hmiddle]
      simpa using hrunNext depth hdepth (seen ++ past)

theorem mapM {ι : Type} {descent : Nat → ι → Descent α}
    {step : ι → Resolving (Session.During stack) α} {items : List ι}
    (hstep : ∀ item ∈ items, Follows unit enough stack (descent · item) (step item)) :
    Follows unit enough stack (fun depth => items.mapM (descent depth)) (items.mapM step) := by
  induction items with
  | nil => exact pure []
  | cons item rest ih =>
      have hrest := ih fun other hmem => hstep other (List.mem_cons_of_mem _ hmem)
      simp only [List.mapM_cons]
      exact (hstep item List.mem_cons_self).bind fun first => hrest.bind fun others =>
        pure (first :: others)

end Follows

section Resolve

variable {resolver : Resolver} {enough : Nat} {stack : List Declaration} {owner : Declaration}
  {descent : Nat → Key → Descent Table} {resolve : Key → Resolving (Session.During stack) Table}

theorem follows_columnOf
    (hresolve : ∀ key, Follows resolver.unit enough stack (descent · key) (resolve key))
    (kind : EntityKind) (property : Property) :
    Follows resolver.unit enough stack
      (fun depth => columnOf resolver (descent depth) owner kind property)
      (columnOf resolver resolve owner kind property) := by
  unfold columnOf
  by_cases hreference : property.references.isSome
  · simp only [if_pos hreference]
    exact (Follows.of_except _).bind fun _ => (Follows.of_except _).bind fun target =>
      (hresolve target.key).bind fun _ => Follows.of_except _
  · simp only [if_neg hreference]
    exact Follows.of_except _

theorem follows_buildTable
    (hresolve : ∀ key, Follows resolver.unit enough stack (descent · key) (resolve key)) :
    Follows resolver.unit enough stack
      (fun depth => buildTable resolver (descent depth) owner)
      (buildTable resolver resolve owner) := by
  unfold buildTable
  cases owner.table with
  | none => exact Follows.of_except (.error _)
  | some marker =>
      exact (Follows.of_except _).bind fun kind =>
        (Follows.mapM fun property _ => follows_columnOf hresolve kind property).bind fun _ =>
          Follows.pure _

end Resolve

/-! ### Descents come to an end -/

section Descend

variable {resolver : Resolver} {stack : List Declaration} {key : Key} {depth : Nat} {run : Run}

theorem descend_of_resolved {table : Table}
    (hslot : run.memory.slot? key = some (.resolved table)) :
    (descend resolver depth key).run run = some (.ok table, run) := by
  change descend resolver depth key run = _
  rw [descend.eq_def, hslot]

theorem descend_of_inProgress (hslot : run.memory.slot? key = some .inProgress) :
    (descend resolver depth key).run run =
      some (.error (.circularReference (cycleFrom key run.memory.stack)), run) := by
  change descend resolver depth key run = _
  rw [descend.eq_def, hslot]

theorem descend_of_get?_eq_none (hslot : run.memory.slot? key = none)
    (hnone : resolver.unit.get? key = none) :
    (descend resolver depth key).run run = some (.error (.unreadable key.text), run) := by
  change descend resolver depth key run = _
  rw [descend.eq_def, hslot, hnone]

theorem descend_of_get?_eq_some {declaration : Declaration} {result : Except Error Table}
    {after : Run} (hslot : run.memory.slot? key = none)
    (hfound : resolver.unit.get? key = some declaration)
    (hbuild : (buildTable resolver (descend resolver depth) declaration).run
      (run.next (run.memory.enter declaration)) = some (result, after)) :
    (descend resolver (depth + 1) key).run run =
      some (result, after.next (after.memory.leave declaration result.toOption)) := by
  change descend resolver (depth + 1) key run = _
  rw [descend.eq_def, hslot, hfound]
  simp [hbuild]

/-- A declaration that was not met is entered, built and left, one level deeper. -/
theorem exists_seen_of_fresh {declaration : Declaration} {enough : Nat}
    {session : Session.During stack} (hdeclared : declaration :: stack ⊆ resolver.unit.declarations)
    (hslot : session.1.slot? declaration.key = none)
    (hfound : resolver.unit.get? declaration.key = some declaration)
    (hresolve : ∀ key, Follows resolver.unit enough (declaration :: stack)
      (descend resolver · key) (resolveFrom resolver (declaration :: stack) key)) :
    ∃ seen, (∀ memory ∈ seen, memory.Orderly resolver.unit) ∧
      ∀ depth, enough < depth → ∀ past,
        (descend resolver depth declaration.key).run ⟨session.1.memory, past⟩ =
          some (((resolveFrom resolver stack declaration.key).run session).1,
            ⟨((resolveFrom resolver stack declaration.key).run session).2.1.memory,
              seen ++ past⟩) := by
  have hbelow : stack ⊆ resolver.unit.declarations := fun _ hmem =>
    hdeclared (List.mem_cons_of_mem _ hmem)
  obtain ⟨seen, hseen, hrun⟩ :=
    @follows_buildTable resolver enough _ declaration _ _ hresolve
      (Session.enter session declaration hslot)
  rw [resolveFrom_of_get?_eq_some hslot hfound]
  rcases hbuilt : (buildTable resolver (resolveFrom resolver (declaration :: stack))
    declaration).run (Session.enter session declaration hslot) with ⟨result, built⟩
  rw [hbuilt] at hrun
  refine ⟨built.1.memory :: (seen ++ [session.1.memory]), ?_, ?_⟩
  · intro memory hmem
    simp only [List.mem_cons, List.mem_append, List.not_mem_nil, or_false] at hmem
    rcases hmem with rfl | hmem | rfl
    · exact orderly_memory built hdeclared
    · exact hseen memory hmem
    · exact orderly_memory session hbelow
  · intro depth hdepth past
    obtain ⟨depth, rfl⟩ : ∃ below, depth = below + 1 := ⟨depth - 1, by omega⟩
    have hbuild := hrun depth (by omega) (session.1.memory :: past)
    rw [memory_enter] at hbuild
    rw [descend_of_get?_eq_some hslot hfound hbuild, memory_leave]
    simp [Run.next]

/-- As many levels as there are declarations that are not on the stack are deep enough. -/
theorem follows_resolveFrom (stack : List Declaration) (key : Key)
    (hdeclared : stack ⊆ resolver.unit.declarations) :
    Follows resolver.unit (remaining resolver.unit stack).length stack (descend resolver · key)
      (resolveFrom resolver stack key) := by
  induction stack, key using rebuild.induct resolver with
  | case1 stack key hmem =>
      intro session
      have hslot := (session.1.inProgress_iff key).mpr (by rwa [session.2])
      refine ⟨[], by simp, fun depth _ past => ?_⟩
      rw [descend_of_inProgress hslot, resolveFrom_of_inProgress hslot, Session.memory, session.2]
      rfl
  | case2 stack key hmem hnone =>
      intro session
      refine ⟨[], by simp, fun depth _ past => ?_⟩
      rcases Session.slot?_cases session hmem with hslot | ⟨table, hslot⟩
      · rw [descend_of_get?_eq_none hslot hnone, resolveFrom_of_get?_eq_none hslot hnone]
        rfl
      · rw [descend_of_resolved hslot, resolveFrom_of_resolved hslot]
        rfl
  | case3 stack key hmem declaration hfound ih =>
      intro session
      obtain rfl := key_of_get? hfound
      -- one more declaration is on the stack for every level below
      have hmore : declaration :: stack ⊆ resolver.unit.declarations :=
        List.cons_subset.mpr ⟨List.mem_of_find?_eq_some hfound, hdeclared⟩
      rcases Session.slot?_cases session hmem with hslot | ⟨table, hslot⟩
      · obtain ⟨seen, hseen, hrun⟩ := exists_seen_of_fresh hmore hslot hfound (ih · hmore)
        have hfewer := remaining_length_lt hfound hmem
        exact ⟨seen, hseen, fun depth hdepth => hrun depth (by omega)⟩
      · refine ⟨[], by simp, fun depth _ past => ?_⟩
        rw [descend_of_resolved hslot, resolveFrom_of_resolved hslot]
        rfl

end Descend

/-- **Resolution comes to an end.** Without a promise about what a resolver keeps, a table is resolved
in a depth of at most the number of declarations, whether its references lead in circles or not, and
whatever was resolved before. The answer is that of a resolver whose sessions keep order; and on the
way to it the declarations on the stack are always different ones, no more than there are, and those
whose slots say that they are being resolved. -/
theorem descend_eq_resolveTable {resolver : Resolver} {session : Session}
    (hidle : session.stack = []) (key : Key) :
    ∃ run : Run, run.memory = ((resolveTable resolver key).run session).2.memory ∧
      (∀ depth, resolver.unit.declarations.length ≤ depth →
        (descend resolver depth key).run ⟨session.memory, []⟩ =
          some (((resolveTable resolver key).run session).1, run)) ∧
      ∀ memory ∈ run.memory :: run.past, memory.Orderly resolver.unit := by
  have hdeclared : session.stack ⊆ resolver.unit.declarations := by
    rw [hidle]
    exact List.nil_subset _
  obtain ⟨seen, hseen, hrun⟩ :=
    follows_resolveFrom session.stack key hdeclared ⟨session, rfl⟩
  refine ⟨⟨((resolveTable resolver key).run session).2.memory, seen⟩, rfl, fun depth hdepth => ?_,
    fun memory hmem => ?_⟩
  · have henough : (remaining resolver.unit session.stack).length ≤ depth :=
      (List.length_filter_le _ _).trans hdepth
    have hdescend := hrun depth henough []
    rw [List.append_nil] at hdescend
    exact hdescend
  · rcases List.mem_cons.mp hmem with rfl | hmem
    · exact orderly_memory _ hdeclared
    · exact hseen memory hmem

section Instance

/-- The staff and its teams refer to each other. -/
theorem descend_eq_resolveTable_staff : ∃ run,
    (descend (literalResolver staffUnit) 4 ⟨"crate::Sale"⟩).run ⟨Session.empty.memory, []⟩ =
        some (.error (.circularReference ["Staff", "Team"]), run) ∧
      ∀ memory ∈ run.memory :: run.past, memory.Orderly staffUnit := by
  let resolver := literalResolver staffUnit
  have hidle : Session.empty.stack = [] := rfl
  obtain ⟨run, -, hrun, horderly⟩ :=
    @descend_eq_resolveTable resolver _ hidle ⟨"crate::Sale"⟩
  refine ⟨run, ?_, horderly⟩
  rw [hrun 4 le_rfl, staff_resolveTable_sale]

end Instance

end EntityTables.Schema
