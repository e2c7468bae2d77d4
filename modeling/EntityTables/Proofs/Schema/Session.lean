import EntityTables.Proofs.Schema.Rebuild

/-!
# Sessions

A session is sound if every table that it keeps is the one that rebuilding gives, and if it keeps
the targets of every table that it keeps. Declarations that are being resolved are never targets of
a kept table then, so a kept table may be used under any stack.

Every step of resolution on a sound session gives what rebuilding gives and leaves a sound session
with the stack that it found, whether it fails or not.
-/

namespace EntityTables.Schema

open Relation
open SourceUnit (key_of_get?)

/-- The session keeps the table of a key. -/
def Session.Keeps (session : Session) (key : Key) : Prop :=
  ∃ table, session.slot? key = some (.resolved table)

/-- What a session keeps is what rebuilding gives. -/
structure Session.Sound (resolver : Resolver) (session : Session) : Prop where
  rebuilds : ∀ key table, session.slot? key = some (.resolved table) →
    rebuild resolver [] key = .ok table
  closed : ∀ source target, session.Keeps source →
    ColumnRefersTo resolver.unit source target → session.Keeps target

/-- A session keeps all that another kept. -/
def Session.Extends (after before : Session) : Prop :=
  ∀ key table, before.slot? key = some (.resolved table) →
    after.slot? key = some (.resolved table)

namespace Session

variable {resolver : Resolver} {stack : List Declaration} {declaration : Declaration}

theorem Extends.refl (session : Session) : session.Extends session := fun _ _ h => h

theorem Extends.trans {first second third : Session} (hsecond : second.Extends first)
    (hthird : third.Extends second) : third.Extends first :=
  fun key table h => hthird key table (hsecond key table h)

theorem Extends.keeps {before after : Session} (hextends : after.Extends before) {key : Key}
    (hkeeps : before.Keeps key) : after.Keeps key := by
  obtain ⟨table, htable⟩ := hkeeps
  exact ⟨table, hextends key table htable⟩

theorem sound_empty (resolver : Resolver) : Sound resolver empty where
  rebuilds key table h := by simp [empty] at h
  closed source target h := by
    obtain ⟨table, htable⟩ := h
    simp [empty] at htable

theorem not_keeps_of_mem (session : During stack) {key : Key} (hmem : key ∈ stack.map (·.key)) :
    ¬ session.1.Keeps key := by
  rintro ⟨table, htable⟩
  have hslot := (session.1.inProgress_iff key).mpr (by rwa [session.2])
  rw [hslot] at htable
  cases htable

/-- A declaration that is not being resolved was not met or has its table. -/
theorem slot?_cases (session : During stack) {key : Key} (hmem : key ∉ stack.map (·.key)) :
    session.1.slot? key = none ∨ ∃ table, session.1.slot? key = some (.resolved table) := by
  cases hslot : session.1.slot? key with
  | none => exact Or.inl rfl
  | some slot =>
      cases slot with
      | resolved table => exact Or.inr ⟨table, rfl⟩
      | inProgress =>
          have hstack := (session.1.inProgress_iff key).mp hslot
          rw [session.2] at hstack
          exact absurd hstack hmem

/-- All that a kept table leads to is kept. -/
theorem Sound.keeps_of_reaches {session : Session} (hsound : session.Sound resolver)
    {source target : Key} (hkeeps : session.Keeps source)
    (hreaches : ReflTransGen (ColumnRefersTo resolver.unit) source target) :
    session.Keeps target := by
  induction hreaches with
  | refl => exact hkeeps
  | tail _ hrefers ih => exact hsound.closed _ _ ih hrefers

/-- A kept table is what rebuilding gives under the stack of the session. -/
theorem Sound.rebuild_eq {session : During stack} (hsound : session.1.Sound resolver) {key : Key}
    {table : Table} (hslot : session.1.slot? key = some (.resolved table)) :
    rebuild resolver stack key = .ok table := by
  refine rebuild_ok_of_avoids (hsound.rebuilds key table hslot) fun target hreaches hmem => ?_
  exact not_keeps_of_mem session hmem (hsound.keeps_of_reaches ⟨table, hslot⟩ hreaches)

/-! ### Entering and leaving a declaration -/

section Enter

variable {session : During stack} {fresh : session.1.slot? declaration.key = none}

theorem slot?_enter_of_ne {key : Key} (hne : key ≠ declaration.key) :
    (enter session declaration fresh).1.slot? key = session.1.slot? key := by
  simp [enter, put, hne]

theorem slot?_enter_self :
    (enter session declaration fresh).1.slot? declaration.key = some .inProgress := by
  simp [enter, put]

theorem keeps_enter_iff {key : Key} :
    (enter session declaration fresh).1.Keeps key ↔ session.1.Keeps key := by
  by_cases hsame : key = declaration.key
  · subst hsame
    simp [Keeps, slot?_enter_self, fresh]
  · simp [Keeps, slot?_enter_of_ne hsame]

theorem Sound.enter (hsound : session.1.Sound resolver) :
    (Session.enter session declaration fresh).1.Sound resolver where
  rebuilds key table hslot := by
    have hne : key ≠ declaration.key := by
      rintro rfl
      rw [slot?_enter_self] at hslot
      cases hslot
    rw [slot?_enter_of_ne hne] at hslot
    exact hsound.rebuilds key table hslot
  closed source target hkeeps hrefers := by
    rw [keeps_enter_iff] at hkeeps ⊢
    exact hsound.closed source target hkeeps hrefers

theorem extends_enter : (Session.enter session declaration fresh).1.Extends session.1 := by
  intro key table hslot
  have hne : key ≠ declaration.key := by
    rintro rfl
    rw [fresh] at hslot
    cases hslot
  rwa [slot?_enter_of_ne hne]

end Enter

section Leave

variable {session : During (declaration :: stack)}

theorem slot?_leave_of_ne {key : Key} (hne : key ≠ declaration.key) (table : Option Table) :
    (leave session table).1.slot? key = session.1.slot? key := by
  simp [leave, put, hne]

theorem slot?_leave_self (table : Option Table) :
    (leave session table).1.slot? declaration.key = table.map .resolved := by
  simp [leave, put]

theorem ne_of_slot?_eq_resolved {key : Key} {table : Table}
    (hslot : session.1.slot? key = some (.resolved table)) : key ≠ declaration.key := by
  rintro rfl
  exact not_keeps_of_mem session (by simp) ⟨table, hslot⟩

theorem extends_leave (table : Option Table) : (leave session table).1.Extends session.1 := by
  intro key kept hslot
  rwa [slot?_leave_of_ne (ne_of_slot?_eq_resolved hslot)]

theorem Sound.leave_none (hsound : session.1.Sound resolver) :
    (leave session none).1.Sound resolver := by
  have hne : ∀ key table, (leave session none).1.slot? key = some (.resolved table) →
      key ≠ declaration.key := by
    rintro key table hslot rfl
    rw [slot?_leave_self] at hslot
    cases hslot
  constructor
  · intro key table hslot
    have hkey := hne key table hslot
    rw [slot?_leave_of_ne hkey] at hslot
    exact hsound.rebuilds key table hslot
  · rintro source target ⟨table, hslot⟩ hrefers
    have hsource := hne source table hslot
    rw [slot?_leave_of_ne hsource] at hslot
    exact (extends_leave none).keeps (hsound.closed source target ⟨table, hslot⟩ hrefers)

/-- A finished table may be kept once all its targets are. -/
theorem Sound.leave_some (hsound : session.1.Sound resolver) {table : Table}
    (hrebuild : rebuild resolver stack declaration.key = .ok table)
    (htargets : ∀ target, ColumnRefersTo resolver.unit declaration.key target →
      session.1.Keeps target) :
    (leave session (some table)).1.Sound resolver := by
  constructor
  · intro key kept hslot
    by_cases hsame : key = declaration.key
    · subst hsame
      rw [slot?_leave_self, Option.map_some, Option.some.injEq, Slot.resolved.injEq] at hslot
      subst hslot
      exact rebuild_ok_of_avoids hrebuild fun target _ => List.not_mem_nil
    · rw [slot?_leave_of_ne hsame] at hslot
      exact hsound.rebuilds key kept hslot
  · rintro source target ⟨kept, hslot⟩ hrefers
    refine (extends_leave (some table)).keeps ?_
    by_cases hsame : source = declaration.key
    · exact htargets target (hsame ▸ hrefers)
    · rw [slot?_leave_of_ne hsame] at hslot
      exact hsound.closed source target ⟨kept, hslot⟩ hrefers

end Leave

end Session

/-! ### Steps that follow rebuilding -/

section Run

variable {σ α β : Type}

theorem run_bind (step : Resolving σ α) (next : α → Resolving σ β) (session : σ) :
    (step >>= next).run session =
      match step.run session with
      | (.ok a, after) => (next a).run after
      | (.error error, after) => (.error error, after) := by
  rw [ExceptT.run_bind]
  simp only [bind, StateT.bind]
  rcases step.run session with ⟨_ | _, _⟩ <;> rfl

end Run

/-- On sound sessions with a stack, a step gives what is expected, returns to the stack and forgets
nothing; if it succeeds, the tables that it asked for are kept. -/
def Tracks {σ α : Type} (resolver : Resolver) (view : σ → Session) (stack : List Declaration)
    (step : Resolving σ α) (expected : Except Error α) (asked : Key → Prop) : Prop :=
  ∀ session, (view session).stack = stack → (view session).Sound resolver → ∃ after,
    step.run session = (expected, after) ∧ (view after).stack = stack ∧
      (view after).Sound resolver ∧ (view after).Extends (view session) ∧
      ∀ a, expected = .ok a → ∀ key, asked key → (view after).Keeps key

namespace Tracks

variable {σ α β : Type} {resolver : Resolver} {view : σ → Session}
  {stack : List Declaration}

theorem mono {step : Resolving σ α} {expected : Except Error α} {asked fewer : Key → Prop}
    (htracks : Tracks resolver view stack step expected asked)
    (hfewer : ∀ a, expected = .ok a → ∀ key, fewer key → asked key) :
    Tracks resolver view stack step expected fewer := by
  intro session hstack hsound
  obtain ⟨after, hrun, hback, hafter, hextends, hkeeps⟩ := htracks session hstack hsound
  exact ⟨after, hrun, hback, hafter, hextends,
    fun a ha key hkey => hkeeps a ha key (hfewer a ha key hkey)⟩

theorem of_except (result : Except Error α) :
    Tracks resolver view stack (ofExcept result) result fun _ => False := by
  intro session hstack hsound
  refine ⟨session, ?_, hstack, hsound, .refl _, fun _ _ _ h => h.elim⟩
  cases result <;> rfl

theorem pure (a : α) : Tracks resolver view stack (pure a) (.ok a) fun _ => False :=
  of_except (.ok a)

theorem bind {step : Resolving σ α} {next : α → Resolving σ β} {expected : Except Error α}
    {expectedNext : α → Except Error β} {asked askedNext : Key → Prop}
    (hstep : Tracks resolver view stack step expected asked)
    (hnext : ∀ a, expected = .ok a →
      Tracks resolver view stack (next a) (expectedNext a) askedNext) :
    Tracks resolver view stack (step >>= next) (expected >>= expectedNext)
      fun key => asked key ∨ askedNext key := by
  intro session hstack hsound
  obtain ⟨middle, hrun, hback, hmiddle, hextends, hkeeps⟩ := hstep session hstack hsound
  cases expected with
  | error error =>
      refine ⟨middle, by rw [run_bind, hrun]; rfl, hback, hmiddle, hextends, ?_⟩
      intro b hb
      cases hb
  | ok a =>
      obtain ⟨after, hrunNext, hbackNext, hafter, hextendsNext, hkeepsNext⟩ :=
        hnext a rfl middle hback hmiddle
      refine ⟨after, by rw [run_bind, hrun]; exact hrunNext, hbackNext, hafter,
        hextends.trans hextendsNext, ?_⟩
      rintro b hb key (hkey | hkey)
      · exact hextendsNext.keeps (hkeeps a rfl key hkey)
      · exact hkeepsNext b hb key hkey

theorem mapM {ι : Type} {step : ι → Resolving σ α} {expected : ι → Except Error α}
    {asked : ι → Key → Prop} {items : List ι}
    (hstep : ∀ item ∈ items, Tracks resolver view stack (step item) (expected item) (asked item)) :
    Tracks resolver view stack (items.mapM step) (items.mapM expected)
      fun key => ∃ item ∈ items, asked item key := by
  induction items with
  | nil => exact (pure []).mono fun _ _ key ⟨item, hmem, _⟩ => by cases hmem
  | cons item rest ih =>
      rw [List.mapM_cons, List.mapM_cons]
      have hrest := ih fun other hmem => hstep other (List.mem_cons_of_mem _ hmem)
      refine mono ((hstep item (by simp)).bind fun first _ => hrest.bind fun others _ =>
        pure (first :: others)) ?_
      rintro _ - key ⟨other, hmem, hkey⟩
      rcases List.mem_cons.mp hmem with rfl | hmem
      · exact Or.inl hkey
      · exact Or.inr (Or.inl ⟨other, hmem, hkey⟩)

end Tracks

/-! ### Resolution follows rebuilding -/

section Resolve

variable {σ : Type} {view : σ → Session} {resolver : Resolver} {stack : List Declaration}
  {owner : Declaration} {resolve : Key → Resolving σ Table} {expected : Key → Except Error Table}

theorem tracks_columnOf
    (hresolve : ∀ key, Tracks resolver view stack (resolve key) (expected key) (· = key))
    (kind : EntityKind) (property : Property) :
    Tracks resolver view stack (columnOf resolver resolve owner kind property)
      (columnOf resolver expected owner kind property) fun key =>
        property.references.isSome ∧ ∃ target,
          lookupTarget? resolver.unit owner property = some target ∧ target.key = key := by
  by_cases hreference : property.references.isSome
  · rw [columnOf_eq_referenceColumn hreference]
    unfold columnOf
    rw [if_pos hreference]
    have hresolved : ∀ target, referenceTarget resolver.unit owner property = .ok target →
        Tracks resolver view stack (resolve target.key) (expected target.key) fun key =>
          ∃ found, referenceTarget resolver.unit owner property = .ok found ∧ key = found.key := by
      intro target htarget
      refine (hresolve target.key).mono ?_
      rintro _ - key ⟨found, hfound, rfl⟩
      rw [htarget, Except.ok.injEq] at hfound
      rw [hfound]
    refine Tracks.mono ((Tracks.of_except _).bind fun _ _ => (Tracks.of_except _).bind
      fun target htarget => (hresolved target htarget).bind fun _ _ => Tracks.of_except _) ?_
    rintro column hcolumn key ⟨-, target, htarget, rfl⟩
    simp only [bind_eq_ok_iff] at hcolumn
    obtain ⟨-, -, found, hfound, -⟩ := hcolumn
    have hsame := lookupTarget?_of_referenceTarget hfound
    rw [htarget, Option.some.injEq] at hsame
    exact Or.inr (Or.inr (Or.inl ⟨found, hfound, by rw [hsame]⟩))
  · rw [columnOf_eq_plainColumn (by simpa using hreference)]
    unfold columnOf
    rw [if_neg hreference]
    exact (Tracks.of_except _).mono fun _ _ key h => absurd h.1 hreference

theorem tracks_buildTable {key : Key} (howner : resolver.unit.get? key = some owner)
    (hresolve : ∀ key, Tracks resolver view stack (resolve key) (expected key) (· = key)) :
    Tracks resolver view stack (buildTable resolver resolve owner)
      (buildTable resolver expected owner) (ColumnRefersTo resolver.unit key) := by
  cases hmarker : owner.table with
  | none =>
      rw [buildTable_eq_error hmarker]
      simp only [buildTable, hmarker]
      refine (Tracks.of_except (.error _)).mono ?_
      rintro _ h
      cases h
  | some marker =>
      rw [buildTable_eq_tableOf hmarker]
      simp only [buildTable, hmarker]
      refine Tracks.mono ((Tracks.of_except _).bind fun kind _ =>
        (Tracks.mapM fun property _ => tracks_columnOf hresolve kind property).bind fun columns _ =>
          Tracks.pure _) ?_
      rintro table - target ⟨source, hsource, property, hmem, hreference, hdeclaration⟩
      rw [howner, Option.some.injEq] at hsource
      subst hsource
      exact Or.inr (Or.inl ⟨property, hmem, hreference, hdeclaration⟩)

end Resolve

section ResolveFrom

variable {resolver : Resolver} {stack : List Declaration} {key : Key}
  {session : Session.During stack}

theorem resolveFrom_of_resolved {table : Table}
    (hslot : session.1.slot? key = some (.resolved table)) :
    (resolveFrom resolver stack key).run session = (.ok table, session) := by
  change resolveFrom resolver stack key session = _
  rw [resolveFrom]
  split <;> simp_all

theorem resolveFrom_of_inProgress (hslot : session.1.slot? key = some .inProgress) :
    (resolveFrom resolver stack key).run session =
      (.error (.circularReference (cycleFrom key stack)), session) := by
  change resolveFrom resolver stack key session = _
  rw [resolveFrom]
  split <;> simp_all

theorem resolveFrom_of_get?_eq_none (hslot : session.1.slot? key = none)
    (hnone : resolver.unit.get? key = none) :
    (resolveFrom resolver stack key).run session = (.error (.unreadable key.text), session) := by
  change resolveFrom resolver stack key session = _
  rw [resolveFrom]
  split
  · simp_all
  · simp_all
  · split <;> simp_all

theorem resolveFrom_of_get?_eq_some {declaration : Declaration}
    (hslot : session.1.slot? declaration.key = none)
    (hfound : resolver.unit.get? declaration.key = some declaration) :
    (resolveFrom resolver stack declaration.key).run session =
      let (result, after) :=
        (buildTable resolver (resolveFrom resolver (declaration :: stack)) declaration).run
          (Session.enter session declaration hslot)
      (result, Session.leave after result.toOption) := by
  change resolveFrom resolver stack declaration.key session = _
  rw [resolveFrom]
  split
  · simp_all
  · simp_all
  · split
    · simp_all
    · rename_i other hother
      rw [hfound, Option.some.injEq] at hother
      subst hother
      rfl

/-- A declaration that was not met is entered, built and left. -/
theorem exists_run_of_fresh {declaration : Declaration} (hsound : session.1.Sound resolver)
    (hslot : session.1.slot? declaration.key = none)
    (hfound : resolver.unit.get? declaration.key = some declaration)
    (hrebuild : rebuild resolver stack declaration.key =
      buildTable resolver (rebuild resolver (declaration :: stack)) declaration)
    (hresolve : ∀ key, Tracks resolver Subtype.val (declaration :: stack)
      (resolveFrom resolver (declaration :: stack) key)
      (rebuild resolver (declaration :: stack) key) (· = key)) :
    ∃ after, (resolveFrom resolver stack declaration.key).run session =
        (rebuild resolver stack declaration.key, after) ∧ after.1.Sound resolver ∧
      after.1.Extends session.1 ∧
      ∀ table, rebuild resolver stack declaration.key = .ok table →
        after.1.Keeps declaration.key := by
  obtain ⟨built, hrun, -, hbuilt, hextends, hkeeps⟩ :=
    tracks_buildTable hfound hresolve (Session.enter session declaration hslot) rfl
      hsound.enter
  rw [resolveFrom_of_get?_eq_some hslot hfound, hrun, ← hrebuild]
  refine ⟨_, rfl, ?_, ?_, ?_⟩
  · cases hresult : rebuild resolver stack declaration.key with
    | error error => exact hbuilt.leave_none
    | ok table =>
        refine hbuilt.leave_some hresult fun target hrefers => ?_
        exact hkeeps table (hrebuild ▸ hresult) target hrefers
  · exact Session.extends_enter.trans (hextends.trans (Session.extends_leave _))
  · intro table htable
    refine ⟨table, ?_⟩
    rw [htable]
    exact Session.slot?_leave_self _

/-- Resolution under any stack gives what rebuilding gives under it. -/
theorem tracks_resolveFrom (resolver : Resolver) (stack : List Declaration) (key : Key) :
    Tracks resolver Subtype.val stack (resolveFrom resolver stack key)
      (rebuild resolver stack key) (· = key) := by
  induction stack, key using rebuild.induct resolver with
  | case1 stack key hmem =>
      intro session hstack hsound
      have hslot := (session.1.inProgress_iff key).mpr (by rwa [session.2])
      rw [rebuild_of_mem hmem]
      refine ⟨session, resolveFrom_of_inProgress hslot, hstack, hsound, .refl _, ?_⟩
      intro _ herror
      cases herror
  | case2 stack key hmem hnone =>
      intro session hstack hsound
      have hrebuild := rebuild_of_get?_eq_none hmem hnone
      rcases Session.slot?_cases session hmem with hslot | ⟨table, hslot⟩
      · rw [hrebuild]
        refine ⟨session, resolveFrom_of_get?_eq_none hslot hnone, hstack, hsound, .refl _, ?_⟩
        intro _ herror
        cases herror
      · rw [hsound.rebuild_eq hslot] at hrebuild
        cases hrebuild
  | case3 stack key hmem declaration hfound ih =>
      intro session hstack hsound
      have hkey := key_of_get? hfound
      subst hkey
      rcases Session.slot?_cases session hmem with hslot | ⟨table, hslot⟩
      · obtain ⟨after, hrun, hafter, hextends, hkeeps⟩ := exists_run_of_fresh hsound hslot hfound
          (rebuild_of_get?_eq_some hmem hfound) ih
        refine ⟨after, hrun, after.2, hafter, hextends, ?_⟩
        rintro table htable _ rfl
        exact hkeeps table htable
      · refine ⟨session, ?_, hstack, hsound, .refl _, ?_⟩
        · rw [hsound.rebuild_eq hslot]
          exact resolveFrom_of_resolved hslot
        · rintro _ - _ rfl
          exact ⟨table, hslot⟩

theorem tracks_resolveTable (resolver : Resolver) (stack : List Declaration) (key : Key) :
    Tracks resolver id stack (resolveTable resolver key) (rebuild resolver stack key)
      (· = key) := by
  rintro session rfl hsound
  obtain ⟨after, hrun, -, hafter, hextends, hkeeps⟩ :=
    tracks_resolveFrom resolver session.stack key ⟨session, rfl⟩ rfl hsound
  have hresolve : (resolveTable resolver key).run session =
      (((resolveFrom resolver session.stack key).run ⟨session, rfl⟩).1,
        ((resolveFrom resolver session.stack key).run ⟨session, rfl⟩).2.1) := rfl
  rw [hrun] at hresolve
  exact ⟨after.1, hresolve, after.2, hafter, hextends, hkeeps⟩

theorem resolveTable_empty (resolver : Resolver) (key : Key) :
    ((resolveTable resolver key).run .empty).1 = rebuild resolver [] key := by
  obtain ⟨after, hrun, -⟩ :=
    tracks_resolveTable resolver [] key .empty rfl (Session.sound_empty resolver)
  rw [hrun]

/-- Resolution of all tables rebuilds each of them. -/
theorem tracks_resolveAll (resolver : Resolver) (stack : List Declaration) :
    Tracks resolver id stack (resolveAll resolver)
      (resolver.unit.tables.mapM fun declaration => rebuild resolver stack declaration.key)
      fun key => ∃ declaration ∈ resolver.unit.tables, key = declaration.key :=
  Tracks.mapM fun declaration _ => tracks_resolveTable resolver stack declaration.key

theorem resolveAll_empty (resolver : Resolver) : ((resolveAll resolver).run .empty).1 =
    resolver.unit.tables.mapM fun declaration => rebuild resolver [] declaration.key := by
  obtain ⟨after, hrun, -⟩ :=
    tracks_resolveAll resolver [] .empty rfl (Session.sound_empty resolver)
  rw [hrun]

end ResolveFrom

end EntityTables.Schema
