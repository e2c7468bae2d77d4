import EntityTables.Proofs.Call.Binding
import Mathlib.Data.List.Induction
import Mathlib.Data.List.TakeWhile

/-!
# Which arguments are accepted

Arguments can be bound if and only if they are well-formed. Otherwise the first argument with which
they no longer are tells what is wrong: the arguments in front of it are bound as they would be
alone, and then binding stops with the error of the rule that this argument breaks.
-/

namespace EntityTables.Call

open EntityTables.Syntax

/-- An argument at a place of a call supplies a parameter: the one at its own place, or one of the
name that it gives. -/
inductive Argument.Supplies (function : VirtualFunction) (place : Nat) : Argument → Nat → Prop
  | positional {value : Node} (hplace : place < function.parameters.length) :
    Supplies function place (.positional value) place
  | named {name : String} {value : Node} {position : Nat}
    (hname : function.parameters[position]?.map (·.name) = some name) :
    Supplies function place (.named name value) position

/-- What a call of a function has to keep to. -/
structure WellFormed (function : VirtualFunction) (arguments : List Argument) : Prop where
  /-- No positional argument follows a named one. -/
  positionalFirst : arguments.Pairwise fun first second => first.isNamed → second.isNamed
  /-- There are no more leading positional arguments than parameters. -/
  fits : (arguments.takeWhile fun argument => !argument.isNamed).length ≤
    function.parameters.length
  /-- Every name is that of a parameter. -/
  known : ∀ name value, .named name value ∈ arguments → name ∈ function.parameters.map (·.name)
  /-- No parameter is supplied twice. -/
  once : arguments.zipIdx.Pairwise fun first second => ∀ position,
    first.1.Supplies function first.2 position → ¬ second.1.Supplies function second.2 position

/-- What is wrong with an argument of a call, after the arguments in front of it. -/
inductive Offends (function : VirtualFunction) (arguments before : List Argument) :
    Argument → CallError → Prop
  | positionalAfterNamed {value : Node} (hnamed : ∃ earlier ∈ before, earlier.isNamed) :
    Offends function arguments before (.positional value) (.positionalAfterNamed function.name)
  | tooManyArguments {value : Node} (hpositional : ∀ earlier ∈ before, !earlier.isNamed)
    (hfull : function.parameters.length ≤ before.length) :
    Offends function arguments before (.positional value) (.tooManyArguments function.name
      function.parameters.length (arguments.filter fun argument => !argument.isNamed).length)
  | unknownParameter {name : String} {value : Node}
    (hunknown : name ∉ function.parameters.map (·.name)) :
    Offends function arguments before (.named name value) (.unknownParameter function.name name)
  | duplicateArgument {name : String} {value : Node} {place position : Nat} {earlier : Argument}
    (hearlier : before[place]? = some earlier) (hfirst : earlier.Supplies function place position)
    (hsecond : (Argument.named name value).Supplies function before.length position) :
    Offends function arguments before (.named name value) (.duplicateArgument function.name name)

/-- What binding gives: for each argument, in order, the parameter that it supplies, and its
value. -/
structure Paired (function : VirtualFunction) (arguments : List Argument)
    (bound : List (Nat × Node)) : Prop where
  length : bound.length = arguments.length
  entry : ∀ (place : Nat) (argument : Argument), arguments[place]? = some argument → ∃ position,
    bound[place]? = some (position, argument.value) ∧ argument.Supplies function place position

variable {function : VirtualFunction} {arguments before rest : List Argument} {argument : Argument}
  {bound : List (Nat × Node)} {error : CallError} {place position : Nat}

/-! ### Parameters and their names -/

theorem position?_eq_none_iff {name : String} :
    function.position? name = none ↔ name ∉ function.parameters.map (·.name) := by
  simp [VirtualFunction.position?, List.findIdx?_eq_none_iff]

theorem supplies_of_position? {name : String} {value : Node}
    (hposition : function.position? name = some position) :
    (Argument.named name value).Supplies function place position := by
  obtain ⟨hlt, hname, -⟩ := List.findIdx?_eq_some_iff_getElem.mp hposition
  refine .named ?_
  rw [List.getElem?_eq_getElem hlt, Option.map_some, beq_iff_eq.mp hname]

section Distinct

variable (hdistinct : (function.parameters.map (·.name)).Nodup)
include hdistinct

theorem position?_of_supplies {name : String} {value : Node}
    (hsupplies : (Argument.named name value).Supplies function place position) :
    function.position? name = some position := by
  obtain ⟨⟩ | ⟨hname⟩ := hsupplies
  rw [← List.getElem?_map] at hname
  cases hother : function.position? name with
  | none => exact absurd (List.mem_of_getElem? hname) (position?_eq_none_iff.mp hother)
  | some other =>
      have hfound : (Argument.named name value).Supplies function place other :=
        supplies_of_position? hother
      obtain ⟨⟩ | ⟨hsame⟩ := hfound
      rw [← List.getElem?_map] at hsame
      have hlt : other < (function.parameters.map (·.name)).length :=
        (List.getElem?_eq_some_iff.mp hsame).1
      rw [(List.getElem?_inj hlt hdistinct).mp (hsame.trans hname.symm)]

/-- An argument supplies one parameter at most. -/
theorem Argument.Supplies.unique {other : Nat} (hfirst : argument.Supplies function place position)
    (hsecond : argument.Supplies function place other) : position = other := by
  cases argument with
  | positional value =>
      cases hfirst
      cases hsecond
      rfl
  | named name value =>
      have hposition := position?_of_supplies hdistinct hfirst
      rw [position?_of_supplies hdistinct hsecond] at hposition
      exact (Option.some.inj hposition).symm

/-- What is bound is what the arguments supply. -/
theorem Paired.mem_iff (hpaired : Paired function arguments bound) : position ∈ bound.map (·.1) ↔
    ∃ place argument, arguments[place]? = some argument ∧
      Argument.Supplies function place argument position := by
  rw [List.mem_map]
  constructor
  · rintro ⟨⟨other, value⟩, hmem, rfl⟩
    obtain ⟨place, hlt, hentry⟩ := List.mem_iff_getElem.mp hmem
    have hargument := List.getElem?_eq_getElem (hpaired.length ▸ hlt)
    obtain ⟨own, hown, hsupplies⟩ := hpaired.entry place _ hargument
    rw [List.getElem?_eq_getElem hlt, hentry, Option.some.injEq, Prod.mk.injEq] at hown
    exact ⟨place, _, hargument, hown.1 ▸ hsupplies⟩
  · rintro ⟨place, argument, hargument, hsupplies⟩
    obtain ⟨own, hown, hother⟩ := hpaired.entry place argument hargument
    refine ⟨_, List.mem_of_getElem? hown, ?_⟩
    exact hother.unique hdistinct hsupplies

end Distinct

theorem Paired.nil : Paired function [] [] where
  length := rfl
  entry _ _ h := by simp at h

theorem Paired.concat (hpaired : Paired function before bound)
    (hsupplies : argument.Supplies function before.length position) :
    Paired function (before ++ [argument]) (bound ++ [(position, argument.value)]) where
  length := by rw [List.length_append, List.length_append, hpaired.length]; rfl
  entry place other hother := by
    rcases Nat.lt_trichotomy place before.length with hlt | rfl | hgt
    · rw [List.getElem?_append_left hlt] at hother
      rw [List.getElem?_append_left (hpaired.length ▸ hlt)]
      exact hpaired.entry place other hother
    · rw [List.getElem?_concat_length, Option.some.injEq] at hother
      subst hother
      exact ⟨position, by rw [← hpaired.length, List.getElem?_concat_length], hsupplies⟩
    · rw [List.getElem?_eq_none (by simpa [Nat.succ_le_iff] using hgt)] at hother
      cases hother

/-! ### One more argument -/

theorem wellFormed_nil : WellFormed function [] where
  positionalFirst := .nil
  fits := Nat.zero_le _
  known _ _ hmem := nomatch hmem
  once := .nil

theorem WellFormed.of_concat (hwell : WellFormed function (before ++ [argument])) :
    WellFormed function before where
  positionalFirst := (List.pairwise_append.mp hwell.positionalFirst).1
  fits := by
    refine Nat.le_trans ?_ hwell.fits
    rw [List.takeWhile_append]
    split
    · next hall => rw [hall, List.length_append]; exact Nat.le_add_right _ _
    · exact Nat.le_refl _
  known name value hmem := hwell.known name value (List.mem_append_left _ hmem)
  once := by
    have honce := hwell.once
    rw [List.zipIdx_append] at honce
    exact (List.pairwise_append.mp honce).1

/-- The last of well-formed arguments does not offend. -/
theorem WellFormed.not_offends (hwell : WellFormed function (before ++ [argument])) :
    ¬ Offends function arguments before argument error := by
  intro hoffends
  cases hoffends with
  | positionalAfterNamed hnamed =>
      obtain ⟨earlier, hmem, hnamed⟩ := hnamed
      have hcross := (List.pairwise_append.mp hwell.positionalFirst).2.2
      exact nomatch hcross earlier hmem _ (List.mem_singleton_self _) hnamed
  | tooManyArguments hpositional hfull =>
      have hfits := hwell.fits
      rw [List.takeWhile_append_of_pos hpositional, List.length_append] at hfits
      simp only [List.takeWhile, Argument.isNamed, Bool.not_false, List.length_singleton] at hfits
      omega
  | unknownParameter hunknown =>
      exact hunknown
        (hwell.known _ _ (List.mem_append_right before (List.mem_singleton_self _)))
  | duplicateArgument hearlier hfirst hsecond =>
      have honce := hwell.once
      rw [List.zipIdx_append] at honce
      refine (List.pairwise_append.mp honce).2.2 (_, _) ?_ (_, before.length) ?_ _ hfirst hsecond
      · exact List.mk_mem_zipIdx_iff_getElem?.mpr hearlier
      · simp

/-- An argument that does not offend keeps the arguments well-formed. -/
theorem WellFormed.concat (hwell : WellFormed function before)
    (hoffends : ∀ error, ¬ Offends function arguments before argument error) :
    WellFormed function (before ++ [argument]) where
  positionalFirst := by
    refine List.pairwise_append.mpr ⟨hwell.positionalFirst, List.pairwise_singleton _ _, ?_⟩
    intro earlier hmem later hlater hnamed
    rw [List.mem_singleton.mp hlater]
    cases argument with
    | named name value => rfl
    | positional value => exact (hoffends _ (.positionalAfterNamed ⟨earlier, hmem, hnamed⟩)).elim
  fits := by
    rw [List.takeWhile_append]
    split
    · next hall =>
        have hpositional : ∀ earlier ∈ before, (!earlier.isNamed) = true :=
          List.takeWhile_eq_self_iff.mp ((List.takeWhile_prefix _).eq_of_length hall)
        have hfits := hwell.fits
        rw [hall] at hfits
        cases argument with
        | named name value => simpa [Argument.isNamed] using hfits
        | positional value =>
            have hroom : before.length < function.parameters.length := Nat.lt_of_not_le fun hfull =>
              hoffends _ (.tooManyArguments hpositional hfull)
            simpa [Argument.isNamed, Nat.succ_le_iff] using hroom
    · exact hwell.fits
  known name value hmem := by
    rcases List.mem_append.mp hmem with hmem | hmem
    · exact hwell.known name value hmem
    · by_contra hunknown
      cases List.mem_singleton.mp hmem
      exact hoffends _ (.unknownParameter hunknown)
  once := by
    rw [List.zipIdx_append]
    refine List.pairwise_append.mpr ⟨hwell.once, List.pairwise_singleton _ _, ?_⟩
    rintro ⟨earlier, place⟩ hearlier ⟨later, other⟩ hlater position hfirst hsecond
    rw [List.zipIdx_cons, List.zipIdx_nil, List.mem_singleton, Prod.mk.injEq, Nat.zero_add]
      at hlater
    obtain ⟨rfl, rfl⟩ := hlater
    have hplace := List.mk_mem_zipIdx_iff_getElem?.mp hearlier
    have hbefore := (List.getElem?_eq_some_iff.mp hplace).1
    cases hsecond with
    | named hname => exact hoffends _ (.duplicateArgument hplace hfirst (.named hname))
    | positional hlt =>
        -- Another argument supplies the parameter of this place by its name alone.
        cases hfirst with
        | positional hother => exact (Nat.lt_irrefl _ hbefore).elim
        | named hname =>
            exact hoffends _ (.positionalAfterNamed ⟨_, List.mem_of_getElem? hplace, rfl⟩)

/-! ### Steps of binding -/

section Distinct

variable (hdistinct : (function.parameters.map (·.name)).Nodup)
include hdistinct

/-- An argument that does not offend is bound to the parameter that it supplies. -/
theorem bindFrom_cons_of_not_offends (hpaired : Paired function before bound)
    (hoffends : ∀ error, ¬ Offends function arguments before argument error) (count : Nat) :
    ∃ position, argument.Supplies function before.length position ∧ ∀ rest,
      bindFrom function count before.length (before.any (·.isNamed)) bound (argument :: rest) =
        bindFrom function count (before ++ [argument]).length
          ((before ++ [argument]).any (·.isNamed)) (bound ++ [(position, argument.value)])
            rest := by
  cases argument with
  | positional value =>
      have hunnamed : before.any (·.isNamed) = false := by
        by_contra hnamed
        rw [Bool.not_eq_false, List.any_eq_true] at hnamed
        exact hoffends _ (.positionalAfterNamed hnamed)
      have hpositional : ∀ earlier ∈ before, !earlier.isNamed := by
        simpa [List.any_eq_false] using hunnamed
      have hroom : before.length < function.parameters.length := Nat.lt_of_not_le fun hfull =>
        hoffends _ (.tooManyArguments hpositional hfull)
      refine ⟨before.length, .positional hroom, fun rest => ?_⟩
      rw [List.any_append, hunnamed, List.length_append, bindFrom]
      simp only [Bool.false_eq_true, if_false, ge_iff_le, Nat.not_le.mpr hroom]
      rfl
  | named name value =>
      cases hposition : function.position? name with
      | none => exact (hoffends _ (.unknownParameter (position?_eq_none_iff.mp hposition))).elim
      | some position =>
          have hsupplies : (Argument.named name value).Supplies function before.length position :=
            supplies_of_position? hposition
          have hfree : bound.any (·.1 == position) = false := by
            by_contra htaken
            have hmem : position ∈ bound.map (·.1) := by simpa using htaken
            obtain ⟨place, earlier, hearlier, hfirst⟩ := (hpaired.mem_iff hdistinct).mp hmem
            exact hoffends _ (.duplicateArgument hearlier hfirst hsupplies)
          refine ⟨position, hsupplies, fun rest => ?_⟩
          rw [List.any_append, List.length_append, bindFrom]
          simp only [hposition, hfree, Bool.false_eq_true, if_false]
          rw [List.any_cons, Argument.isNamed, Bool.true_or, Bool.or_true]
          rfl

/-- Binding stops at an argument that offends. -/
theorem bindFrom_cons_of_offends (hpaired : Paired function before bound)
    (hoffends : Offends function arguments before argument error) :
    bindFrom function (arguments.filter fun argument => !argument.isNamed).length before.length
      (before.any (·.isNamed)) bound (argument :: rest) = .error error := by
  cases hoffends with
  | positionalAfterNamed hnamed =>
      rw [bindFrom, List.any_eq_true.mpr hnamed, if_pos rfl]
  | tooManyArguments hpositional hfull =>
      have hunnamed : before.any (·.isNamed) = false := by
        simpa [List.any_eq_false] using hpositional
      rw [bindFrom, hunnamed, if_neg Bool.false_ne_true, if_pos hfull]
  | unknownParameter hunknown =>
      rw [bindFrom, position?_eq_none_iff.mpr hunknown]
  | @duplicateArgument _ _ _ position _ hearlier hfirst hsecond =>
      have hmem := (hpaired.mem_iff hdistinct).mpr ⟨_, _, hearlier, hfirst⟩
      have htaken : bound.any (·.1 == position) = true := by simpa using hmem
      rw [bindFrom, position?_of_supplies hdistinct hsecond]
      simp only [htaken, if_true]

/-! ### Runs of binding -/

/-- Well-formed arguments are bound, whatever follows them. -/
theorem WellFormed.exists_bound (hwell : WellFormed function before) (count : Nat) :
    ∃ bound, Paired function before bound ∧ ∀ rest,
      bindFrom function count 0 false [] (before ++ rest) =
        bindFrom function count before.length (before.any (·.isNamed)) bound rest := by
  induction before using List.reverseRecOn with
  | nil => exact ⟨[], .nil, fun rest => rfl⟩
  | append_singleton before argument ih =>
      obtain ⟨bound, hpaired, hfront⟩ := ih hwell.of_concat
      have hoffends : ∀ error, ¬ Offends function [] before argument error := fun error =>
        hwell.not_offends
      obtain ⟨position, hsupplies, hstep⟩ :=
        bindFrom_cons_of_not_offends hdistinct hpaired hoffends count
      refine ⟨_, hpaired.concat hsupplies, fun rest => ?_⟩
      rw [List.append_assoc, List.singleton_append, hfront, hstep]

theorem WellFormed.exists_bindArguments (hwell : WellFormed function arguments) :
    ∃ bound, Paired function arguments bound ∧ bindArguments function arguments = .ok bound := by
  obtain ⟨bound, hpaired, hall⟩ := hwell.exists_bound hdistinct
    (arguments.filter fun argument => !argument.isNamed).length
  have hrun := hall []
  rw [List.append_nil, bindFrom] at hrun
  exact ⟨bound, hpaired, hrun⟩

/-- Behind well-formed arguments, one that offends decides. -/
theorem bindArguments_of_offends (harguments : arguments = before ++ argument :: rest)
    (hbefore : WellFormed function before)
    (hoffends : Offends function arguments before argument error) :
    bindArguments function arguments = .error error := by
  obtain ⟨bound, hpaired, hfront⟩ := hbefore.exists_bound hdistinct
    (arguments.filter fun argument => !argument.isNamed).length
  have hrun := hfront (argument :: rest)
  rwa [← harguments, bindFrom_cons_of_offends hdistinct hpaired hoffends] at hrun

end Distinct

/-- Among arguments that are not well-formed there is a first one that offends. -/
theorem exists_offends (all : List Argument) (hwell : ¬ WellFormed function arguments) :
    ∃ before argument after error, arguments = before ++ argument :: after ∧
      WellFormed function before ∧ Offends function all before argument error := by
  induction arguments using List.reverseRecOn with
  | nil => exact (hwell wellFormed_nil).elim
  | append_singleton front last ih =>
      by_cases hfront : WellFormed function front
      · by_contra hnone
        have hoffends : ∀ error, ¬ Offends function all front last error := fun error hoffends =>
          hnone ⟨front, last, [], error, rfl, hfront, hoffends⟩
        exact hwell (hfront.concat hoffends)
      · obtain ⟨before, argument, after, error, rfl, hbefore, hoffends⟩ := ih hfront
        refine ⟨before, argument, after ++ [last], error, ?_, hbefore, hoffends⟩
        rw [List.append_assoc, List.cons_append]

/-- **Arguments are accepted if and only if they are well-formed.** Those that are get their
parameters in the order in which they are written, each another one and each one that exists. Those
that are not get the error of the first argument that breaks a rule. -/
theorem bindArguments_decides_wellFormed (hdistinct : (function.parameters.map (·.name)).Nodup)
    (arguments : List Argument) :
    ((∃ bound, bindArguments function arguments = .ok bound) ↔ WellFormed function arguments) ∧
      (∀ bound, bindArguments function arguments = .ok bound → Paired function arguments bound ∧
        (bound.map (·.1)).Nodup ∧
        ∀ position ∈ bound.map (·.1), position < function.parameters.length) ∧
      ∀ error, bindArguments function arguments = .error error ↔
        ∃ before argument after, arguments = before ++ argument :: after ∧
          WellFormed function before ∧ Offends function arguments before argument error := by
  have hrefused : ¬ WellFormed function arguments → ∃ before argument after error,
      arguments = before ++ argument :: after ∧ WellFormed function before ∧
        Offends function arguments before argument error ∧
        bindArguments function arguments = .error error := by
    intro hwell
    obtain ⟨before, argument, after, error, harguments, hbefore, hoffends⟩ :=
      exists_offends arguments hwell
    exact ⟨before, argument, after, error, harguments, hbefore, hoffends,
      bindArguments_of_offends hdistinct harguments hbefore hoffends⟩
  have hwell : ∀ bound, bindArguments function arguments = .ok bound →
      WellFormed function arguments := by
    intro bound hok
    by_contra hnot
    obtain ⟨_, _, _, _, -, -, -, herror⟩ := hrefused hnot
    exact nomatch hok.symm.trans herror
  refine ⟨⟨fun ⟨bound, hok⟩ => hwell bound hok, fun hwell => ?_⟩, fun bound hok => ?_,
    fun error => ⟨fun herror => ?_, ?_⟩⟩
  · obtain ⟨bound, -, hok⟩ := hwell.exists_bindArguments hdistinct
    exact ⟨bound, hok⟩
  · obtain ⟨own, hpaired, hown⟩ := (hwell bound hok).exists_bindArguments hdistinct
    obtain rfl : bound = own := Except.ok.inj (hok.symm.trans hown)
    obtain ⟨htargets, -, hnodup, hrange⟩ := bindArguments_ok hok
    exact ⟨hpaired, htargets ▸ hnodup, htargets ▸ hrange⟩
  · have hnot : ¬ WellFormed function arguments := by
      intro hwell
      obtain ⟨_, -, hok⟩ := hwell.exists_bindArguments hdistinct
      exact nomatch hok.symm.trans herror
    obtain ⟨before, argument, after, other, harguments, hbefore, hoffends, hother⟩ := hrefused hnot
    obtain rfl : error = other := Except.error.inj (herror.symm.trans hother)
    exact ⟨before, argument, after, harguments, hbefore, hoffends⟩
  · rintro ⟨before, argument, after, harguments, hbefore, hoffends⟩
    exact bindArguments_of_offends hdistinct harguments hbefore hoffends

/-- A function of three parameters. -/
def hire : VirtualFunction where
  name := "hire"
  container := "crate::staff"
  receiver := false
  parameters := [⟨"id", namedType "i32"⟩, ⟨"name", namedType "String"⟩,
    ⟨"job", optionOf (namedType "String")⟩]
  output := .empty .returnType

/-- A name may follow a position, but not give the same parameter again. -/
theorem bindArguments_decides_wellFormed_hire :
    WellFormed hire [.positional (wordExpr 1), .named "job" (wordExpr 2)] ∧
      ∃ before argument after,
        [.positional (wordExpr 1), .named "id" (wordExpr 2)] = before ++ argument :: after ∧
        WellFormed hire before ∧ Offends hire [.positional (wordExpr 1), .named "id" (wordExpr 2)]
          before argument (.duplicateArgument "hire" "id") := by
  have hdistinct : (hire.parameters.map (·.name)).Nodup := by decide
  obtain ⟨haccepted, -, -⟩ := bindArguments_decides_wellFormed hdistinct
    [.positional (wordExpr 1), .named "job" (wordExpr 2)]
  obtain ⟨-, -, hrefused⟩ := bindArguments_decides_wellFormed hdistinct
    [.positional (wordExpr 1), .named "id" (wordExpr 2)]
  exact ⟨haccepted.mp ⟨_, rfl⟩, (hrefused _).mp rfl⟩

end EntityTables.Call
