import EntityTables.Syntax.Grammar.Basic
import Mathlib.Data.List.Basic

/-!
# Runs of parsers

When the parsers that all productions are made of succeed, what they read then and what they leave.
A parser yields a property if all that it reads has it, whatever the parser starts from; what a
production yields follows from what its parts yield.
-/

namespace EntityTables.Syntax

open EntityTables.Syntax.Parser

/-! ### Runs that succeed -/

section Running

variable {α β : Type} {parser : Parser α} {next : α → Parser β} {input rest : Input}

theorem run_bind_eq_ok {result : β} : (parser >>= next).run input = .ok (result, rest) ↔
    ∃ read middle, parser.run input = .ok (read, middle) ∧
      (next read).run middle = .ok (result, rest) := by
  rw [StateT.run_bind]
  cases hfirst : parser.run input with
  | error error => simp [bind, Except.bind]
  | ok first =>
      obtain ⟨read, middle⟩ := first
      simp [bind, Except.bind]

theorem run_peek (question : Input → α) : (peek question).run input = .ok (question input, input) :=
  rfl

theorem discard_eq (parser : Parser α) : discard parser = parser >>= fun _ => pure () := by
  rw [Functor.discard, LawfulFunctor.map_const, bind_pure_comp]
  rfl

theorem run_discard_eq_ok {read : Unit} : (discard parser).run input = .ok (read, rest) ↔
    ∃ own, parser.run input = .ok (own, rest) := by
  rw [discard_eq, run_bind_eq_ok]
  constructor
  · rintro ⟨own, middle, hread, hpure⟩
    cases hpure
    exact ⟨own, hread⟩
  · rintro ⟨own, hread⟩
    exact ⟨own, rest, hread, rfl⟩

theorem run_guard_eq_ok {condition : Bool} {read : Unit} :
    (Parser.guard condition).run input = .ok (read, rest) ↔ condition = true ∧ rest = input := by
  cases condition with
  | false => exact ⟨nofun, nofun⟩
  | true =>
      constructor
      · intro hrun
        cases hrun
        exact ⟨rfl, rfl⟩
      · rintro ⟨-, rfl⟩
        rfl

theorem run_any_eq_ok {read : Node} : any.run input = .ok (read, rest) ↔ input = read :: rest := by
  cases input with
  | nil => exact ⟨nofun, nofun⟩
  | cons node others =>
      constructor
      · intro hrun
        cases hrun
        rfl
      · intro heq
        cases heq
        rfl

theorem run_when_eq_ok {test : Input → Bool} {read : Node} :
    (Parser.when test).run input = .ok (read, rest) ↔ test input = true ∧ input = read :: rest := by
  unfold Parser.when
  simp only [run_bind_eq_ok, run_peek, run_guard_eq_ok, run_any_eq_ok]
  constructor
  · rintro ⟨_, _, heq, _, _, ⟨htest, rfl⟩, rfl⟩
    cases heq
    exact ⟨htest, rfl⟩
  · rintro ⟨htest, rfl⟩
    exact ⟨_, _, rfl, (), _, ⟨htest, rfl⟩, rfl⟩

theorem run_punctOr_eq_ok {error : SyntaxError} {operator : String} {read : Node} :
    (punctOr error operator).run input = .ok (read, rest) ↔
      input.startsPunct operator = true ∧ read = .punct operator ∧
        rest = input.drop operator.length := by
  unfold punctOr
  simp only [run_bind_eq_ok, run_peek, Except.ok.injEq, Prod.mk.injEq]
  cases hstarts : input.startsPunct operator with
  | false =>
      constructor
      · rintro ⟨_, _, ⟨rfl, rfl⟩, hrun⟩
        cases hrun
      · exact nofun
  | true =>
      constructor
      · rintro ⟨_, _, ⟨rfl, rfl⟩, hrun⟩
        cases hrun
        exact ⟨rfl, rfl, rfl⟩
      · rintro ⟨-, rfl, rfl⟩
        exact ⟨_, _, ⟨rfl, rfl⟩, rfl⟩

theorem run_within_eq_ok {body : List Node} {read : α} :
    (within body parser).run input = .ok (read, rest) ↔
      parser.run body = .ok (read, []) ∧ rest = input := by
  unfold within
  rcases hbody : parser.run body with error | ⟨result, left⟩
  · exact ⟨nofun, nofun⟩
  · cases left with
    | cons node others => exact ⟨nofun, nofun⟩
    | nil =>
        constructor
        · intro hrun
          cases hrun
          exact ⟨rfl, rfl⟩
        · rintro ⟨hsame, rfl⟩
          cases hsame
          rfl

theorem run_group_eq_ok {delimiter : Delimiter} {parser : Parser (List Node)} {read : Node} :
    (group delimiter parser).run input = .ok (read, rest) ↔
      ∃ body parts, input = .group delimiter body :: rest ∧ parser.run body = .ok (parts, []) ∧
        read = .group delimiter parts := by
  constructor
  · intro hrun
    obtain ⟨_, _, hget, hrun⟩ := run_bind_eq_ok.mp hrun
    cases hget
    split at hrun
    · obtain ⟨_, _, hguard, hrun⟩ := run_bind_eq_ok.mp hrun
      obtain ⟨hown, rfl⟩ := run_guard_eq_ok.mp hguard
      obtain ⟨parts, _, hwithin, hrun⟩ := run_bind_eq_ok.mp hrun
      obtain ⟨hbody, rfl⟩ := run_within_eq_ok.mp hwithin
      cases hrun
      rw [eq_of_beq hown]
      exact ⟨_, parts, rfl, hbody, rfl⟩
    · cases hrun
  · rintro ⟨body, parts, rfl, hbody, rfl⟩
    refine run_bind_eq_ok.mpr ⟨.group delimiter body :: rest, _, rfl, ?_⟩
    refine run_bind_eq_ok.mpr ⟨(), _, run_guard_eq_ok.mpr ⟨beq_self_eq_true delimiter, rfl⟩, ?_⟩
    exact run_bind_eq_ok.mpr ⟨parts, _, run_within_eq_ok.mpr ⟨hbody, rfl⟩, rfl⟩

theorem run_one_eq_ok {parser : Parser Node} {read : List Node} :
    (one parser).run input = .ok (read, rest) ↔
      ∃ node, read = [node] ∧ parser.run input = .ok (node, rest) := by
  unfold one
  rw [run_bind_eq_ok]
  constructor
  · rintro ⟨node, middle, hnode, hpure⟩
    cases hpure
    exact ⟨node, rfl, hnode⟩
  · rintro ⟨node, rfl, hnode⟩
    exact ⟨node, rest, hnode, rfl⟩

/-- The characters of an operator are tokens of their own, all but the last of them joint. -/
theorem startsChars_cons {c : Char} {chars : List Char}
    (hstarts : input.startsChars (c :: chars) = true) :
    ∃ joint rest, input = .leaf (.punct (String.singleton c) joint) :: rest ∧
      (chars ≠ [] → joint = true ∧ Input.startsChars rest chars = true) := by
  unfold Input.startsChars at hstarts
  split at hstarts
  · next heq => cases heq
  · next heq =>
      cases heq
      exact ⟨_, _, by rw [beq_iff_eq.mp hstarts], fun hne => absurd rfl hne⟩
  · next heq =>
      cases heq
      simp only [Bool.and_eq_true, beq_iff_eq] at hstarts
      exact ⟨_, _, by rw [hstarts.1.1], fun _ => ⟨hstarts.1.2, hstarts.2⟩⟩
  · cases hstarts

end Running

/-! ### Repetition -/

/-- A parser that succeeds leaves less than it started from. -/
def Consumes {α : Type} (parser : Parser α) : Prop :=
  ∀ {input read rest}, parser.run input = .ok (read, rest) → rest.length < input.length

section Repetition

variable {step : Parser (Option (List Node))} {steps steps' : Nat} {done read : List Node}
  {input rest : Input}

/-- What was read before the rounds stays in front of what they read. -/
theorem run_repeatWithin_eq_ok : (repeatWithin steps step done).run input = .ok (read, rest) ↔
    ∃ more, (repeatWithin steps step []).run input = .ok (more, rest) ∧
      read = done.reverse ++ more := by
  induction steps generalizing done input read with
  | zero =>
      constructor
      · intro hrun
        cases hrun
        exact ⟨[], rfl, (List.append_nil _).symm⟩
      · rintro ⟨more, hmore, rfl⟩
        cases hmore
        rw [List.reverse_nil, List.append_nil]
        rfl
  | succ steps ih =>
      unfold repeatWithin
      constructor
      · intro hrun
        obtain ⟨found, middle, hstep, hrest⟩ := run_bind_eq_ok.mp hrun
        cases found with
        | none =>
            cases hrest
            exact ⟨[], run_bind_eq_ok.mpr ⟨none, _, hstep, rfl⟩, (List.append_nil _).symm⟩
        | some nodes =>
            obtain ⟨more, hmore, rfl⟩ := ih.mp hrest
            refine ⟨nodes ++ more, run_bind_eq_ok.mpr ⟨some nodes, _, hstep, ?_⟩, by simp⟩
            exact ih.mpr ⟨more, hmore, by simp⟩
      · rintro ⟨more, hmore, rfl⟩
        obtain ⟨found, middle, hstep, hrest⟩ := run_bind_eq_ok.mp hmore
        cases found with
        | none =>
            cases hrest
            exact run_bind_eq_ok.mpr ⟨none, _, hstep, by rw [List.reverse_nil, List.append_nil]; rfl⟩
        | some nodes =>
            obtain ⟨others, hothers, rfl⟩ := ih.mp hrest
            exact run_bind_eq_ok.mpr ⟨some nodes, _, hstep, ih.mpr ⟨others, hothers, by simp⟩⟩

/-- Rounds that are not needed change nothing. -/
theorem run_repeatWithin_congr
    (hstep : ∀ {input nodes rest}, step.run input = .ok (some nodes, rest) →
      rest.length < input.length)
    (hsteps : input.length < steps) (hsteps' : input.length < steps') :
    (repeatWithin steps step done).run input = (repeatWithin steps' step done).run input := by
  induction steps generalizing steps' input done with
  | zero => exact absurd hsteps (Nat.not_lt_zero _)
  | succ fewer ih =>
      obtain ⟨fewer', rfl⟩ : ∃ fewer', steps' = fewer' + 1 := ⟨steps' - 1, by omega⟩
      unfold repeatWithin
      rw [StateT.run_bind, StateT.run_bind]
      rcases hfound : step.run input with error | ⟨found, middle⟩
      · rfl
      · cases found with
        | none => rfl
        | some nodes =>
            have hshorter : middle.length < input.length := hstep hfound
            have hfewer : middle.length < fewer := by omega
            have hfewer' : middle.length < fewer' := by omega
            exact ih hfewer hfewer'

/-- A repetition stops, or it makes one step and goes on. -/
theorem run_repeated_eq_ok
    (hstep : ∀ {input nodes rest}, step.run input = .ok (some nodes, rest) →
      rest.length < input.length) :
    (repeated step).run input = .ok (read, rest) ↔
      (step.run input = .ok (none, rest) ∧ read = []) ∨
        ∃ nodes middle more, step.run input = .ok (some nodes, middle) ∧
          (repeated step).run middle = .ok (more, rest) ∧ read = nodes ++ more := by
  have hrepeated : ∀ input, (repeated step).run input =
      (repeatWithin (input.length + 1) step []).run input := fun _ => rfl
  rw [hrepeated]
  unfold repeatWithin
  constructor
  · intro hrun
    obtain ⟨found, middle, hfound, hrest⟩ := run_bind_eq_ok.mp hrun
    cases found with
    | none =>
        cases hrest
        exact .inl ⟨hfound, rfl⟩
    | some nodes =>
        obtain ⟨more, hmore, rfl⟩ := run_repeatWithin_eq_ok.mp hrest
        rw [run_repeatWithin_congr hstep (hstep hfound) (Nat.lt_succ_self _)] at hmore
        exact .inr ⟨nodes, middle, more, hfound, hmore, by simp⟩
  · rintro (⟨hfound, rfl⟩ | ⟨nodes, middle, more, hfound, hmore, rfl⟩)
    · exact run_bind_eq_ok.mpr ⟨none, _, hfound, rfl⟩
    · rw [hrepeated, run_repeatWithin_congr hstep (Nat.lt_succ_self _) (hstep hfound)] at hmore
      refine run_bind_eq_ok.mpr ⟨some nodes, _, hfound, run_repeatWithin_eq_ok.mpr ?_⟩
      exact ⟨more, hmore, by simp⟩

/-- A repetition that cannot start reads nothing. -/
theorem run_many_of_eq_false {test : Input → Bool} {part : Parser (List Node)}
    (htest : test input = false) : (many test part).run input = .ok ([], input) := by
  refine run_bind_eq_ok.mpr ⟨input, input, rfl, run_bind_eq_ok.mpr ⟨none, input, ?_, rfl⟩⟩
  refine run_bind_eq_ok.mpr ⟨test input, input, rfl, ?_⟩
  rw [htest]
  rfl

/-- A repetition ends with a part that leaves nothing, if nothing is no part. -/
theorem run_many_of_last {test : Input → Bool} {part : Parser (List Node)} {nodes : List Node}
    (htest : test input = true) (hend : test [] = false)
    (hpart : part.run input = .ok (nodes, [])) :
    (many test part).run input = .ok (nodes, []) := by
  obtain ⟨first, others, rfl⟩ : ∃ first others, input = first :: others := by
    cases input with
    | nil => exact absurd (htest.symm.trans hend) (by decide)
    | cons first others => exact ⟨first, others, rfl⟩
  refine run_bind_eq_ok.mpr ⟨_, _, rfl, run_bind_eq_ok.mpr ⟨some nodes, [], ?_, ?_⟩⟩
  · refine run_bind_eq_ok.mpr ⟨_, _, rfl, ?_⟩
    rw [htest]
    exact run_bind_eq_ok.mpr ⟨nodes, [], hpart, rfl⟩
  · have hdone : (nodes.reverse ++ []).reverse = nodes := by simp
    refine run_bind_eq_ok.mpr ⟨none, [], run_bind_eq_ok.mpr ⟨_, _, rfl, ?_⟩, ?_⟩
    · rw [hend]
      rfl
    · dsimp only
      rw [hdone]
      rfl

theorem run_many_eq_ok {test : Input → Bool} {part : Parser (List Node)} (hpart : Consumes part) :
    (many test part).run input = .ok (read, rest) ↔
      (test input = false ∧ read = [] ∧ rest = input) ∨
        (test input = true ∧ ∃ nodes middle more, part.run input = .ok (nodes, middle) ∧
          (many test part).run middle = .ok (more, rest) ∧ read = nodes ++ more) := by
  have hstep : ∀ {input found rest}, (do
      if (← peek test) then return some (← part) else return none :
        Parser (Option (List Node))).run input = .ok (found, rest) ↔
      (test input = false ∧ found = none ∧ rest = input) ∨
        (test input = true ∧ ∃ nodes, part.run input = .ok (nodes, rest) ∧ found = some nodes) := by
    intro input found rest
    simp only [run_bind_eq_ok, run_peek, Except.ok.injEq, Prod.mk.injEq]
    cases htest : test input with
    | false =>
        constructor
        · rintro ⟨_, _, ⟨rfl, rfl⟩, hrun⟩
          cases hrun
          exact .inl ⟨rfl, rfl, rfl⟩
        · rintro (⟨-, rfl, rfl⟩ | ⟨hother, -⟩)
          · exact ⟨_, _, ⟨rfl, rfl⟩, rfl⟩
          · cases hother
    | true =>
        constructor
        · rintro ⟨_, _, ⟨rfl, rfl⟩, hrun⟩
          obtain ⟨nodes, _, hnodes, hpure⟩ := run_bind_eq_ok.mp hrun
          cases hpure
          exact .inr ⟨rfl, nodes, hnodes, rfl⟩
        · rintro (⟨hother, -⟩ | ⟨-, nodes, hnodes, rfl⟩)
          · cases hother
          · exact ⟨_, _, ⟨rfl, rfl⟩, run_bind_eq_ok.mpr ⟨nodes, rest, hnodes, rfl⟩⟩
  unfold many
  rw [run_repeated_eq_ok]
  · constructor
    · rintro (⟨hrun, rfl⟩ | ⟨nodes, middle, more, hrun, hmore, rfl⟩)
      · rcases hstep.mp hrun with ⟨htest, -, rfl⟩ | ⟨-, _, -, hother⟩
        · exact .inl ⟨htest, rfl, rfl⟩
        · cases hother
      · rcases hstep.mp hrun with ⟨-, hother, -⟩ | ⟨htest, _, hnodes, hsome⟩
        · cases hother
        · cases hsome
          exact .inr ⟨htest, nodes, middle, more, hnodes, hmore, rfl⟩
    · rintro (⟨htest, rfl, rfl⟩ | ⟨htest, nodes, middle, more, hnodes, hmore, rfl⟩)
      · exact .inl ⟨hstep.mpr (.inl ⟨htest, rfl, rfl⟩), rfl⟩
      · exact .inr ⟨nodes, middle, more, hstep.mpr (.inr ⟨htest, nodes, hnodes, rfl⟩), hmore, rfl⟩
  · intro input nodes rest hrun
    rcases hstep.mp hrun with ⟨-, hother, -⟩ | ⟨-, own, hown, -⟩
    · cases hother
    · exact hpart hown

end Repetition

/-! ### What parsers yield -/

/-- What a parser reads has a property, whatever it starts from. -/
structure Yields {α : Type} (P : α → Prop) (parser : Parser α) : Prop where
  of_run : ∀ {input read rest}, parser.run input = .ok (read, rest) → P read

/-- All trees of a list have a property. -/
abbrev All (P : Node → Prop) (nodes : List Node) : Prop := ∀ node ∈ nodes, P node

namespace Yields

section Control

variable {α β : Type} {P Q : α → Prop} {R : β → Prop} {parser other : Parser α}
  {next : α → Parser β}

theorem always (parser : Parser α) : Yields (fun _ => True) parser := ⟨fun _ => True.intro⟩

theorem pure {read : α} (hread : P read) : Yields P (pure read : Parser α) where
  of_run hrun := by
    cases hrun
    exact hread

theorem refuse : Yields P Parser.refuse := ⟨fun hrun => nomatch hrun⟩

theorem mono (hparser : Yields P parser) (himp : ∀ read, P read → Q read) : Yields Q parser :=
  ⟨fun hrun => himp _ (hparser.of_run hrun)⟩

theorem bind (hparser : Yields P parser) (hnext : ∀ read, P read → Yields R (next read)) :
    Yields R (parser >>= next) where
  of_run hrun := by
    obtain ⟨read, _, hparser', hnext'⟩ := run_bind_eq_ok.mp hrun
    exact (hnext read (hparser.of_run hparser')).of_run hnext'

/-- What is read at the end has the property, whatever the parser before it reads. -/
theorem after (hnext : ∀ read, Yields R (next read)) : Yields R (parser >>= next) :=
  (always parser).bind fun read _ => hnext read

theorem ite {condition : Prop} [Decidable condition] (hthen : condition → Yields P parser)
    (helse : ¬condition → Yields P other) : Yields P (if condition then parser else other) := by
  by_cases hcondition : condition
  · rw [if_pos hcondition]
    exact hthen hcondition
  · rw [if_neg hcondition]
    exact helse hcondition

theorem peek (question : Input → α) :
    Yields (fun read => ∃ input, read = question input) (Parser.peek question) where
  of_run {input _ _} hrun := by
    cases hrun
    exact ⟨input, rfl⟩

theorem within (hparser : Yields P parser) (body : List Node) :
    Yields P (Parser.within body parser) :=
  ⟨fun hrun => hparser.of_run (run_within_eq_ok.mp hrun).1⟩

theorem attempt (hparser : Yields P parser) :
    Yields (fun read => ∀ found, read = some found → P found) (Parser.attempt parser) where
  of_run {input _ _} hrun found hfound := by
    obtain ⟨_, _, hget, hrun⟩ := run_bind_eq_ok.mp hrun
    cases hget
    rcases hown : parser.run input with error | ⟨own, rest⟩
    · rw [hown] at hrun
      cases hrun
      cases hfound
    · rw [hown] at hrun
      cases hrun
      cases hfound
      exact hparser.of_run hown

end Control

section Trees

variable {P : Node → Prop} {parser : Parser (List Node)}

theorem when {test : Input → Bool} (htest : ∀ node rest, test (node :: rest) = true → P node) :
    Yields P (Parser.when test) where
  of_run hrun := by
    obtain ⟨htested, rfl⟩ := run_when_eq_ok.mp hrun
    exact htest _ _ htested

theorem punctOr (error : SyntaxError) (operator : String) :
    Yields (· = .punct operator) (Parser.punctOr error operator) :=
  ⟨fun hrun => (run_punctOr_eq_ok.mp hrun).2.1⟩

theorem punct (operator : String) : Yields (· = .punct operator) (Parser.punct operator) :=
  punctOr .unexpected operator

theorem word (word : String) : Yields (· = .ident word) (Parser.word word) := by
  refine when fun node rest hstarts => ?_
  unfold Input.startsWord at hstarts
  split at hstarts
  · next name _ heq =>
      cases heq
      rw [eq_of_beq hstarts]
      rfl
  · cases hstarts

theorem name : Yields (fun read => ∃ name, read = .leaf (.ident name) ∧ isName name = true)
    Parser.name := by
  refine when fun node rest hstarts => ?_
  unfold Input.startsName at hstarts
  split at hstarts
  · next name _ heq =>
      cases heq
      exact ⟨name, rfl, hstarts⟩
  · cases hstarts

theorem one {parser : Parser Node} (hparser : Yields P parser) :
    Yields (All P) (Parser.one parser) :=
  hparser.bind fun _ hread => .pure fun _ hmem => List.mem_singleton.mp hmem ▸ hread

theorem orNothing (test : Input → Bool) {R : List Node → Prop} (hparser : Yields R parser) :
    Yields (fun read => read = [] ∨ R read) (Parser.orNothing test parser) := by
  refine .after fun starts => .ite (fun _ => ?_) fun _ => .pure (Or.inl rfl)
  exact hparser.mono fun _ => Or.inr

theorem group (delimiter : Delimiter) {R : List Node → Prop} (hparser : Yields R parser) :
    Yields (fun read => ∃ parts, read = .group delimiter parts ∧ R parts)
      (Parser.group delimiter parser) where
  of_run hrun := by
    obtain ⟨_, parts, -, hbody, rfl⟩ := run_group_eq_ok.mp hrun
    exact ⟨parts, rfl, hparser.of_run hbody⟩

theorem repeatWithin {step : Parser (Option (List Node))}
    (hstep : Yields (fun read => ∀ nodes, read = some nodes → All P nodes) step) (steps : Nat)
    {done : List Node} (hdone : All P done) :
    Yields (All P) (Parser.repeatWithin steps step done) := by
  have hreverse {nodes : List Node} (hnodes : All P nodes) : All P nodes.reverse :=
    fun node hmem => hnodes node (List.mem_reverse.mp hmem)
  induction steps generalizing done with
  | zero => exact .pure (hreverse hdone)
  | succ steps ih =>
      refine hstep.bind fun read hread => ?_
      cases read with
      | none => exact .pure (hreverse hdone)
      | some nodes =>
          apply ih
          intro node hmem
          rcases List.mem_append.mp hmem with hnew | hold
          · exact hreverse (hread nodes rfl) node hnew
          · exact hdone node hold

theorem repeated {step : Parser (Option (List Node))}
    (hstep : Yields (fun read => ∀ nodes, read = some nodes → All P nodes) step) :
    Yields (All P) (Parser.repeated step) :=
  .after fun _ => repeatWithin hstep _ fun _ hmem => nomatch hmem

theorem many (test : Input → Bool) (hpart : Yields (All P) parser) :
    Yields (All P) (Parser.many test parser) := by
  refine repeated (.after fun goesOn => .ite (fun _ => ?_) fun _ => .pure nofun)
  refine hpart.bind fun nodes hnodes => .pure ?_
  rintro _ ⟨⟩
  exact hnodes

/-- The trees of a list with commas are its parts and the commas. -/
theorem commaList (hpart : Yields (All P) parser) :
    Yields (All fun node => node = .punct "," ∨ P node) (Parser.commaList parser) := by
  have hown := hpart.mono fun nodes hnodes => (fun node hmem => Or.inr (hnodes node hmem) :
    All (fun node => node = .punct "," ∨ P node) nodes)
  refine repeated (.after fun ends => .ite (fun _ => .pure nofun) fun _ => ?_)
  refine hown.bind fun nodes hnodes => .after fun ends => .ite (fun _ => .pure ?_) fun _ => ?_
  · rintro _ ⟨⟩
    exact hnodes
  · refine (punctOr _ _).bind fun comma hcomma => .pure ?_
    rintro _ ⟨⟩ node hmem
    rcases List.mem_append.mp hmem with hmem | hmem
    · exact hnodes node hmem
    · exact Or.inl ((List.mem_singleton.mp hmem).trans hcomma)

end Trees

end Yields

end EntityTables.Syntax
