import EntityTables.Proofs.Syntax.Form
import EntityTables.Proofs.Syntax.Running
import EntityTables.Syntax.Grammar
import Mathlib

/-!
# What parsers read

A parser that starts on unread trees leaves unread trees, and what it reads is well-formed. Such a
fact about a production is a triple; those of the parsers that all productions are made of are here.
-/

namespace EntityTables.Syntax

open EntityTables.Syntax.Parser Std.Do

set_option mvcgen.warning false

/-- On unread trees a parser fails, or it leaves unread trees and what it reads has a property. -/
abbrev Reads {α : Type} (formed : α → Prop) (parser : Parser α) : Prop :=
  ⦃fun input => ⌜isUnreadAll input = true⌝⦄ parser
  ⦃⇓? read rest => ⌜formed read ∧ isUnreadAll rest = true⌝⦄

/-- The property that a tree is well-formed. -/
abbrev Formed (node : Node) : Prop := wellFormed node = true

abbrev FormedAll (nodes : List Node) : Prop := wellFormedAll nodes = true

/-- A well-formed tree that is no assignment. -/
@[grind]
def IsOperand (node : Node) : Prop := Formed node ∧ node.is .assignExpr = false

section Runs

variable {α : Type} {formed : α → Prop} {parser : Parser α}

theorem reads_iff : Reads formed parser ↔ ∀ input read rest, isUnreadAll input = true →
    parser.run input = .ok (read, rest) → formed read ∧ isUnreadAll rest = true := by
  have hwp : ∀ input, (wp⟦parser⟧ (PostCond.mayThrow fun read rest =>
      ⌜formed read ∧ isUnreadAll rest = true⌝) input).down ↔
        ∀ read rest, parser.run input = .ok (read, rest) →
          formed read ∧ isUnreadAll rest = true := by
    intro input
    change (wp⟦parser.run input⟧ (PostCond.mayThrow fun result =>
      ⌜formed result.1 ∧ isUnreadAll result.2 = true⌝)).down ↔ _
    cases parser.run input with
    | error error => exact ⟨fun _ => nofun, fun _ => True.intro⟩
    | ok result =>
        refine ⟨fun hread read rest heq => ?_, fun hruns => hruns _ _ rfl⟩
        cases heq
        exact hread
  constructor
  · intro hreads input read rest hunread hrun
    exact (hwp input).mp (hreads input hunread) read rest hrun
  · intro hruns input hunread
    exact (hwp input).mpr fun read rest => hruns input read rest hunread

theorem reads_bind {β : Type} {next : α → Parser β} {result : β → Prop}
    (hparser : Reads formed parser) (hnext : ∀ read, formed read → Reads result (next read)) :
    Reads result (parser >>= next) := by
  mvcgen [hparser]
  exact fun rest hread => hnext _ hread rest

theorem reads_get {next : Input → Parser α}
    (hnext : ∀ input, isUnreadAll input = true → Reads formed (next input)) :
    Reads formed (get >>= next) := by
  intro input hunread
  exact hnext input hunread input hunread

end Runs

section Tokens

attribute [spec] discard_eq

@[spec]
theorem any_reads : Reads (isUnread · = true) any := by
  mvcgen [any]
  grind -ring -linarith

@[spec]
theorem refuseFor_reads {α : Type} (error : SyntaxError) :
    Reads (fun _ => False) (@refuseFor α error) := by
  intro input _
  exact True.intro

@[spec]
theorem refuse_reads {α : Type} : Reads (fun _ => False) (@refuse α) :=
  refuseFor_reads .unexpected

@[spec]
theorem peek_reads {α : Type} (question : Input → α) : Reads (fun _ => True) (peek question) := by
  mvcgen [peek]

@[spec]
theorem guard_reads (condition : Bool) :
    Reads (fun _ => condition = true) (Parser.guard condition) := by
  mvcgen [Parser.guard]
  grind -ring -linarith

/-- The tree that comes next passes the test. -/
theorem when_reads (test : Input → Bool) :
    Reads (fun node => isUnread node = true ∧ ∃ rest, test (node :: rest) = true) (when test) := by
  mvcgen [when, peek, Parser.guard, any]
  all_goals grind -ring -linarith

/-- A tree that is a word alone. -/
abbrev IsWord (node : Node) : Prop := ∃ name, node = .leaf (.ident name) ∧ isWord name = true

theorem when_reads_word {test : Input → Bool}
    (htest : ∀ input, test input = true → ∃ name rest, input = .leaf (.ident name) :: rest) :
    Reads IsWord (when test) := by
  mvcgen [when_reads]
  all_goals grind -ring -linarith

theorem exists_word_of_startsAnyWord {input : Input} (hstarts : input.startsAnyWord = true) :
    ∃ name rest, input = .leaf (.ident name) :: rest := by
  unfold Input.startsAnyWord at hstarts
  split at hstarts
  · exact ⟨_, _, rfl⟩
  · cases hstarts

theorem exists_word_of_startsWord {input : Input} {word : String}
    (hstarts : input.startsWord word = true) :
    ∃ name rest, input = .leaf (.ident name) :: rest := by
  unfold Input.startsWord at hstarts
  split at hstarts
  · exact ⟨_, _, rfl⟩
  · cases hstarts

theorem exists_word_of_startsName {input : Input} (hstarts : input.startsName = true) :
    ∃ name rest, input = .leaf (.ident name) :: rest := by
  unfold Input.startsName at hstarts
  split at hstarts
  · exact ⟨_, _, rfl⟩
  · cases hstarts

theorem exists_word_of_startsPathWord {input : Input} (hstarts : input.startsPathWord = true) :
    ∃ name rest, input = .leaf (.ident name) :: rest := by
  rw [Input.startsPathWord, Bool.or_eq_true] at hstarts
  rcases hstarts with hname | hwords
  · exact exists_word_of_startsName hname
  · obtain ⟨word, -, hword⟩ := List.any_eq_true.mp hwords
    exact exists_word_of_startsWord hword

@[spec]
theorem anyWord_reads : Reads IsWord anyWord :=
  when_reads_word fun _ => exists_word_of_startsAnyWord

@[spec]
theorem word_reads (word : String) : Reads IsWord (Parser.word word) :=
  when_reads_word fun _ => exists_word_of_startsWord

@[spec]
theorem name_reads : Reads IsWord name := when_reads_word fun _ => exists_word_of_startsName

theorem pathWord_reads : Reads IsWord (when (·.startsPathWord)) :=
  when_reads_word fun _ => exists_word_of_startsPathWord

@[spec]
theorem when_reads_unread (test : Input → Bool) : Reads (isUnread · = true) (when test) := by
  mvcgen [when_reads]
  all_goals grind -ring -linarith

@[spec]
theorem nameOrUnderscore_reads : Reads (isUnread · = true) nameOrUnderscore := when_reads_unread _

@[spec]
theorem lifetime_reads : Reads (isUnread · = true) lifetime := when_reads_unread _

@[spec]
theorem rawGroup_reads : Reads (isUnread · = true) rawGroup := when_reads_unread _

@[spec]
theorem punctOr_reads (error : SyntaxError) (operator : String) :
    Reads (· = .punct operator) (punctOr error operator) := by
  mvcgen [punctOr]
  all_goals grind -ring -linarith [isUnreadAll_subset, List.drop_subset]

@[spec]
theorem punct_reads (operator : String) : Reads (· = .punct operator) (punct operator) :=
  punctOr_reads .unexpected operator

@[spec]
theorem one_reads {parser : Parser Node} (hparser : Reads Formed parser) :
    Reads FormedAll (one parser) := by
  mvcgen [one, hparser]
  all_goals grind -ring -linarith

@[spec]
theorem orNothing_reads (test : Input → Bool) {parser : Parser (List Node)}
    (hparser : Reads FormedAll parser) : Reads FormedAll (orNothing test parser) := by
  mvcgen [orNothing, hparser]
  all_goals grind -ring -linarith

@[spec]
theorem punct?_reads (operator : String) : Reads FormedAll (punct? operator) := by
  mvcgen [punct?]
  all_goals grind -ring -linarith

@[spec]
theorem word?_reads (word : String) : Reads FormedAll (word? word) := by
  mvcgen [word?]
  all_goals grind -ring -linarith

@[spec]
theorem lifetime?_reads : Reads FormedAll lifetime? := by
  mvcgen [lifetime?]
  all_goals grind -ring -linarith

end Tokens

/-! ### Trees of their own -/

section Within

variable {parser : Parser (List Node)}

theorem within_reads {α : Type} {formed : α → Prop} {parser : Parser α}
    (hparser : Reads formed parser) (body : List Node) (hbody : isUnreadAll body = true) :
    Reads formed (within body parser) := by
  unfold within
  split
  · next read hrun =>
      have hread := reads_iff.mp hparser body _ _ hbody hrun
      mvcgen
      grind -ring -linarith
  · mvcgen
    grind -ring -linarith
  · exact reads_iff.mpr fun _ _ _ _ h => by cases h

@[spec]
theorem within_reads_formed {body : List Node} (hparser : Reads FormedAll parser)
    (hbody : isUnreadAll body = true) : Reads FormedAll (within body parser) :=
  within_reads hparser body hbody

@[spec]
theorem group_reads (delimiter : Delimiter) (hparser : Reads FormedAll parser) :
    Reads Formed (group delimiter parser) := by
  mvcgen [group, hparser]
  all_goals grind -ring -linarith

/-- What was read since an input, as it was written. -/
@[spec]
theorem sinceInput_reads {start : Input} (hstart : isUnreadAll start = true) :
    Reads IsOperand (sinceInput start) := by
  have htake : ∀ count, wellFormedAll (start.take count) = true := fun count =>
    wellFormedAll_of_isUnreadAll (isUnreadAll_subset (List.take_subset count start) hstart)
  mvcgen [sinceInput]
  all_goals grind -ring -linarith

theorem attempt_reads {α : Type} {formed : α → Prop} {parser : Parser α}
    (hparser : Reads formed parser) :
    Reads (fun read => ∀ found, read = some found → formed found) (attempt parser) := by
  unfold attempt
  mvcgen
  · next rest heq =>
      have hread := reads_iff.mp hparser _ _ _ ‹_› heq
      grind -ring -linarith
  all_goals grind -ring -linarith

end Within

/-! ### Repetition -/

section Repetition

variable {P : List Node → Prop}

theorem repeatWithin_reads (happend : ∀ first second, P first → P second → P (first ++ second))
    {step : Parser (Option (List Node))}
    (hstep : Reads (fun read => ∀ nodes, read = some nodes → P nodes) step) (steps : Nat) :
    ∀ done : List Node, P done.reverse → Reads P (repeatWithin steps step done) := by
  induction steps with
  | zero =>
      intro done hdone
      mvcgen [repeatWithin]
  | succ steps ih =>
      intro done hdone
      mvcgen [repeatWithin, hstep, ih]
      all_goals grind -ring -linarith

theorem repeated_reads (hnil : P [])
    (happend : ∀ first second, P first → P second → P (first ++ second))
    {step : Parser (Option (List Node))}
    (hstep : Reads (fun read => ∀ nodes, read = some nodes → P nodes) step) :
    Reads P (repeated step) := by
  have hrepeat := repeatWithin_reads happend hstep
  mvcgen [repeated, hrepeat]

theorem many_reads (hnil : P [])
    (happend : ∀ first second, P first → P second → P (first ++ second)) (test : Input → Bool)
    {part : Parser (List Node)} (hpart : Reads P part) : Reads P (many test part) := by
  refine repeated_reads hnil happend ?_
  mvcgen [hpart]
  all_goals grind -ring -linarith

theorem formedAll_append {first second : List Node} (hfirst : FormedAll first)
    (hsecond : FormedAll second) : FormedAll (first ++ second) := by grind

@[spec]
theorem many_reads_formed (test : Input → Bool) {part : Parser (List Node)}
    (hpart : Reads FormedAll part) : Reads FormedAll (many test part) :=
  @many_reads FormedAll rfl (fun _ _ => formedAll_append) test part hpart

@[spec]
theorem repeated_reads_formed {step : Parser (Option (List Node))}
    (hstep : Reads (fun read => ∀ nodes, read = some nodes → FormedAll nodes) step) :
    Reads FormedAll (repeated step) :=
  @repeated_reads FormedAll rfl (fun _ _ => formedAll_append) step hstep

@[spec]
theorem separated_reads (stop : Input → Bool) {separator : Parser Node} {part : Parser (List Node)}
    (hseparator : Reads Formed separator) (hpart : Reads FormedAll part) :
    Reads FormedAll (separated stop separator part) := by
  refine repeated_reads_formed ?_
  mvcgen [hseparator, hpart]
  all_goals grind -ring -linarith

@[spec]
theorem chained_reads (stop : Input → Bool) (operator : String) {part : Parser (List Node)}
    (hpart : Reads FormedAll part) : Reads FormedAll (chained stop operator part) := by
  mvcgen [chained, hpart]
  all_goals grind -ring -linarith

@[spec]
theorem commaList_reads {part : Parser (List Node)} (hpart : Reads FormedAll part) :
    Reads FormedAll (commaList part) := by
  refine separated_reads _ ?_ hpart
  mvcgen
  grind -ring -linarith

end Repetition

/-! ### Nonterminals -/

/-- What a nonterminal has to read; an operand is no assignment. -/
@[grind]
def Nonterminal.Reading : Nonterminal → Node → Prop
  | .operand _, node => IsOperand node
  | _, node => Formed node

/-- What a nonterminal may start from. -/
@[grind]
def Nonterminal.Starting : Nonterminal → Prop
  | .continuation left _ _ => Formed left
  | _ => True

end EntityTables.Syntax
