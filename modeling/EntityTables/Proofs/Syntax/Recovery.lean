import EntityTables.Proofs.Syntax.Lexed
import EntityTables.Proofs.Syntax.Rounds
import EntityTables.Proofs.Syntax.Unbounded

/-!
# Trees that are recovered

A parser recovers something from tokens if it reads them off every input that goes on in a way that
ends them. What ends a name is any token but a few, so the tests of the grammar are answered by the
first tokens of an input alone.
-/

namespace EntityTables.Syntax

open EntityTables.Syntax.Parser

/-- A parser reads some tokens as one result wherever an input that passes a test follows them. -/
def Recovers {α : Type} (parser : Parser α) (follow : Input → Bool) (tokens : Input)
    (result : α) : Prop :=
  ∀ rest, follow rest = true → parser.run (tokens ++ rest) = .ok (result, rest)

/-! ### Steps of a run -/

section Steps

variable {α β : Type} {parser : Parser α} {next : α → Parser β} {read : α}
  {input middle rest : Input}

theorem run_bind_of (hread : parser.run input = .ok (read, middle)) :
    (parser >>= next).run input = (next read).run middle := by
  rw [StateT.run_bind, hread]
  rfl

/-- The same, with what is read given. -/
theorem run_bind_to (read : α) (hread : parser.run input = .ok (read, middle)) :
    (parser >>= next).run input = (next read).run middle := run_bind_of hread

theorem run_get_bind {next : Input → Parser β} :
    (get >>= next).run input = (next input).run input := rfl

theorem run_orNothing_of_true {test : Input → Bool} {parser : Parser (List Node)}
    (htest : test input = true) : (orNothing test parser).run input = parser.run input := by
  refine (run_bind_of (run_peek test)).trans ?_
  rw [htest]
  rfl

theorem run_orNothing_of {test : Input → Bool} {parser : Parser (List Node)}
    (htest : test input = false) : (orNothing test parser).run input = .ok ([], input) := by
  refine (run_bind_of (run_peek test)).trans ?_
  rw [htest]
  rfl

/-- An attempt that fails leaves the input as it was. -/
theorem run_attempt_of_error {error : SyntaxError} (hrun : parser.run input = .error error) :
    (attempt parser).run input = .ok (none, input) := by
  refine run_get_bind.trans ?_
  rw [hrun]
  rfl

end Steps

/-! ### Names -/

/-- The names that a path may have: plain ones, and those that stand for a module or a type. -/
def isPathWord (word : String) : Bool := Input.startsPathWord [.ident word]

section Words

variable {word name : String} {rest : Input}

theorem startsWord_ident (word other : String) (rest : Input) :
    Input.startsWord (.ident word :: rest) other = (word == other) := rfl

/-- A name is none of the words that name nothing. -/
theorem beq_of_isName (hname : isName name = true) (hword : isName word = false) :
    (name == word) = false := by
  rw [beq_eq_false_iff_ne]
  rintro rfl
  rw [hname] at hword
  cases hword

theorem startsWord_of_isName (hname : isName name = true) (hword : isName word = false) :
    Input.startsWord (.ident name :: rest) word = false := beq_of_isName hname hword

theorem startsOneOf_of_isName {words : List String} (hname : isName name = true)
    (hwords : words.all (fun word => !isName word) = true) :
    Input.startsOneOf (.ident name :: rest) words = false := by
  refine List.any_eq_false.mpr fun word hmem => ?_
  have hword := List.all_eq_true.mp hwords word hmem
  rw [startsWord_of_isName hname (by simpa using hword)]
  exact Bool.false_ne_true

theorem isPathWord_of_isName (hname : isName name = true) : isPathWord name = true :=
  Bool.or_eq_true_iff.mpr (Or.inl hname)

theorem run_name (hname : isName name = true) :
    Parser.name.run (.ident name :: rest) = .ok (.ident name, rest) :=
  run_when_eq_ok.mpr ⟨hname, rfl⟩

theorem run_anyWord (word : String) (rest : Input) :
    anyWord.run (.ident word :: rest) = .ok (.ident word, rest) := rfl

end Words

/-! ### Operators -/

section Operators

variable {input : Input}

/-- An operator does not start where its first character does not. -/
theorem startsPunct_of_first {operator : String} {c : Char} {chars : List Char}
    (hchars : operator.toList = c :: chars)
    (hfirst : input.startsPunct (String.singleton c) = false) :
    input.startsPunct operator = false := by
  rw [Bool.eq_false_iff] at hfirst ⊢
  intro hstarts
  rw [Input.startsPunct, hchars] at hstarts
  obtain ⟨joint, rest, rfl, -⟩ := startsChars_cons hstarts
  refine hfirst ?_
  rw [Input.startsPunct, String.toList_singleton]
  exact beq_self_eq_true _

theorem run_punct_single {operator : String} (hsingle : operator.toList.length = 1) (rest : Input) :
    (punct operator).run (.punct operator :: rest) = .ok (.punct operator, rest) := by
  obtain ⟨c, hc⟩ := List.length_eq_one_iff.mp hsingle
  refine run_punctOr_eq_ok.mpr ⟨?_, rfl, ?_⟩
  · rw [Input.startsPunct, hc]
    refine beq_iff_eq.mpr ?_
    rw [← String.ofList_toList (s := operator), hc]
    rfl
  · rw [← String.length_toList, hsingle]
    rfl

end Operators

/-! ### Lists with commas -/

/-- What follows a part of a list: a comma, or the end of the list. -/
def endsPart (input : Input) : Bool := input.isEmpty || input.startsPunct ","

theorem endsPart_cases {rest : Input} (hrest : endsPart rest = true) :
    rest = [] ∨ ∃ joint more, rest = .leaf (.punct "," joint) :: more := by
  cases rest with
  | nil => exact .inl rfl
  | cons node more =>
      obtain ⟨joint, others, heq, -⟩ := @startsChars_cons _ ',' [] hrest
      exact .inr ⟨joint, others, heq⟩

/-- A part of a list that a parser recovers. -/
structure RecoversPart (part : Parser (List Node)) (node : Node) : Prop where
  nonempty : node.lexed ≠ []
  recovers : Recovers part endsPart node.lexed [node]

section Lists

variable {part : Parser (List Node)} {nodes : List Node} {tokens rest : Input}

theorem length_lt_of_ne_nil (hne : tokens ≠ []) : rest.length < (tokens ++ rest).length := by
  rw [List.length_append]
  exact Nat.lt_add_of_pos_left (List.length_pos_of_ne_nil hne)

theorem isEmpty_append_eq_false (hne : tokens ≠ []) : List.isEmpty (tokens ++ rest) = false := by
  cases tokens with
  | nil => exact absurd rfl hne
  | cons node more => rfl

/-- The rounds in which the parts of a list are read. -/
abbrev PartRounds (part : Parser (List Node)) : Input → List Node → Input → Prop :=
  Rounds (separatedStep List.isEmpty (punctOr .missingComma ",") part)

theorem PartRounds.before {node : Node} {more : List Node} (hnode : RecoversPart part node)
    (hmore : PartRounds part tokens more []) :
    PartRounds part (node.lexed ++ .punct "," :: tokens) (node :: .punct "," :: more) [] := by
  have hless : tokens.length < (node.lexed ++ .punct "," :: tokens).length := by
    rw [List.length_append, List.length_cons]
    omega
  exact .next (isEmpty_append_eq_false hnode.nonempty) (hnode.recovers (.punct "," :: tokens) rfl)
    rfl rfl hless hmore

theorem filter_commaSeparated {keep : Node → Bool} (hcomma : keep (.punct ",") = false)
    (hkeep : ∀ node ∈ nodes, keep node = true) :
    (commaSeparated nodes).filter keep = nodes := by
  fun_induction commaSeparated nodes with
  | case1 => rfl
  | case2 node => rw [List.filter_cons_of_pos (hkeep node List.mem_cons_self), List.filter_nil]
  | case3 node rest hne ih =>
      have hrest := ih fun other hmem => hkeep other (List.mem_cons_of_mem node hmem)
      rw [List.filter_cons_of_pos (hkeep node List.mem_cons_self),
        List.filter_cons_of_neg (by rw [hcomma]; nofun), hrest]

theorem run_commaList (hnodes : ∀ node ∈ nodes, RecoversPart part node) :
    (commaList part).run (Node.lexedAll (commaSeparated nodes)) =
      .ok (commaSeparated nodes, []) := by
  refine run_separated ?_
  fun_induction commaSeparated nodes with
  | case1 => exact .ended rfl
  | case2 node =>
      have hnode := hnodes node List.mem_cons_self
      have hlexed : Node.lexedAll [node] = node.lexed ++ [] := rfl
      rw [hlexed]
      exact .last (isEmpty_append_eq_false hnode.nonempty) (hnode.recovers [] rfl) rfl
        (length_lt_of_ne_nil hnode.nonempty)
  | case3 node rest hne ih =>
      obtain ⟨hnode, hrest⟩ := List.forall_mem_cons.mp hnodes
      rw [lexedAll_cons, lexedAll_cons]
      exact PartRounds.before hnode (ih hrest)

theorem run_commaList_ended (hnodes : ∀ node ∈ nodes, RecoversPart part node) :
    (commaList part).run (Node.lexedAll (commaEnded (nodes.map fun node => [node]))) =
      .ok (commaEnded (nodes.map fun node => [node]), []) := by
  refine run_separated ?_
  induction nodes with
  | nil => exact .ended rfl
  | cons node rest ih =>
      obtain ⟨hnode, hrest⟩ := List.forall_mem_cons.mp hnodes
      exact PartRounds.before hnode (ih hrest)

end Lists

end EntityTables.Syntax
