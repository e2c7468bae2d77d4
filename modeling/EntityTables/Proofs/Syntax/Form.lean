import EntityTables.Proofs.Syntax.Words
import EntityTables.Syntax.Grammar.Statement
import Mathlib.Data.List.Basic

/-!
# The form of trees

What a text is read into has a form that its kinds of phrases do not show: a path ends in a segment
with a name, the path of an expression is no type's path, and an assignment has no attributes of its
own. Trees that the grammar has not read yet are tokens and groups alone. All words in a tree are
identifiers, whether the grammar has read it or not.
-/

namespace EntityTables.Syntax

/-- Whether a tree is a segment that begins with its name. -/
def isNamedSegment : Node → Bool
  | .phrase .segment (.leaf _ :: _) => true
  | _ => false

/-- Whether the last part of a path is a segment with a name. -/
def endsInSegment (parts : List Node) : Bool := parts.getLast?.any isNamedSegment

/-- Whether the path of a path expression is a path. -/
def holdsPath : List Node → Bool
  | [_, path] => path.is .path
  | _ => false

/-- Whether an assignment has two sides, its sign and no attributes of its own. -/
def isPlainAssignment : List Node → Bool
  | [.phrase .attributes [], _, .leaf _, _] => true
  | _ => false

/-- Whether some parts are those of a phrase of some kind. -/
@[grind]
def hasForm (kind : Kind) (parts : List Node) : Bool :=
  match kind with
  | .path => endsInSegment parts
  | .pathExpr => holdsPath parts
  | .assignExpr => isPlainAssignment parts
  | _ => true

mutual

/-- Whether all phrases in a tree have the form of their kind, and all its words are identifiers. -/
@[grind]
def wellFormed : Node → Bool
  | .leaf token => token.isRead
  | .group _ body => wellFormedAll body
  | .phrase kind parts => hasForm kind parts && wellFormedAll parts

@[grind]
def wellFormedAll : List Node → Bool
  | [] => true
  | node :: rest => wellFormed node && wellFormedAll rest

end

mutual

/-- Whether a tree has not been read by the grammar: it is made of tokens of a text and groups
alone. -/
@[grind]
def isUnread : Node → Bool
  | .leaf token => token.isRead
  | .group _ body => isUnreadAll body
  | .phrase _ _ => false

@[grind]
def isUnreadAll : List Node → Bool
  | [] => true
  | node :: rest => isUnread node && isUnreadAll rest

end

section Form

variable {node : Node} {nodes : List Node}

@[grind =]
theorem isUnread_punct (text : String) : isUnread (.punct text) = true := rfl

@[grind =]
theorem wellFormed_punct (text : String) : wellFormed (.punct text) = true := rfl

@[grind =]
theorem wellFormed_ident (name : String) : wellFormed (.ident name) = isWord name := rfl

theorem exists_parts_of_is {kind : Kind} (hkind : node.is kind = true) :
    ∃ parts, node = .phrase kind parts := by
  cases node with
  | leaf token => cases hkind
  | group delimiter body => cases hkind
  | phrase own parts => exact ⟨parts, by rw [Option.some.inj (eq_of_beq hkind)]⟩

@[grind =]
theorem is_phrase (kind own : Kind) (parts : List Node) :
    Node.is kind (.phrase own parts) = decide (own = kind) := by
  simp only [Node.is, Node.kind?, beq_eq_decide, Option.some.injEq]

@[grind =]
theorem wellFormed_empty (kind : Kind) : wellFormed (.empty kind) = hasForm kind [] :=
  Bool.and_true _

theorem wellFormedAll_eq_all (nodes : List Node) : wellFormedAll nodes = nodes.all wellFormed := by
  induction nodes with
  | nil => rfl
  | cons node rest ih => rw [wellFormedAll, ih, List.all_cons]

theorem isUnreadAll_eq_all (nodes : List Node) : isUnreadAll nodes = nodes.all isUnread := by
  induction nodes with
  | nil => rfl
  | cons node rest ih => rw [isUnreadAll, ih, List.all_cons]

theorem wellFormed_of_mem (hall : wellFormedAll nodes = true) (hmem : node ∈ nodes) :
    wellFormed node = true := by
  rw [wellFormedAll_eq_all] at hall
  exact List.all_eq_true.mp hall node hmem

@[grind ←]
theorem wellFormedAll_parts (hnode : wellFormed node = true) : wellFormedAll node.parts = true := by
  cases node with
  | leaf token => rfl
  | group delimiter body => exact hnode
  | phrase kind parts =>
      rw [wellFormed, Bool.and_eq_true] at hnode
      exact hnode.2

@[grind =]
theorem wellFormedAll_append (first second : List Node) :
    wellFormedAll (first ++ second) = (wellFormedAll first && wellFormedAll second) := by
  rw [wellFormedAll_eq_all, wellFormedAll_eq_all, wellFormedAll_eq_all, List.all_append]

/-- Long lists of parts are taken apart in larger steps. -/
@[grind =]
theorem wellFormedAll_cons₃ (first second third : Node) (rest : List Node) :
    wellFormedAll (first :: second :: third :: rest) =
      (wellFormed first && (wellFormed second && (wellFormed third && wellFormedAll rest))) := rfl

theorem wellFormedAll_subset {others : List Node} (hsubset : nodes ⊆ others)
    (hall : wellFormedAll others = true) : wellFormedAll nodes = true := by
  rw [wellFormedAll_eq_all, List.all_eq_true]
  exact fun node hmem => wellFormed_of_mem hall (hsubset hmem)

theorem isUnreadAll_subset {others : List Node} (hsubset : nodes ⊆ others)
    (hall : isUnreadAll others = true) : isUnreadAll nodes = true := by
  rw [isUnreadAll_eq_all, List.all_eq_true] at hall ⊢
  exact fun node hmem => hall node (hsubset hmem)

mutual

@[grind →]
theorem wellFormed_of_isUnread : {node : Node} → isUnread node = true → wellFormed node = true
  | .leaf _, hunread => hunread
  | .group _ _, hunread => wellFormedAll_of_isUnreadAll hunread

@[grind →]
theorem wellFormedAll_of_isUnreadAll : {nodes : List Node} →
    isUnreadAll nodes = true → wellFormedAll nodes = true
  | [], _ => rfl
  | _ :: _, hunread => by
      rw [isUnreadAll, Bool.and_eq_true] at hunread
      rw [wellFormedAll, wellFormed_of_isUnread hunread.1, wellFormedAll_of_isUnreadAll hunread.2,
        Bool.and_self]

end

theorem endsInSegment_append {first second : List Node} (hne : second ≠ []) :
    endsInSegment (first ++ second) = endsInSegment second := by
  rw [endsInSegment, endsInSegment, List.getLast?_append, List.getLast?_eq_some_getLast hne,
    Option.some_or]

@[grind →]
theorem endsInSegment_parts (hnode : wellFormed node = true) (hpath : node.is .path = true) :
    endsInSegment node.parts = true := by
  cases node with
  | leaf token => cases hpath
  | group delimiter body => cases hpath
  | phrase kind parts =>
      obtain rfl : kind = .path := by simpa only [is_phrase, decide_eq_true_eq] using hpath
      rw [wellFormed, Bool.and_eq_true] at hnode
      exact hnode.1

theorem exists_segment_of_endsInSegment (hends : endsInSegment nodes = true) :
    ∃ front token rest, nodes = front ++ [.phrase .segment (.leaf token :: rest)] := by
  obtain ⟨last, hlast, hnamed⟩ := (Option.any_eq_true _ _).mp hends
  unfold isNamedSegment at hnamed
  split at hnamed
  · next token rest =>
      exact ⟨nodes.dropLast, token, rest, (List.dropLast_append_getLast? _ hlast).symm⟩
  · cases hnamed

theorem exists_sides_of_isPlainAssignment (hplain : isPlainAssignment nodes = true) :
    ∃ left sign value, nodes = [.empty .attributes, left, .leaf sign, value] := by
  unfold isPlainAssignment at hplain
  split at hplain
  · exact ⟨_, _, _, rfl⟩
  · cases hplain

end Form

/-! ### Attributes that are added -/

section Attributes

variable {attributes : List Node} {node : Node}

theorem kind?_withAttributes : (node.withAttributes attributes).kind? = node.kind? := by
  unfold Node.withAttributes
  split <;> rfl

theorem hasForm_attributes {kind : Kind} {own rest : List Node} (hassign : kind ≠ .assignExpr)
    (hform : hasForm kind (.phrase .attributes own :: rest) = true) :
    hasForm kind (.phrase .attributes (attributes ++ own) :: rest) = true := by
  cases kind with
  | path =>
      cases rest with
      | nil => cases hform
      | cons node rest => exact hform
  | pathExpr =>
      cases rest with
      | nil => cases hform
      | cons path rest =>
          cases rest with
          | nil => exact hform
          | cons node rest => cases hform
  | assignExpr => exact absurd rfl hassign
  | _ => rfl

/-- Attributes may be added to all but assignments. -/
theorem wellFormed_withAttributes (hattributes : wellFormedAll attributes = true)
    (hassign : node.is .assignExpr = false) (hnode : wellFormed node = true) :
    wellFormed (node.withAttributes attributes) = true := by
  unfold Node.withAttributes
  split
  · next kind own rest =>
      have hkind : kind ≠ .assignExpr := by
        rintro rfl
        cases hassign
      have hform := @hasForm_attributes attributes kind own rest hkind
      grind
  · exact hnode

theorem hasForm_left {kind : Kind} {own left other : Node} {rest : List Node}
    (hkind : kind = .assignExpr ∨ kind = .binaryExpr ∨ kind = .castExpr)
    (hform : hasForm kind (own :: left :: rest) = true) :
    hasForm kind (own :: other :: rest) = true := by
  rcases hkind with rfl | rfl | rfl
  · obtain ⟨_, _, _, heq⟩ := exists_sides_of_isPlainAssignment hform
    cases heq
    rfl
  · rfl
  · rfl

theorem is_assignExpr_of_length {kind : Kind} {parts : List Node} (hlength : parts.length < 4)
    (hform : hasForm kind parts = true) : Node.is .assignExpr (.phrase kind parts) = false := by
  by_cases hkind : kind = .assignExpr
  · subst hkind
    obtain ⟨_, _, _, rfl⟩ := exists_sides_of_isPlainAssignment hform
    exact absurd hlength (Nat.lt_irrefl 4)
  · exact beq_false_of_ne fun heq => hkind (Option.some.inj heq)

/-- Attributes may be added to the leftmost operand of an expression. -/
theorem wellFormed_withLeadingAttributes (hattributes : wellFormedAll attributes = true) :
    (node : Node) → wellFormed node = true →
      wellFormed (node.withLeadingAttributes attributes) = true
  | .leaf _, hnode => hnode
  | .group _ _, hnode => hnode
  | .phrase kind [], hnode => hnode
  | .phrase kind [own], hnode => by
      rw [wellFormed, Bool.and_eq_true] at hnode
      refine wellFormed_withAttributes hattributes ?_ (by rw [wellFormed, hnode.1, hnode.2]; rfl)
      exact is_assignExpr_of_length (Nat.le_add_left 2 2) hnode.1
  | .phrase kind (own :: left :: rest), hnode => by
      rw [Node.withLeadingAttributes]
      split
      · next hkind =>
          simp only [Bool.or_eq_true, beq_iff_eq, or_assoc] at hkind
          rw [wellFormed, Bool.and_eq_true, wellFormedAll, wellFormedAll] at hnode
          rw [wellFormed, wellFormedAll, wellFormedAll, hasForm_left hkind hnode.1]
          have hleft := wellFormed_withLeadingAttributes hattributes left
          grind
      · next hkind =>
          refine wellFormed_withAttributes hattributes ?_ hnode
          refine beq_false_of_ne fun heq => hkind ?_
          rw [Option.some.inj heq]
          rfl

end Attributes

/-! ### The trees of a text -/

theorem isUnreadAll_reverse (nodes : List Node) :
    isUnreadAll nodes.reverse = isUnreadAll nodes := by
  rw [isUnreadAll_eq_all, isUnreadAll_eq_all, List.all_reverse]

theorem isUnreadAll_of_nestFrom {done : List Node} {outer : List OpenGroup} {lexemes : List Lexeme}
    {nodes : List Node} (hlexemes : lexemes.all Lexeme.isRead = true)
    (hdone : isUnreadAll done = true) (houter : ∀ group ∈ outer, isUnreadAll group.before = true)
    (hnest : nestFrom done outer lexemes = some nodes) : isUnreadAll nodes = true := by
  fun_induction nestFrom done outer lexemes with
  | case1 =>
      cases hnest
      exact (isUnreadAll_reverse _).trans hdone
  | case2 => cases hnest
  | case3 done outer token rest ih =>
      rw [List.all_cons, Bool.and_eq_true] at hlexemes
      refine ih hlexemes.2 ?_ houter hnest
      rw [isUnreadAll, hdone, Bool.and_true]
      exact hlexemes.1
  | case4 done outer delimiter rest ih =>
      refine ih hlexemes rfl (fun group hmem => ?_) hnest
      rcases List.mem_cons.mp hmem with rfl | hmem
      · exact hdone
      · exact houter group hmem
  | case5 done rest before delimiter outer ih =>
      refine ih hlexemes ?_ (fun group hmem => houter group (List.mem_cons_of_mem _ hmem)) hnest
      rw [isUnreadAll, isUnread, isUnreadAll_reverse, hdone, houter _ List.mem_cons_self]
      rfl
  | case6 => cases hnest
  | case7 => cases hnest

/-- The trees of a text are unread. -/
theorem isUnreadAll_of_lex? {text : String} {nodes : List Node} (hlex : lex? text = some nodes) :
    isUnreadAll nodes = true := by
  obtain ⟨lexemes, hscan, hnest⟩ := Option.bind_eq_some_iff.mp hlex
  have hlexemes := isRead_of_lexemesWithin hscan
  exact isUnreadAll_of_nestFrom hlexemes rfl (fun _ hmem => by cases hmem) hnest

end EntityTables.Syntax
