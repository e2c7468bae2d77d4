import EntityTables.Syntax.Lexed
import EntityTables.Syntax.Phrase

/-!
# Tokens of phrases

The tokens of the phrases that generated code is made of. An expression of these kinds needs no
parentheses wherever it stands, so its tokens are those of its parts in their order.
-/

namespace EntityTables.Syntax

theorem splitAll_append (first second : List Node) :
    Node.splitAll (first ++ second) = Node.splitAll first ++ Node.splitAll second := by
  induction first with
  | nil => rfl
  | cons node rest ih =>
      rw [List.cons_append, Node.splitAll, ih, Node.splitAll, List.append_assoc]

/-- The tokens of some trees one after the other. -/
def Node.lexedAll (nodes : List Node) : List Node := nodes.flatMap Node.lexed

@[simp] theorem lexedAll_nil : Node.lexedAll [] = [] := rfl

@[simp] theorem lexedAll_cons (node : Node) (rest : List Node) :
    Node.lexedAll (node :: rest) = node.lexed ++ Node.lexedAll rest := rfl

@[simp] theorem lexedAll_append (first second : List Node) :
    Node.lexedAll (first ++ second) = Node.lexedAll first ++ Node.lexedAll second :=
  List.flatMap_append

/-- Kinds of phrases whose parts stand as the phrase does not matter. -/
def Kind.isOpen (kind : Kind) : Bool :=
  !(kind == .exprStmt || kind == .arm || kind == .letStmt)

/-- Nothing is put in parentheses in front of an `else` that is not there. -/
theorem splitAll_tokensOfParts_of {kind : Kind} (hstatement : kind ≠ .exprStmt) (harm : kind ≠ .arm)
    (before : Option Node) {parts : List Node}
    (helse : kind ≠ .letStmt ∨ ∀ part ∈ parts, part.isIdent "else" = false) :
    Node.splitAll (Node.tokensOfParts kind .inner before parts) = Node.lexedAll parts := by
  induction parts generalizing before with
  | nil => rfl
  | cons part rest ih =>
      have hposition : Position.ofPart .inner kind before = .inner := by
        cases before with
        | none => simp [Position.ofPart, hstatement]
        | some other => simp [Position.ofPart, harm]
      have hend : endsBeforeElse kind part rest = false := by
        rcases helse with hlet | helse
        · simp [endsBeforeElse, hlet]
        · cases rest with
          | nil => simp [endsBeforeElse]
          | cons next others => simp [endsBeforeElse, helse next (by simp)]
      have hrest := ih (some part) (helse.imp_right fun helse other hmem =>
        helse other (List.mem_cons_of_mem part hmem))
      rw [Node.tokensOfParts, hposition, hend, splitAll_append, hrest]
      rfl

theorem splitAll_tokensOfParts {kind : Kind} (hkind : kind.isOpen = true) (before : Option Node)
    (parts : List Node) :
    Node.splitAll (Node.tokensOfParts kind .inner before parts) = Node.lexedAll parts := by
  simp only [Kind.isOpen, Bool.not_eq_true', Bool.or_eq_false_iff, beq_eq_false_iff_ne] at hkind
  exact splitAll_tokensOfParts_of hkind.1.1 hkind.1.2 before (.inl hkind.2)

@[simp] theorem lexed_phrase {kind : Kind} (hkind : kind.isOpen = true) (parts : List Node) :
    (Node.phrase kind parts).lexed = Node.lexedAll parts := by
  rw [Node.lexed, Node.lexedAt, Node.tokens]
  exact splitAll_tokensOfParts hkind none parts

@[simp] theorem lexed_ident (name : String) : (Node.ident name).lexed = [.ident name] := rfl

@[simp] theorem lexed_literal (text : String) : (Node.literal text).lexed = [.literal text] := rfl

@[simp] theorem lexed_lifetime (name : String) :
    (Node.leaf (.lifetime name)).lexed = [.leaf (.lifetime name)] := rfl

@[simp] theorem lexed_punct (text : String) (hsingle : text.toList.length = 1) :
    (Node.punct text).lexed = [.punct text] := by
  obtain ⟨c, hc⟩ := List.length_eq_one_iff.mp hsingle
  have htext : text = String.singleton c := by
    rw [← String.ofList_toList (s := text), hc]
    rfl
  rw [Node.lexed, Node.lexedAt, Node.punct, Node.tokens, Node.splitAll, Node.split, hc, htext]
  rfl

@[simp] theorem lexed_colons :
    (Node.punct "::").lexed = [.leaf (.punct ":" true), .punct ":"] := rfl

@[simp] theorem lexed_arrow :
    (Node.punct "->").lexed = [.leaf (.punct "-" true), .punct ">"] := rfl

@[simp] theorem lexed_empty (kind : Kind) : (Node.empty kind).lexed = [] := rfl

@[simp] theorem lexed_group (delimiter : Delimiter) (body : List Node) :
    (Node.group delimiter body).lexed = [.group delimiter (Node.lexedAll body)] := by
  rw [Node.lexed, Node.lexedAt, Node.tokens, Node.splitAll, Node.split,
    splitAll_tokensOfParts rfl none body]
  rfl

/-! ### Places of expressions -/

/-- A tree whose tokens are the same wherever it stands. -/
def Steady (node : Node) : Prop := ∀ position, node.lexedAt position = node.lexed

theorem splitAll_tokensOfParts_after {kind : Kind} (hkind : kind.isOpen = true)
    (position : Position) {before : Node} (hbefore : before.is .attributes = false)
    {parts : List Node} (hparts : ∀ part ∈ parts, part.is .attributes = false) :
    Node.splitAll (Node.tokensOfParts kind position (some before) parts) = Node.lexedAll parts := by
  induction parts generalizing before with
  | nil => rfl
  | cons part rest ih =>
      obtain ⟨hpart, hrest⟩ := List.forall_mem_cons.mp hparts
      simp only [Kind.isOpen, Bool.not_eq_true', Bool.or_eq_false_iff] at hkind
      have hposition : position.ofPart kind (some before) = .inner := by
        simp [Position.ofPart, hkind.1.2, hbefore]
      have hend : endsBeforeElse kind part rest = false := by simp [endsBeforeElse, hkind.2]
      rw [Node.tokensOfParts, hposition, hend, splitAll_append, ih hpart hrest]
      rfl

theorem steady_phrase {kind : Kind} (hkind : kind.isOpen = true) (hblock : kind.isBlockLike = false)
    {parts : List Node} (hparts : ∀ part ∈ parts, part.is .attributes = false) :
    Steady (.phrase kind parts) := by
  intro position
  rw [lexed_phrase hkind, Node.lexedAt, Node.tokens, hblock, Bool.and_false,
    if_neg Bool.false_ne_true]
  cases parts with
  | nil => rfl
  | cons part rest =>
      obtain ⟨hpart, hrest⟩ := List.forall_mem_cons.mp hparts
      have hopen := hkind
      simp only [Kind.isOpen, Bool.not_eq_true', Bool.or_eq_false_iff] at hopen
      have hposition : position.ofPart kind none = .inner := by
        simp [Position.ofPart, hopen.1.1]
      have hend : endsBeforeElse kind part rest = false := by simp [endsBeforeElse, hopen.2]
      rw [Node.tokensOfParts, hposition, hend, splitAll_append,
        splitAll_tokensOfParts_after hkind position hpart hrest]
      rfl

/-- The tokens of an expression are those of its first part where that stands, and of the others. -/
theorem lexedAt_bareExpr {kind : Kind} (hkind : kind.isOpen = true) {position : Position}
    (hblock : (position == .leftmost && kind.isBlockLike) = false) {first : Node}
    {parts : List Node} (hparts : ∀ part ∈ first :: parts, part.is .attributes = false) :
    (bareExpr kind (first :: parts)).lexedAt position =
      first.lexedAt (position.ofPart kind (some (.empty .attributes))) ++ Node.lexedAll parts := by
  obtain ⟨hfirst, hrest⟩ := List.forall_mem_cons.mp hparts
  simp only [Kind.isOpen, Bool.not_eq_true', Bool.or_eq_false_iff] at hkind
  have hend : ∀ part rest, endsBeforeElse kind part rest = false := fun part rest => by
    simp [endsBeforeElse, hkind.2]
  have hempty : ∀ position, (Node.empty .attributes).tokens position = [] := fun position => by
    cases position <;> rfl
  rw [bareExpr, Node.lexedAt, Node.tokens, hblock, if_neg Bool.false_ne_true, Node.tokensOfParts,
    hend, Node.tokensOfParts, hend, splitAll_append, splitAll_append,
    splitAll_tokensOfParts_after (by simp [Kind.isOpen, hkind]) position hfirst hrest,
    if_neg Bool.false_ne_true, if_neg Bool.false_ne_true, hempty]
  rfl

theorem steady_bareExpr {kind : Kind} (hkind : kind.isOpen = true)
    (hblock : kind.isBlockLike = false) {first : Node} {parts : List Node}
    (hparts : ∀ part ∈ first :: parts, part.is .attributes = false)
    (hfirst : Steady first ∨ (kind.startsWithOperand || kind.startsWithBase) = false) :
    Steady (bareExpr kind (first :: parts)) := by
  intro position
  rw [Node.lexed, lexedAt_bareExpr hkind (by rw [hblock, Bool.and_false]) hparts,
    lexedAt_bareExpr hkind (by rw [hblock, Bool.and_false]) hparts]
  rcases hfirst with hfirst | hinner
  · rw [hfirst, hfirst]
  · rw [Bool.or_eq_false_iff] at hinner
    simp [Position.ofPart, hinner.1, hinner.2]

end EntityTables.Syntax
