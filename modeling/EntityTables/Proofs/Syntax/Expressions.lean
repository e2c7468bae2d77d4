import EntityTables.Proofs.Syntax.Types

/-!
# Patterns, expressions and statements are well-formed

An operand is no assignment, so that attributes may be put in front of it. All else that is read
goes into phrases whose form is not restricted.
-/

namespace EntityTables.Syntax

open EntityTables.Syntax.Parser Std.Do

set_option mvcgen.warning false

/-! ### Phrases of expressions -/

@[grind =]
theorem wellFormed_bareExpr (kind : Kind) (parts : List Node) : wellFormed (bareExpr kind parts) =
    (hasForm kind (.empty .attributes :: parts) && wellFormedAll parts) := rfl

@[grind =]
theorem is_bareExpr (kind own : Kind) (parts : List Node) :
    (bareExpr own parts).is kind = decide (own = kind) := is_phrase kind own _

@[grind ←]
theorem formed_pathExprOf {path : Node} (hpath : Formed path) : Formed (pathExprOf path) := by
  unfold pathExprOf
  split
  · next his => simp only [Formed, wellFormed, wellFormedAll, hasForm, holdsPath, his, hpath,
      wellFormed_empty, Bool.and_self]
  · grind -ring -linarith

theorem is_pathExprOf (path : Node) : (pathExprOf path).is .assignExpr = false := by
  unfold pathExprOf
  split <;> rfl

theorem formed_assignment {left right : Node} (hleft : Formed left) (hright : Formed right) :
    Formed (bareExpr .assignExpr [left, .punct "=", right]) := by
  have hform : hasForm .assignExpr [.empty .attributes, left, .punct "=", right] = true := rfl
  grind -ring -linarith

theorem isOperand_withAttributes {attributes node : Node} (hattributes : Formed attributes)
    (hnode : IsOperand node) : IsOperand (node.withAttributes attributes.parts) := by
  refine ⟨wellFormed_withAttributes (wellFormedAll_parts hattributes) hnode.2 hnode.1, ?_⟩
  rw [Node.is, kind?_withAttributes]
  exact hnode.2

/-! ### Operators -/

section Grow

variable {P : Node → Prop}

theorem growWithin_reads {step : Node → Parser (Option Node)}
    (hstep : ∀ node, P node →
      Reads (fun read => ∀ larger, read = some larger → P larger) (step node))
    (steps : Nat) : ∀ node, P node → Reads P (growWithin steps step node) := by
  induction steps with
  | zero =>
      intro node hnode
      mvcgen [growWithin]
  | succ steps ih =>
      intro node hnode
      mvcgen [growWithin, hstep, ih]
      all_goals grind -ring -linarith

theorem grow_reads {step : Node → Parser (Option Node)}
    (hstep : ∀ node, P node →
      Reads (fun read => ∀ larger, read = some larger → P larger) (step node))
    {node : Node} (hnode : P node) : Reads P (grow step node) := by
  have hgrow := growWithin_reads hstep
  mvcgen [grow, hgrow]

end Grow

section Productions

variable {sub : Nonterminal → Parser Node}
  (hsub : ∀ nonterminal, nonterminal.Starting → Reads nonterminal.Reading (sub nonterminal))

include hsub

/-! ### Patterns -/

omit hsub in
@[spec]
theorem rangeLimits_reads (older : Bool) : Reads Formed (rangeLimits older) := by
  mvcgen [rangeLimits]
  all_goals grind -ring -linarith

@[spec]
theorem anyPath_reads (inExpr : Bool) : Reads Formed (anyPath sub inExpr) := by
  mvcgen [anyPath, hsub]
  all_goals grind -ring -linarith

@[spec]
theorem constBlock_reads : Reads Formed (constBlock sub) := by
  mvcgen [constBlock, hsub]
  all_goals grind -ring -linarith

@[spec]
theorem rangeBound?_reads : Reads FormedAll (rangeBound? sub) := by
  mvcgen [rangeBound?, hsub]
  all_goals grind -ring -linarith

@[spec]
theorem rangeAfter_reads {first : List Node} (hfirst : FormedAll first) :
    Reads Formed (rangeAfter sub first) := by
  mvcgen [rangeAfter, hsub]
  all_goals grind -ring -linarith

@[spec]
theorem fieldPattern_reads : Reads FormedAll (fieldPattern sub) := by
  mvcgen [fieldPattern, hsub]
  all_goals grind -ring -linarith

@[spec]
theorem pathPattern_reads : Reads Formed (pathPattern sub) := by
  mvcgen [pathPattern, hsub]
  all_goals grind -ring -linarith

@[spec]
theorem identPattern_reads : Reads Formed (identPattern sub) := by
  mvcgen [identPattern, hsub]
  all_goals grind -ring -linarith

@[spec]
theorem restOrRange_reads : Reads Formed (restOrRange sub) := by
  mvcgen [restOrRange, hsub]
  all_goals grind -ring -linarith

@[spec]
theorem sliceElement_reads : Reads FormedAll (sliceElement sub) := by
  mvcgen [sliceElement, hsub]
  all_goals grind -ring -linarith

@[spec]
theorem patternRule_reads : Reads Formed (patternRule sub) := by
  mvcgen [patternRule, hsub]
  all_goals grind -ring -linarith

@[spec]
theorem alternativesRule_reads : Reads Formed (alternativesRule sub) := by
  mvcgen [alternativesRule, hsub]
  all_goals grind -ring -linarith

/-! ### Operators after operands -/

@[spec]
theorem rightOperand_reads (struct : Bool) (strength : Precedence) :
    Reads Formed (rightOperand sub struct strength) := by
  refine reads_bind (hsub (.operand struct) trivial) fun first hfirst =>
    @grow_reads Formed _ (fun left hleft => ?_) first hfirst.1
  mvcgen [hsub]
  all_goals grind -ring -linarith

@[spec]
theorem rangeFrom_reads (struct : Bool) {start : List Node}
    (hstart : FormedAll start) : Reads IsOperand (rangeFrom sub struct start) := by
  mvcgen [rangeFrom, hsub]
  all_goals grind -ring -linarith

@[spec]
theorem operatorAfter?_reads (struct : Bool) (least : Precedence) {left : Node}
    (hleft : Formed left) : Reads (fun read => ∀ larger, read = some larger → Formed larger)
      (operatorAfter? sub struct least left) := by
  mvcgen [operatorAfter?, hsub]
  all_goals grind -ring -linarith [formed_assignment]

@[spec]
theorem continuationRule_reads {left : Node} (hleft : Formed left) (struct : Bool)
    (least : Precedence) : Reads Formed (continuationRule sub left struct least) :=
  @grow_reads Formed _ (fun _ hnode => operatorAfter?_reads hsub struct least hnode) _ hleft

@[spec]
theorem exprRule_reads (struct : Bool) : Reads Formed (exprRule sub struct) := by
  mvcgen [exprRule, hsub]
  all_goals grind -ring -linarith

/-! ### Statements -/

omit hsub in
@[spec]
theorem statementFront_reads : Reads (fun _ => True) statementFront := by
  have hfront := attempt_reads plainPath_reads
  mvcgen [statementFront, hfront]

omit hsub in
@[spec]
theorem macroStatement_reads {attributes : Node} (hattributes : Formed attributes) :
    Reads Formed (macroStatement attributes) := by
  mvcgen [macroStatement]
  all_goals grind -ring -linarith

@[spec]
theorem letStatement_reads {attributes : Node} (hattributes : Formed attributes) :
    Reads Formed (letStatement sub attributes) := by
  mvcgen [letStatement, hsub]
  all_goals grind -ring -linarith

@[spec]
theorem exprStatement_reads {attributes : Node} (hattributes : Formed attributes) :
    Reads Formed (exprStatement sub attributes) := by
  have hleading : ∀ expr, Formed expr → Formed (expr.withLeadingAttributes attributes.parts) :=
    wellFormed_withLeadingAttributes (wellFormedAll_parts hattributes)
  mvcgen [exprStatement, hsub]
  all_goals grind -ring -linarith

@[spec]
theorem statement_reads : Reads Formed (statement sub) := by
  mvcgen [statement, hsub]
  all_goals grind -ring -linarith

@[spec]
theorem statements_reads : Reads FormedAll (statements sub) := by
  refine repeated_reads_formed ?_
  mvcgen [hsub]
  all_goals grind -ring -linarith

@[spec]
theorem blockRule_reads : Reads Formed (blockRule sub) :=
  group_reads .brace (statements_reads hsub)

@[spec]
theorem innerAttributes?_reads : Reads FormedAll (innerAttributes? sub) := by
  mvcgen [innerAttributes?, hsub]
  all_goals grind -ring -linarith

@[spec]
theorem attributedBlock_reads : Reads Formed (attributedBlock sub) := by
  refine group_reads .brace ?_
  mvcgen [hsub]
  all_goals grind -ring -linarith

/-! ### Control flow -/

omit hsub in
@[spec]
theorem label?_reads : Reads FormedAll label? := by
  mvcgen [label?]
  all_goals grind -ring -linarith

@[spec]
theorem ifExpr_reads : Reads IsOperand (ifExpr sub) := by
  mvcgen [ifExpr, hsub]
  all_goals grind -ring -linarith

section Labeled

variable {label : List Node}

@[spec]
theorem whileExpr_reads (hlabel : FormedAll label) : Reads IsOperand (whileExpr sub label) := by
  mvcgen [whileExpr, hsub]
  all_goals grind -ring -linarith

@[spec]
theorem forExpr_reads (hlabel : FormedAll label) : Reads IsOperand (forExpr sub label) := by
  mvcgen [forExpr, hsub]
  all_goals grind -ring -linarith

@[spec]
theorem loopExpr_reads (hlabel : FormedAll label) : Reads IsOperand (loopExpr sub label) := by
  mvcgen [loopExpr, hsub]
  all_goals grind -ring -linarith

@[spec]
theorem blockExpr_reads (hlabel : FormedAll label) : Reads IsOperand (blockExpr sub label) := by
  mvcgen [blockExpr, hsub]
  all_goals grind -ring -linarith

end Labeled

@[spec]
theorem matchArm_reads : Reads FormedAll (matchArm sub) := by
  mvcgen [matchArm, hsub]
  all_goals grind -ring -linarith

@[spec]
theorem matchExpr_reads : Reads IsOperand (matchExpr sub) := by
  mvcgen [matchExpr, hsub]
  all_goals grind -ring -linarith

@[spec]
theorem labeledExpr_reads : Reads IsOperand (labeledExpr sub) := by
  mvcgen [labeledExpr, hsub]
  all_goals grind -ring -linarith

@[spec]
theorem blockLike?_reads :
    Reads (fun read => ∀ expr, read = some expr → IsOperand expr) (blockLike? sub) := by
  mvcgen [blockLike?, hsub]
  all_goals grind -ring -linarith

/-! ### Operands -/

@[spec]
theorem callArguments_reads : Reads Formed (callArguments sub) := by
  mvcgen [callArguments, hsub]
  all_goals grind -ring -linarith

omit hsub in
theorem formedAll_of_memberIndices? {text : String} {indices : List Node}
    (hindices : memberIndices? text = some indices) : FormedAll indices := by
  have hall : ∀ (index? : List Char → Option Node) (parts : List (List Char)) (indices : List Node),
      (∀ digits index, index? digits = some index → Formed index) →
        parts.mapM index? = some indices → FormedAll indices := by
    intro index? parts
    induction parts with
    | nil =>
        intro indices _ hmap
        cases hmap
        rfl
    | cons part rest ih =>
        intro indices hindex hmap
        rw [List.mapM_cons] at hmap
        obtain ⟨index, hpart, hmap⟩ := Option.bind_eq_some_iff.mp hmap
        obtain ⟨others, hrest, hmap⟩ := Option.bind_eq_some_iff.mp hmap
        cases hmap
        have hothers := ih others hindex hrest
        grind -ring -linarith
  refine hall _ _ indices (fun digits index hindex => ?_) hindices
  dsimp only at hindex
  split at hindex
  · cases hindex
  · split at hindex
    · cases hindex
      rfl
    · cases hindex

omit hsub in
theorem isOperand_fields {base dot : Node} {indices : List Node} (hbase : IsOperand base)
    (hdot : Formed dot) (hindices : FormedAll indices) :
    IsOperand (indices.foldl (fun base index => bareExpr .fieldExpr [base, dot, index]) base) := by
  induction indices generalizing base with
  | nil => exact hbase
  | cons index rest ih =>
      have hfield : IsOperand (bareExpr .fieldExpr [base, dot, index]) := by grind -ring -linarith
      exact ih hfield (by grind -ring -linarith)

@[spec]
theorem memberAfter_reads {base : Node} (hbase : IsOperand base) :
    Reads IsOperand (memberAfter sub base) := by
  unfold memberAfter
  refine reads_bind (punct_reads ".") fun dot hdot => ?_
  have hdotFormed : Formed dot := by grind -ring -linarith
  refine reads_bind (peek_reads _) fun isAwait _ => ?_
  split
  · mvcgen
    all_goals grind -ring -linarith
  refine reads_get fun input hinput => ?_
  split
  · next text rest =>
      extract_lets trimmed
      split
      · next indices hindices =>
          have hwhole := isOperand_fields hbase hdotFormed (formedAll_of_memberIndices? hindices)
          mvcgen
      · mvcgen
        all_goals grind -ring -linarith
  · have hempty : Formed (.empty .genericArgs) := rfl
    mvcgen [hsub]
    all_goals grind -ring -linarith

@[spec]
theorem trailer?_reads {base : Node} (hbase : IsOperand base) :
    Reads (fun read => ∀ larger, read = some larger → IsOperand larger) (trailer? sub base) := by
  mvcgen [trailer?, hsub]
  all_goals grind -ring -linarith

@[spec]
theorem withTrailers_reads {base : Node} (hbase : IsOperand base) :
    Reads IsOperand (withTrailers sub base) :=
  grow_reads (fun _ hnode => trailer?_reads hsub hnode) hbase

@[spec]
theorem closureParam_reads : Reads Formed (closureParam sub) := by
  mvcgen [closureParam, hsub]
  all_goals grind -ring -linarith

@[spec]
theorem closureExpr_reads (struct : Bool) : Reads IsOperand (closureExpr sub struct) := by
  mvcgen [closureExpr, hsub]
  all_goals grind -ring -linarith

@[spec]
theorem fieldValue_reads : Reads Formed (fieldValue sub) := by
  have hindex : ∀ text index, memberIndices? text = some [index] → Formed index := by
    intro text index hindices
    have hformed := formedAll_of_memberIndices? hindices
    grind -ring -linarith
  mvcgen [fieldValue, hsub]
  all_goals grind -ring -linarith

@[spec]
theorem structFields_reads : Reads FormedAll (structFields sub) := by
  mvcgen [structFields, hsub]
  all_goals grind -ring -linarith

@[spec]
theorem pathLikeExpr_reads (struct : Bool) : Reads IsOperand (pathLikeExpr sub struct) := by
  mvcgen [pathLikeExpr, hsub]
  all_goals grind -ring -linarith [is_pathExprOf]

@[spec]
theorem parenOrTupleExpr_reads : Reads IsOperand (parenOrTupleExpr sub) := by
  mvcgen [parenOrTupleExpr, hsub]
  all_goals grind -ring -linarith

@[spec]
theorem arrayOrRepeatExpr_reads : Reads IsOperand (arrayOrRepeatExpr sub) := by
  mvcgen [arrayOrRepeatExpr, hsub]
  all_goals grind -ring -linarith

@[spec]
theorem leavingValue?_reads (struct : Bool) : Reads FormedAll (leavingValue? sub struct) := by
  mvcgen [leavingValue?, hsub]
  all_goals grind -ring -linarith

@[spec]
theorem breakExpr_reads (struct : Bool) : Reads IsOperand (breakExpr sub struct) := by
  mvcgen [breakExpr, hsub]
  all_goals grind -ring -linarith

@[spec]
theorem letExpr_reads (struct : Bool) : Reads IsOperand (letExpr sub struct) := by
  mvcgen [letExpr, hsub]
  all_goals grind -ring -linarith

@[spec]
theorem atom_reads (struct : Bool) : Reads IsOperand (atom sub struct) := by
  mvcgen [atom, hsub]
  all_goals grind -ring -linarith

@[spec]
theorem attributedOperand_reads (struct : Bool) {start : Input} (hstart : isUnreadAll start = true)
    {attributes : Node} (hattributes : Formed attributes) :
    Reads IsOperand (attributedOperand sub struct start attributes) := by
  mvcgen [attributedOperand, hsub]
  all_goals grind -ring -linarith [isOperand_withAttributes]

@[spec]
theorem operandRule_reads (struct : Bool) : Reads IsOperand (operandRule sub struct) := by
  mvcgen [operandRule, hsub]
  all_goals grind -ring -linarith

@[spec]
theorem statementExprRule_reads : Reads Formed (statementExprRule sub) := by
  mvcgen [statementExprRule, hsub]
  all_goals grind -ring -linarith [isOperand_withAttributes]

end Productions

end EntityTables.Syntax
