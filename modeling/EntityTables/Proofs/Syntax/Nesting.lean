import EntityTables.Proofs.Syntax.Agreement

/-!
# How deep productions nest

Every production agrees with itself over parsers that agree below the size of the input: those that
it calls before it reads a tree are at most one production away from reading one. So the bound that
a reading is given changes nothing, neither what is read nor what is refused, and trees that are
read alone are read the same within a larger text.
-/

namespace EntityTables.Syntax

open EntityTables.Syntax.Parser

variable {used : Bool} {size : Nat}

/-! ### Parsers that go no deeper -/

section Leaves

set_option synthInstance.maxSize 2048

instance plainPath_agrees : Agrees used size plainPath plainPath := by
  unfold plainPath
  infer_instance

instance literalExpr_agrees : Agrees used size literalExpr literalExpr := by
  unfold literalExpr
  infer_instance

instance attributePath_agrees : Agrees used size attributePath attributePath := by
  unfold attributePath
  infer_instance

instance abi?_agrees : Agrees used size abi? abi? := by
  unfold abi?
  infer_instance

instance rangeLimits_reduces (older : Bool) : Reduces (rangeLimits older) where
  size_lt hrun := by
    obtain ⟨closed, _, hclosed, hlimits⟩ := run_bind_eq_ok.mp hrun
    cases hclosed
    split at hlimits
    · exact Reduces.size_lt hlimits
    · obtain ⟨three, _, hthree, hdots⟩ := run_bind_eq_ok.mp hlimits
      cases hthree
      split at hdots
      · obtain ⟨_, middle, hguard, hthree⟩ := run_bind_eq_ok.mp hdots
        obtain ⟨_, rest, hread, hpure⟩ := run_bind_eq_ok.mp hthree
        obtain ⟨-, rfl⟩ := run_guard_eq_ok.mp hguard
        cases hpure
        exact Reduces.size_lt hread
      · exact Reduces.size_lt hdots

instance label?_agrees : Agrees used size label? label? := by
  unfold label?
  infer_instance

instance statementFront_agrees : Agrees used size statementFront statementFront := by
  unfold statementFront
  refine .looking fun start _ => .after fun front => .looking fun after _ => .after fun _ => ?_
  extract_lets finish
  have hfinish : ∀ read, Agrees used size (finish read) (finish read) := fun _ => .pure _
  infer_instance

instance macroStatement_agrees (attributes : Node) :
    Agrees used size (macroStatement attributes) (macroStatement attributes) := by
  unfold macroStatement
  infer_instance

instance visibility_agrees : Agrees used size visibility visibility := by
  unfold visibility
  refine .after fun _ => .branch inferInstance (.after fun keyword => ?_)
  refine .looking fun input hfits => ?_
  split
  · have hrest := hfits.tail
    infer_instance
  · infer_instance

instance functionQualifiers_agrees (safe : Bool) :
    Agrees used size (functionQualifiers safe) (functionQualifiers safe) := by
  unfold functionQualifiers
  infer_instance

instance asWritten_agrees (front : ItemFront) :
    Agrees used size front.asWritten front.asWritten := .sinceInput _

instance crateItem_agrees (front : ItemFront) :
    Agrees used size (crateItem front) (crateItem front) := by
  unfold crateItem
  infer_instance

instance macroCall_agrees (named : Bool) (attributes : Node) :
    Agrees used size (macroCall named attributes) (macroCall named attributes) := by
  unfold macroCall
  infer_instance

instance macroDefinition_agrees (front : ItemFront) :
    Agrees used size (macroDefinition front) (macroDefinition front) := by
  unfold macroDefinition
  infer_instance

end Leaves

section Productions

set_option synthInstance.maxSize 16384

variable {sub sub' : Nonterminal → Parser Node}
  [hsub : ∀ start, Agrees true size (sub start) (sub' start)]

/-! ### Paths -/

instance bareBlockExpr_agrees : Agrees true size (bareBlockExpr sub) (bareBlockExpr sub') := by
  unfold bareBlockExpr
  infer_instance

instance constArgument_agrees : Agrees true size (constArgument sub) (constArgument sub') := by
  unfold constArgument
  infer_instance

instance attributeArguments_agrees :
    Agrees used size (attributeArguments sub) (attributeArguments sub') := by
  unfold attributeArguments
  refine .after fun _ => .branch inferInstance (.after fun _ => .branch ?_ inferInstance)
  refine .behind fun sign => .looking fun start _ => .after fun literal => ?_
  cases literal with
  | none => infer_instance
  | some literal => infer_instance

instance outerAttribute_agrees : Agrees used size (outerAttribute sub) (outerAttribute sub') := by
  unfold outerAttribute
  infer_instance

instance outerAttributes_agrees :
    Agrees used size (outerAttributes sub) (outerAttributes sub') := by
  unfold outerAttributes
  infer_instance

instance innerAttribute_agrees : Agrees used size (innerAttribute sub) (innerAttribute sub') := by
  unfold innerAttribute
  infer_instance

instance innerAttributes_agrees :
    Agrees used size (innerAttributes sub) (innerAttributes sub') := by
  unfold innerAttributes
  infer_instance

instance forLifetimes?_agrees : Agrees used size (forLifetimes? sub) (forLifetimes? sub') := by
  unfold forLifetimes?
  infer_instance

instance returnType_agrees (plus : Bool) :
    Agrees used size (returnType sub plus) (returnType sub' plus) := by
  unfold returnType
  infer_instance

instance parenArgs_agrees : Agrees used size (parenArgs sub) (parenArgs sub') := by
  unfold parenArgs
  infer_instance

instance bound_agrees (capture : Bool) :
    Agrees true size (bound sub capture) (bound sub' capture) := by
  unfold bound
  refine .after fun _ => .branch inferInstance (.after fun _ => .branch inferInstance ?_)
  refine .looking fun start _ => ?_
  extract_lets parts finish parts'
  have hparts : Agrees true size parts parts' := by infer_instance
  infer_instance

instance bounds_agrees (plus capture : Bool) :
    Agrees true size (bounds sub plus capture) (bounds sub' plus capture) := by
  unfold bounds
  infer_instance

instance boundsUntil_agrees (stop : Input → Bool) :
    Agrees true size (boundsUntil sub stop) (boundsUntil sub' stop) := by
  unfold boundsUntil
  infer_instance

instance genericArgument_agrees :
    Agrees true size (genericArgument sub) (genericArgument sub') := by
  unfold genericArgument
  infer_instance

instance genericArgs_agrees : Agrees used size (genericArgs sub) (genericArgs sub') := by
  unfold genericArgs
  infer_instance

instance segment_agrees (inExpr : Bool) :
    Agrees used size (segment sub inExpr) (segment sub' inExpr) := by
  unfold segment
  infer_instance

instance moreSegments_agrees (inExpr : Bool) :
    Agrees used size (moreSegments sub inExpr) (moreSegments sub' inExpr) := by
  unfold moreSegments
  infer_instance

instance path_agrees (inExpr : Bool) : Agrees used size (path sub inExpr) (path sub' inExpr) := by
  unfold path
  infer_instance

instance qualifiedPath_agrees (inExpr : Bool) :
    Agrees used size (qualifiedPath sub inExpr) (qualifiedPath sub' inExpr) := by
  unfold qualifiedPath
  infer_instance

/-! ### Types -/

instance withParenArgs_agrees (rounds : Nat) (parts : List Node) :
    Agrees used size (withParenArgs sub rounds parts) (withParenArgs sub' rounds parts) := by
  induction rounds generalizing parts with
  | zero => exact .pure _
  | succ rounds ih =>
      unfold withParenArgs
      split
      · infer_instance
      · exact .pure _

instance typePath_agrees : Agrees used size (typePath sub) (typePath sub') := by
  unfold typePath
  infer_instance

instance functionTypeParam_agrees (isFirst : Bool) :
    Agrees true size (functionTypeParam sub isFirst) (functionTypeParam sub' isFirst) := by
  unfold functionTypeParam
  infer_instance

instance functionTypeParams_agrees :
    Agrees true size (functionTypeParams sub) (functionTypeParams sub') := by
  unfold functionTypeParams
  infer_instance

instance functionType_agrees (lifetimes : List Node) :
    Agrees used size (functionType sub lifetimes) (functionType sub' lifetimes) := by
  unfold functionType
  infer_instance

instance moreBounds_agrees : Agrees used size (moreBounds sub) (moreBounds sub') := by
  unfold moreBounds
  infer_instance

instance parenContent_agrees : Agrees true size (parenContent sub) (parenContent sub') := by
  unfold parenContent
  infer_instance

instance parenOrTupleType_agrees (plus : Bool) :
    Agrees used size (parenOrTupleType sub plus) (parenOrTupleType sub' plus) := by
  unfold parenOrTupleType
  refine .looking fun input hfits => ?_
  split
  · next body rest =>
      have hbody := hfits.body
      have hrest := hfits.tail
      have hcontent : Agrees true size (parenContent sub) (parenContent sub') := parenContent_agrees
      rw [within_congr (hcontent.agreesAt body).run_eq]
      refine .after fun content => .after fun _ => ?_
      cases content with
      | nothing => infer_instance
      | list types => infer_instance
      | optionalBound bound => infer_instance
      | only inner =>
          dsimp only
          refine .after fun _ => ?_
          cases parenBound? inner with
          | none => infer_instance
          | some first => infer_instance
  · infer_instance

instance pathLikeType_agrees (plus : Bool) (lifetimes : List Node) :
    Agrees used size (pathLikeType sub plus lifetimes) (pathLikeType sub' plus lifetimes) := by
  unfold pathLikeType
  refine .after fun type => ?_
  split
  · infer_instance
  · exact inferInstance

instance dynType_agrees (plus : Bool) :
    Agrees used size (dynType sub plus) (dynType sub' plus) := by
  unfold dynType
  infer_instance

instance arrayOrSliceType_agrees :
    Agrees used size (arrayOrSliceType sub) (arrayOrSliceType sub') := by
  unfold arrayOrSliceType
  infer_instance

/-- A bound that is a lifetime goes no deeper. -/
theorem bounds_agreesAt {input : Input} (hfits : Fits used size input)
    (hstarts : input.startsLifetime = true) (plus capture : Bool) :
    AgreesAt true size (bounds sub plus capture) (bounds sub' plus capture) input := by
  have hlifetime : ∀ sub, (bound sub capture).run input = lifetime.run input := by
    intro sub
    unfold bound
    change (if input.startsLifetime = true then (do return ← lifetime : Parser Node)
      else _).run input = _
    rw [if_pos hstarts]
  have hbound : AgreesAt true size (bound sub capture) (bound sub' capture) input := by
    refine ⟨(hlifetime sub).trans (hlifetime sub').symm, fun hrun => ?_⟩
    exact hfits.of_lt (Reduces.size_lt ((hlifetime sub).symm.trans hrun))
  unfold bounds
  exact hbound.bind fun _ rest => Agrees.agreesAt rest

instance typeRule_agrees (plus : Bool) :
    Agrees used size (typeRule sub plus) (typeRule sub' plus) := by
  unfold typeRule
  refine .after fun lifetimes => ⟨fun input hfits => .get ?_⟩
  extract_lets choose choose'
  have hchoose : AgreesAt used size (choose ()) (choose' ()) input := by
    iterate 10 refine .ite (fun _ => Agrees.agreesAt input) fun _ => ?_
    refine .ite (fun hstarts => ?_) fun _ => Agrees.agreesAt input
    have hbounds : AgreesAt true size (bounds sub true false) (bounds sub' true false) input :=
      bounds_agreesAt hfits hstarts true false
    exact .of_true (hbounds.bind fun _ rest => Agrees.agreesAt rest)
  exact .ite (fun _ => .guard hchoose) fun _ => hchoose

/-! ### Patterns -/

instance anyPath_agrees (inExpr : Bool) :
    Agrees used size (anyPath sub inExpr) (anyPath sub' inExpr) := by
  unfold anyPath
  infer_instance

instance constBlock_agrees : Agrees used size (constBlock sub) (constBlock sub') := by
  unfold constBlock
  infer_instance

instance rangeBound?_agrees : Agrees used size (rangeBound? sub) (rangeBound? sub') := by
  unfold rangeBound?
  infer_instance

instance rangeAfter_agrees (first : List Node) :
    Agrees used size (rangeAfter sub first) (rangeAfter sub' first) := by
  unfold rangeAfter
  infer_instance

instance fieldPattern_agrees : Agrees true size (fieldPattern sub) (fieldPattern sub') := by
  unfold fieldPattern
  infer_instance

instance pathPattern_agrees : Agrees used size (pathPattern sub) (pathPattern sub') := by
  unfold pathPattern
  infer_instance

instance identPattern_agrees : Agrees used size (identPattern sub) (identPattern sub') := by
  unfold identPattern
  infer_instance

instance restOrRange_agrees : Agrees used size (restOrRange sub) (restOrRange sub') := by
  unfold restOrRange
  infer_instance

instance sliceElement_agrees : Agrees true size (sliceElement sub) (sliceElement sub') := by
  unfold sliceElement
  infer_instance

instance patternRule_agrees : Agrees used size (patternRule sub) (patternRule sub') := by
  unfold patternRule
  refine .looking fun input _ => .branch inferInstance (.branch inferInstance ?_)
  refine .branch inferInstance (.branch ?_ inferInstance)
  refine .after fun first => .after fun _ => .branch inferInstance ?_
  split
  · infer_instance
  · infer_instance

instance alternativesRule_agrees [Agrees used size (sub .pattern) (sub' .pattern)] :
    Agrees used size (alternativesRule sub) (alternativesRule sub') := by
  unfold alternativesRule
  infer_instance

/-! ### Operators -/

instance rightOperand_agrees (struct : Bool) (strength : Precedence) :
    Agrees true size (rightOperand sub struct strength) (rightOperand sub' struct strength) := by
  unfold rightOperand
  infer_instance

instance rangeFrom_agrees (struct : Bool) (start : List Node) :
    Agrees used size (rangeFrom sub struct start) (rangeFrom sub' struct start) := by
  unfold rangeFrom
  infer_instance

theorem isOperator_of_binaryOperator? {input : Input} {operator : String} {strength : Precedence}
    (hfound : binaryOperator? input = some (operator, strength)) : IsOperator operator := by
  have hmem := List.mem_of_find?_eq_some hfound
  have hall : ∀ entry ∈ binaryOperators, entry.1.toList ≠ [] := by decide
  exact ⟨hall _ hmem⟩

instance operatorAfter?_agrees (struct : Bool) (least : Precedence) (left : Node) :
    Agrees used size (operatorAfter? sub struct least left)
      (operatorAfter? sub' struct least left) := by
  unfold operatorAfter?
  refine .looking fun input _ => .branch inferInstance ?_
  cases hfound : binaryOperator? input with
  | none => infer_instance
  | some operator =>
      have hoperator := isOperator_of_binaryOperator? hfound
      infer_instance

instance continuationRule_agrees (left : Node) (struct : Bool) (least : Precedence) :
    Agrees used size (continuationRule sub left struct least)
      (continuationRule sub' left struct least) := by
  unfold continuationRule
  infer_instance

instance exprRule_agrees (struct : Bool)
    [Agrees used size (sub (.operand struct)) (sub' (.operand struct))]
    [∀ left, Agrees used size (sub (.continuation left struct .lowest))
      (sub' (.continuation left struct .lowest))] :
    Agrees used size (exprRule sub struct) (exprRule sub' struct) := by
  unfold exprRule
  infer_instance

/-! ### Statements -/

instance letStatement_agrees (attributes : Node) :
    Agrees true size (letStatement sub attributes) (letStatement sub' attributes) := by
  unfold letStatement
  infer_instance

instance exprStatement_agrees (attributes : Node) :
    Agrees true size (exprStatement sub attributes) (exprStatement sub' attributes) := by
  unfold exprStatement
  refine .after fun read => ?_
  dsimp only
  refine .after fun closing => ?_
  split
  · infer_instance
  · infer_instance

instance statement_agrees : Agrees true size (statement sub) (statement sub') := by
  unfold statement
  refine .after fun _ => .branch inferInstance (.looking fun start _ => .after fun _ => ?_)
  refine .after fun front => ?_
  cases front with
  | item => infer_instance
  | braceMacro => infer_instance
  | other => infer_instance

instance statements_agrees : Agrees true size (statements sub) (statements sub') := by
  unfold statements
  infer_instance

instance blockRule_agrees : Agrees used size (blockRule sub) (blockRule sub') := by
  unfold blockRule
  infer_instance

instance innerAttributes?_agrees :
    Agrees used size (innerAttributes? sub) (innerAttributes? sub') := by
  unfold innerAttributes?
  infer_instance

instance attributedBlock_agrees :
    Agrees used size (attributedBlock sub) (attributedBlock sub') := by
  unfold attributedBlock
  infer_instance

/-! ### Expressions -/

instance ifExpr_agrees : Agrees used size (ifExpr sub) (ifExpr sub') := by
  unfold ifExpr
  infer_instance

instance whileExpr_agrees (label : List Node) :
    Agrees used size (whileExpr sub label) (whileExpr sub' label) := by
  unfold whileExpr
  infer_instance

instance forExpr_agrees (label : List Node) :
    Agrees used size (forExpr sub label) (forExpr sub' label) := by
  unfold forExpr
  infer_instance

instance loopExpr_agrees (label : List Node) :
    Agrees used size (loopExpr sub label) (loopExpr sub' label) := by
  unfold loopExpr
  infer_instance

instance blockExpr_agrees (label : List Node) :
    Agrees used size (blockExpr sub label) (blockExpr sub' label) := by
  unfold blockExpr
  infer_instance

instance matchArm_agrees : Agrees true size (matchArm sub) (matchArm sub') := by
  unfold matchArm
  infer_instance

instance matchExpr_agrees : Agrees used size (matchExpr sub) (matchExpr sub') := by
  unfold matchExpr
  infer_instance

instance labeledExpr_agrees : Agrees used size (labeledExpr sub) (labeledExpr sub') := by
  unfold labeledExpr
  infer_instance

instance blockLike?_agrees : Agrees used size (blockLike? sub) (blockLike? sub') := by
  unfold blockLike?
  infer_instance

instance callArguments_agrees : Agrees used size (callArguments sub) (callArguments sub') := by
  unfold callArguments
  infer_instance

instance memberAfter_agrees (base : Node) :
    Agrees used size (memberAfter sub base) (memberAfter sub' base) := by
  unfold memberAfter
  refine .behind fun dot => .after fun _ => .branch inferInstance (.looking fun input hfits => ?_)
  split
  · next text rest =>
      have hrest := hfits.tail
      have hdot : Fits true size (.punct "." :: rest) := hfits.of_le (Nat.le_of_eq (by
        rw [sizeOfAll_cons, sizeOfAll_cons, Node.size, Node.punct, Node.size]))
      extract_lets trimmed
      cases memberIndices? trimmed with
      | none => infer_instance
      | some indices => infer_instance
  · infer_instance

instance trailer?_agrees (base : Node) :
    Agrees used size (trailer? sub base) (trailer? sub' base) := by
  unfold trailer?
  infer_instance

instance withTrailers_agrees (base : Node) :
    Agrees used size (withTrailers sub base) (withTrailers sub' base) := by
  unfold withTrailers
  infer_instance

instance closureParam_agrees : Agrees true size (closureParam sub) (closureParam sub') := by
  unfold closureParam
  infer_instance

instance closureExpr_agrees (struct : Bool) :
    Agrees used size (closureExpr sub struct) (closureExpr sub' struct) := by
  unfold closureExpr
  infer_instance

instance fieldValue_agrees : Agrees true size (fieldValue sub) (fieldValue sub') := by
  unfold fieldValue
  refine .after fun _ => .looking fun input hfits => ?_
  split
  · have hrest := hfits.tail
    split
    · infer_instance
    · infer_instance
  · infer_instance

instance structFields_agrees : Agrees true size (structFields sub) (structFields sub') := by
  unfold structFields
  infer_instance

instance pathLikeExpr_agrees (struct : Bool) :
    Agrees used size (pathLikeExpr sub struct) (pathLikeExpr sub' struct) := by
  unfold pathLikeExpr
  infer_instance

instance parenOrTupleExpr_agrees :
    Agrees used size (parenOrTupleExpr sub) (parenOrTupleExpr sub') := by
  unfold parenOrTupleExpr
  infer_instance

instance arrayOrRepeatExpr_agrees :
    Agrees used size (arrayOrRepeatExpr sub) (arrayOrRepeatExpr sub') := by
  unfold arrayOrRepeatExpr
  infer_instance

instance leavingValue?_agrees (struct : Bool) :
    Agrees true size (leavingValue? sub struct) (leavingValue? sub' struct) := by
  unfold leavingValue?
  infer_instance

instance breakExpr_agrees (struct : Bool) :
    Agrees used size (breakExpr sub struct) (breakExpr sub' struct) := by
  unfold breakExpr
  infer_instance

instance letExpr_agrees (struct : Bool) :
    Agrees used size (letExpr sub struct) (letExpr sub' struct) := by
  unfold letExpr
  infer_instance

instance atom_agrees (struct : Bool) : Agrees used size (atom sub struct) (atom sub' struct) := by
  unfold atom
  refine .looking fun input _ => ?_
  iterate 14 refine .branch inferInstance ?_
  refine .after fun block => ?_
  cases block with
  | none => infer_instance
  | some block => infer_instance

instance attributedOperand_agrees (struct : Bool) (start : Input) (attributes : Node) :
    Agrees used size (attributedOperand sub struct start attributes)
      (attributedOperand sub' struct start attributes) := by
  unfold attributedOperand
  infer_instance

instance operandRule_agrees (struct : Bool) :
    Agrees used size (operandRule sub struct) (operandRule sub' struct) := by
  unfold operandRule
  infer_instance

instance statementExprRule_agrees [Agrees used size (sub (.operand true)) (sub' (.operand true))]
    [∀ left, Agrees used size (sub (.continuation left true .lowest))
      (sub' (.continuation left true .lowest))] :
    Agrees used size (statementExprRule sub) (statementExprRule sub') := by
  unfold statementExprRule
  refine .after fun _ => .after fun block => ?_
  cases block with
  | none => infer_instance
  | some block => infer_instance

/-! ### Signatures -/

instance boundsAfterColon_agrees (stop : Input → Bool) :
    Agrees true size (boundsAfterColon sub stop) (boundsAfterColon sub' stop) := by
  unfold boundsAfterColon
  infer_instance

instance constDefault_agrees : Agrees true size (constDefault sub) (constDefault sub') := by
  unfold constDefault
  infer_instance

instance genericParam_agrees : Agrees true size (genericParam sub) (genericParam sub') := by
  unfold genericParam
  infer_instance

instance generics_agrees : Agrees used size (generics sub) (generics sub') := by
  unfold generics
  infer_instance

instance predicate_agrees : Agrees true size (predicate sub) (predicate sub') := by
  unfold predicate
  infer_instance

instance whereClause_agrees : Agrees used size (whereClause sub) (whereClause sub') := by
  unfold whereClause
  infer_instance

instance receiver_agrees (attributes : Node) :
    Agrees true size (receiver sub attributes) (receiver sub' attributes) := by
  unfold receiver
  infer_instance

instance functionParam_agrees : Agrees true size (functionParam sub) (functionParam sub') := by
  unfold functionParam
  refine .after fun attributes => .after fun _ => .branch inferInstance (.after fun read => ?_)
  cases read with
  | none => infer_instance
  | some receiver => infer_instance

instance functionParams_agrees : Agrees true size (functionParams sub) (functionParams sub') := by
  unfold functionParams
  infer_instance

instance signature_agrees (safe : Bool) :
    Agrees used size (signature sub safe) (signature sub' safe) := by
  unfold signature
  infer_instance

/-! ### Items -/

instance itemFront_agrees : Agrees used size (itemFront sub) (itemFront sub') := by
  unfold itemFront
  infer_instance

instance namedField_agrees : Agrees true size (namedField sub) (namedField sub') := by
  unfold namedField
  infer_instance

instance namedFields_agrees : Agrees used size (namedFields sub) (namedFields sub') := by
  unfold namedFields
  infer_instance

instance tupleField_agrees : Agrees true size (tupleField sub) (tupleField sub') := by
  unfold tupleField
  infer_instance

instance tupleFields_agrees : Agrees used size (tupleFields sub) (tupleFields sub') := by
  unfold tupleFields
  infer_instance

instance structItem_agrees (front : ItemFront) :
    Agrees used size (structItem sub front) (structItem sub' front) := by
  unfold structItem
  infer_instance

instance enumVariant_agrees : Agrees true size (enumVariant sub) (enumVariant sub') := by
  unfold enumVariant
  infer_instance

instance enumItem_agrees (front : ItemFront) :
    Agrees used size (enumItem sub front) (enumItem sub' front) := by
  unfold enumItem
  infer_instance

instance unionItem_agrees (front : ItemFront) :
    Agrees used size (unionItem sub front) (unionItem sub' front) := by
  unfold unionItem
  infer_instance

instance typeDefinition_agrees (before after : Bool) :
    Agrees used size (typeDefinition sub before after) (typeDefinition sub' before after) := by
  unfold typeDefinition
  infer_instance

instance typeItem_agrees (front : ItemFront) :
    Agrees used size (typeItem sub front) (typeItem sub' front) := by
  unfold typeItem
  infer_instance

instance constantParts?_agrees (keyword : Node) :
    Agrees true size (constantParts? sub keyword) (constantParts? sub' keyword) := by
  unfold constantParts?
  infer_instance

instance constItem_agrees (front : ItemFront) :
    Agrees used size (constItem sub front) (constItem sub' front) := by
  unfold constItem
  refine .behind fun keyword => .after fun constant => ?_
  split
  · infer_instance
  · infer_instance

instance staticItem_agrees (front : ItemFront) :
    Agrees used size (staticItem sub front) (staticItem sub' front) := by
  unfold staticItem
  infer_instance

instance fnItem_agrees (front : ItemFront) :
    Agrees used size (fnItem sub front) (fnItem sub' front) := by
  unfold fnItem
  infer_instance

instance useTreeRule_agrees : Agrees used size (useTreeRule sub) (useTreeRule sub') := by
  unfold useTreeRule
  infer_instance

instance rootUseTree_agrees : Agrees true size (rootUseTree sub) (rootUseTree sub') := by
  unfold rootUseTree
  refine .looking fun input hfits => ?_
  split
  · next body rest =>
      have hbody := hfits.body
      have hrest := hfits.tail
      have hparts : Agrees true size
          (commaList do return (← punct? "::") ++ [← sub .useTree])
          (commaList do return (← punct? "::") ++ [← sub' .useTree]) := by infer_instance
      rw [within_congr (hparts.agreesAt body).run_eq]
      infer_instance
  · infer_instance

instance useItem_agrees (front : ItemFront) :
    Agrees used size (useItem sub front) (useItem sub' front) := by
  unfold useItem
  infer_instance

instance traitMember_agrees : Agrees true size (traitMember sub) (traitMember sub') := by
  unfold traitMember
  refine .after fun front => .after fun default => .looking fun input _ => ?_
  extract_lets finish
  have hfinish : ∀ member, Agrees true size (finish member) (finish member) := by infer_instance
  refine .branch inferInstance (.branch ?_ inferInstance)
  refine .after fun keyword => .after fun constant => ?_
  cases constant with
  | none => infer_instance
  | some constant => infer_instance

instance traitRest_agrees (front : ItemFront) (qualifiers : List Node)
    (keyword name generics : Node) :
    Agrees true size (traitRest sub front qualifiers keyword name generics)
      (traitRest sub' front qualifiers keyword name generics) := by
  unfold traitRest
  infer_instance

instance traitItem_agrees (front : ItemFront) :
    Agrees used size (traitItem sub front) (traitItem sub' front) := by
  unfold traitItem
  infer_instance

instance implMember_agrees : Agrees true size (implMember sub) (implMember sub') := by
  unfold implMember
  refine .after fun front => .after fun hasDefault => ?_
  extract_lets rest rest'
  have hrest : ∀ read, Agrees true size (rest read) (rest' read) := by
    intro default
    refine .looking fun input _ => .branch inferInstance (.branch ?_ inferInstance)
    refine .after fun keyword => .after fun constant => ?_
    split
    · infer_instance
    · infer_instance
  infer_instance

instance implItem_agrees (front : ItemFront) :
    Agrees used size (implItem sub front) (implItem sub' front) := by
  unfold implItem
  refine .after fun _ => .after fun _ => .behind fun _ => .after fun _ => ?_
  extract_lets rest rest'
  have hrest : ∀ read, Agrees true size (rest read) (rest' read) := by
    intro generics
    refine .after fun isConst => ?_
    extract_lets main main'
    have hmain : ∀ read, Agrees true size (main read) (main' read) := by infer_instance
    infer_instance
  infer_instance

instance modItem_agrees (front : ItemFront) :
    Agrees used size (modItem sub front) (modItem sub' front) := by
  unfold modItem
  infer_instance

instance foreignMember_agrees : Agrees true size (foreignMember sub) (foreignMember sub') := by
  unfold foreignMember
  infer_instance

instance foreignItem_agrees (front : ItemFront) :
    Agrees used size (foreignItem sub front) (foreignItem sub' front) := by
  unfold foreignItem
  infer_instance

instance externItem_agrees (front : ItemFront) :
    Agrees used size (externItem sub front) (externItem sub' front) := by
  unfold externItem
  infer_instance

instance itemRule_agrees : Agrees used size (itemRule sub) (itemRule sub') := by
  unfold itemRule
  infer_instance

end Productions

/-! ### All nonterminals -/

section Nonterminals

variable {depth depth' : Nat}

/-- A nonterminal that may start with another one before anything is read. -/
def Nonterminal.StartsWithOther : Nonterminal → Prop
  | .alternatives | .expr _ | .statementExpr => True
  | _ => False

/-- Below a size there is nothing, or there are the sizes up to the one before. -/
theorem Agrees.true_of_pred {α : Type} {first second : Parser α}
    (h : ∀ smaller, size = smaller + 1 → Agrees false smaller first second) :
    Agrees true size first second where
  agreesAt input hfits := by
    cases size with
    | zero => exact absurd hfits.size_le (Nat.not_succ_le_zero _)
    | succ smaller =>
        have hsmaller : Fits false smaller input := ⟨Nat.le_of_succ_le_succ hfits.size_le⟩
        have hat := (h smaller rfl).agreesAt input
        exact ⟨hat.run_eq, fun hrun => ⟨Nat.succ_le_succ (hat.fits hrun).size_le⟩⟩

/-- One production more than the parsers below need, if no other nonterminal comes first. -/
theorem agrees_succ
    [hbelow : ∀ start, Agrees true size (nonterminal depth start) (nonterminal depth' start)]
    {start : Nonterminal} (hdirect : ¬start.StartsWithOther) :
    Agrees false size (nonterminal (depth + 1) start) (nonterminal (depth' + 1) start) := by
  change Agrees false size (production (nonterminal depth) start)
    (production (nonterminal depth') start)
  cases start with
  | type plus => exact typeRule_agrees plus
  | pattern => exact patternRule_agrees
  | operand struct => exact operandRule_agrees struct
  | continuation left struct least => exact continuationRule_agrees left struct least
  | block => exact blockRule_agrees
  | item => exact itemRule_agrees
  | useTree => exact useTreeRule_agrees
  | alternatives => exact absurd trivial hdirect
  | expr struct => exact absurd trivial hdirect
  | statementExpr => exact absurd trivial hdirect

/-- Two productions more are enough for all nonterminals. -/
theorem agrees_succ_succ
    (hbelow : ∀ start, Agrees true size (nonterminal depth start) (nonterminal depth' start))
    (habove : ∀ start, Agrees true size (nonterminal (depth + 1) start)
      (nonterminal (depth' + 1) start)) (start : Nonterminal) :
    Agrees false size (nonterminal (depth + 2) start) (nonterminal (depth' + 2) start) := by
  have hdirect : ∀ {start : Nonterminal}, ¬start.StartsWithOther →
      Agrees false size (nonterminal (depth + 1) start) (nonterminal (depth' + 1) start) :=
    agrees_succ
  have hpattern := @hdirect .pattern id
  have hoperand := fun struct => @hdirect (.operand struct) id
  have hcontinuation := fun left struct least => @hdirect (.continuation left struct least) id
  cases start with
  | alternatives => exact alternativesRule_agrees
  | expr struct => exact exprRule_agrees struct
  | statementExpr => exact statementExprRule_agrees
  | _ => exact agrees_succ id

/-- With a depth for two productions before each tree, a nonterminal does the same as with any
other such depth. -/
theorem nonterminal_agrees (hdepth : 2 * (size + 1) ≤ depth) (hdepth' : 2 * (size + 1) ≤ depth')
    (start : Nonterminal) :
    Agrees false size (nonterminal depth start) (nonterminal depth' start) := by
  induction size using Nat.strongRecOn generalizing depth depth' start with
  | ind size ih =>
      have hbelow {depth depth' : Nat} (hdepth : 2 * size ≤ depth) (hdepth' : 2 * size ≤ depth')
          (start : Nonterminal) :
          Agrees true size (nonterminal depth start) (nonterminal depth' start) := by
        refine .true_of_pred fun smaller hsize => ih smaller ?_ ?_ ?_ start
        · omega
        · omega
        · omega
      obtain ⟨deep, rfl⟩ : ∃ deep, depth = deep + 2 := ⟨depth - 2, by omega⟩
      obtain ⟨deep', rfl⟩ : ∃ deep, depth' = deep + 2 := ⟨depth' - 2, by omega⟩
      refine agrees_succ_succ (hbelow ?_ ?_) (hbelow ?_ ?_) start
      all_goals omega

/-- **The bound on the depth is enough.** With any depth from the bound on, a nonterminal reads the
same, leaves the same, and refuses the same for the same reason. -/
theorem run_nonterminal {input : Input} (hdepth : nestingBound input ≤ depth)
    (start : Nonterminal) :
    (nonterminal depth start).run input = (nonterminal (nestingBound input) start).run input := by
  have hbound : 2 * (Node.sizeOfAll input + 1) ≤ nestingBound input := by
    rw [nestingBound]
    omega
  have hfits : Fits false (Node.sizeOfAll input) input := ⟨Nat.le_refl _⟩
  have hagrees := nonterminal_agrees (Nat.le_trans hbound hdepth) hbound start
  exact (hagrees.agreesAt input).run_eq

end Nonterminals

end EntityTables.Syntax
