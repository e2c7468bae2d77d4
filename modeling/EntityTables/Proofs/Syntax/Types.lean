import EntityTables.Proofs.Syntax.Reading

/-!
# Paths and types are well-formed
-/

namespace EntityTables.Syntax

open EntityTables.Syntax.Parser Std.Do

set_option mvcgen.warning false

section Paths

/-- Parts that may stand after the first segment of a path. -/
@[grind]
def ContinuesPath (nodes : List Node) : Prop :=
  FormedAll nodes ∧ (nodes = [] ∨ endsInSegment nodes = true)

theorem continuesPath_append {first second : List Node} (hfirst : ContinuesPath first)
    (hsecond : ContinuesPath second) : ContinuesPath (first ++ second) := by
  obtain ⟨hformed, hends⟩ := hsecond
  refine ⟨formedAll_append hfirst.1 hformed, ?_⟩
  rcases hends with rfl | hends
  · rw [List.append_nil]
    exact hfirst.2
  · refine .inr ?_
    rw [endsInSegment_append, hends]
    rintro rfl
    cases hends

theorem endsInSegment_segment (front : List Node) {segment : Node} {rest : List Node}
    (hsegment : isNamedSegment segment = true) (hrest : ContinuesPath rest) :
    endsInSegment (front ++ segment :: rest) = true := by
  rw [endsInSegment_append (List.cons_ne_nil segment rest)]
  rcases hrest.2 with rfl | hends
  · exact hsegment
  · rw [← List.singleton_append, endsInSegment_append, hends]
    rintro rfl
    cases hends

@[spec]
theorem plainPath_reads : Reads Formed plainPath := by
  have hmany := @many_reads ContinuesPath ⟨rfl, .inl rfl⟩ (fun _ _ => continuesPath_append)
  mvcgen [plainPath, hmany, pathWord_reads, -many_reads_formed, -when_reads_unread]
  all_goals grind -ring -linarith [endsInSegment_segment, endsInSegment, isNamedSegment]

@[spec]
theorem literalExpr_reads : Reads IsOperand literalExpr := by
  mvcgen [literalExpr]
  all_goals grind -ring -linarith

@[spec]
theorem attributePath_reads : Reads Formed attributePath := by
  mvcgen [attributePath]
  all_goals grind -ring -linarith [endsInSegment, isNamedSegment]

end Paths

section Productions

variable {sub : Nonterminal → Parser Node}
  (hsub : ∀ nonterminal, nonterminal.Starting → Reads nonterminal.Reading (sub nonterminal))

include hsub

@[spec]
theorem bareBlockExpr_reads : Reads Formed (bareBlockExpr sub) := by
  mvcgen [bareBlockExpr, hsub]
  all_goals grind -ring -linarith

@[spec]
theorem constArgument_reads : Reads Formed (constArgument sub) := by
  mvcgen [constArgument, hsub]
  all_goals grind -ring -linarith

@[spec]
theorem attributeArguments_reads : Reads FormedAll (attributeArguments sub) := by
  have hliteral := attempt_reads literalExpr_reads
  mvcgen [attributeArguments, hsub, hliteral]
  all_goals grind -ring -linarith

@[spec]
theorem outerAttribute_reads : Reads Formed (outerAttribute sub) := by
  mvcgen [outerAttribute, hsub]
  all_goals grind -ring -linarith

@[spec]
theorem outerAttributes_reads : Reads Formed (outerAttributes sub) := by
  mvcgen [outerAttributes, hsub]
  all_goals grind -ring -linarith

@[spec]
theorem innerAttribute_reads : Reads Formed (innerAttribute sub) := by
  mvcgen [innerAttribute, hsub]
  all_goals grind -ring -linarith

@[spec]
theorem innerAttributes_reads : Reads Formed (innerAttributes sub) := by
  mvcgen [innerAttributes, hsub]
  all_goals grind -ring -linarith

@[spec]
theorem forLifetimes?_reads : Reads FormedAll (forLifetimes? sub) := by
  mvcgen [forLifetimes?, hsub]
  all_goals grind -ring -linarith

@[spec]
theorem returnType_reads (plus : Bool) : Reads Formed (returnType sub plus) := by
  mvcgen [returnType, hsub]
  all_goals grind -ring -linarith

@[spec]
theorem parenArgs_reads : Reads Formed (parenArgs sub) := by
  mvcgen [parenArgs, hsub]
  all_goals grind -ring -linarith

@[spec]
theorem bound_reads (capture : Bool) : Reads Formed (bound sub capture) := by
  unfold bound
  refine reads_bind (peek_reads _) fun isLifetime _ => ?_
  split
  · mvcgen
    grind -ring -linarith
  refine reads_bind (peek_reads _) fun isCapture _ => ?_
  split
  · mvcgen [one]
    all_goals grind -ring -linarith
  refine reads_get fun start hstart => ?_
  extract_lets traitParts
  have htrait : Reads FormedAll traitParts := by
    refine reads_bind (forLifetimes?_reads hsub) fun lifetimes hlifetimes => ?_
    refine reads_bind (peek_reads _) fun isBracket _ => ?_
    refine reads_bind (peek_reads _) fun isConst _ => ?_
    refine reads_bind (peek_reads _) fun isTilde _ => ?_
    extract_lets withConstancy
    have hwith : ∀ constancy, FormedAll constancy → Reads FormedAll (withConstancy constancy) := by
      intro constancy hconstancy
      mvcgen [withConstancy, hsub]
      all_goals grind -ring -linarith
    clear_value withConstancy
    mvcgen [hwith]
    all_goals grind -ring -linarith
  clear_value traitParts
  mvcgen [htrait]
  all_goals grind -ring -linarith

@[spec]
theorem bounds_reads (plus capture : Bool) : Reads FormedAll (bounds sub plus capture) := by
  mvcgen [bounds, hsub]
  all_goals grind -ring -linarith

@[spec]
theorem boundsUntil_reads (stop : Input → Bool) : Reads FormedAll (boundsUntil sub stop) := by
  mvcgen [boundsUntil, hsub]
  all_goals grind -ring -linarith

@[spec]
theorem genericArgument_reads : Reads Formed (genericArgument sub) := by
  have hparts : ∀ node, Formed node → FormedAll (singleSegmentParts node) := by
    intro node hnode
    unfold singleSegmentParts
    split <;> grind -ring -linarith
  mvcgen [genericArgument, hsub]
  all_goals grind -ring -linarith

@[spec]
theorem genericArgs_reads : Reads Formed (genericArgs sub) := by
  mvcgen [genericArgs, hsub]
  all_goals grind -ring -linarith

@[spec]
theorem segment_reads (inExpr : Bool) :
    Reads (fun node => Formed node ∧ isNamedSegment node = true) (segment sub inExpr) := by
  mvcgen [segment, hsub]
  all_goals grind -ring -linarith [isNamedSegment]

@[spec]
theorem moreSegments_reads (inExpr : Bool) :
    Reads ContinuesPath (moreSegments sub inExpr) := by
  refine @many_reads ContinuesPath ⟨rfl, .inl rfl⟩ (fun _ _ => continuesPath_append) _ _ ?_
  mvcgen [hsub]
  all_goals grind -ring -linarith [endsInSegment]

/-- A path that is read ends in a segment with its name. -/
@[spec]
theorem path_reads (inExpr : Bool) :
    Reads (fun node => Formed node ∧ node.is .path = true) (path sub inExpr) := by
  mvcgen [path, hsub]
  all_goals grind -ring -linarith [endsInSegment_segment]

@[spec]
theorem qualifiedPath_reads (inExpr : Bool) :
    Reads Formed (qualifiedPath sub inExpr) := by
  mvcgen [qualifiedPath, hsub]
  all_goals grind -ring -linarith

/-! ### Types -/

omit hsub in
/-- Arguments in parentheses take the place of the end of a path, perhaps with more segments. -/
theorem withParenArgs_step {parts more : List Node} {name arguments : Node}
    (hlast : parts.getLast? = some (.phrase .segment [name])) (hparts : FormedAll parts)
    (harguments : Formed arguments) (hmore : ContinuesPath more) :
    let extended := parts.dropLast ++ .phrase .segment [name, arguments] :: more
    FormedAll extended ∧ (endsInSegment parts = true → endsInSegment extended = true) := by
  intro extended
  have hsegment : Formed (.phrase .segment [name]) :=
    wellFormed_of_mem hparts (List.mem_of_getLast? hlast)
  have hfront : FormedAll parts.dropLast :=
    wellFormedAll_subset (List.dropLast_subset parts) hparts
  constructor
  · grind -ring -linarith
  · intro hends
    rw [endsInSegment, hlast] at hends
    refine endsInSegment_segment parts.dropLast ?_ hmore
    cases name with
    | leaf token => rfl
    | group delimiter body => cases hends
    | phrase kind parts => cases hends

theorem withParenArgs_reads (rounds : Nat) : ∀ parts : List Node, FormedAll parts →
    Reads (fun nodes => FormedAll nodes ∧ (endsInSegment parts = true → endsInSegment nodes = true))
      (withParenArgs sub rounds parts) := by
  induction rounds with
  | zero =>
      intro parts hparts
      mvcgen [withParenArgs]
      grind -ring -linarith
  | succ rounds ih =>
      intro parts hparts
      mvcgen [withParenArgs, hsub, ih]
      all_goals grind -ring -linarith [withParenArgs_step]

@[spec]
theorem typePath_reads : Reads Formed (typePath sub) := by
  have hparen := withParenArgs_reads hsub
  mvcgen [typePath, hsub, hparen]
  all_goals grind -ring -linarith

omit hsub in
@[spec]
theorem abi?_reads : Reads FormedAll abi? := by
  mvcgen [abi?]
  all_goals grind -ring -linarith

@[spec]
theorem functionTypeParam_reads (isFirst : Bool) :
    Reads Formed (functionTypeParam sub isFirst) := by
  mvcgen [functionTypeParam, hsub]
  all_goals grind -ring -linarith

@[spec]
theorem functionTypeParams_reads : Reads FormedAll (functionTypeParams sub) := by
  mvcgen [functionTypeParams, hsub]
  all_goals grind -ring -linarith

@[spec]
theorem functionType_reads {lifetimes : List Node}
    (hlifetimes : FormedAll lifetimes) : Reads Formed (functionType sub lifetimes) := by
  mvcgen [functionType, hsub]
  all_goals grind -ring -linarith

@[spec]
theorem moreBounds_reads : Reads FormedAll (moreBounds sub) := by
  mvcgen [moreBounds, hsub]
  all_goals grind -ring -linarith

omit hsub in
theorem formed_of_parenBound? {inner bound : Node} (hinner : Formed inner)
    (hbound : parenBound? inner = some bound) : Formed bound := by
  unfold parenBound? at hbound
  split at hbound <;> grind -ring -linarith

/-- What stands in parentheses in a type is well-formed. -/
@[grind]
def ParenContent.Formed : ParenContent → Prop
  | .nothing => True
  | .only type => Syntax.Formed type
  | .optionalBound bound => Syntax.Formed bound
  | .list types => FormedAll types

@[spec]
theorem parenContent_reads : Reads ParenContent.Formed (parenContent sub) := by
  mvcgen [parenContent, hsub]
  all_goals grind -ring -linarith

@[spec]
theorem parenOrTupleType_reads (plus : Bool) : Reads Formed (parenOrTupleType sub plus) := by
  have hwithin := within_reads (parenContent_reads hsub)
  have hgroup : ∀ node, Formed node → Formed (.phrase .traitBound [.group .paren node.parts]) := by
    grind -ring -linarith
  mvcgen [parenOrTupleType, hsub, hwithin]
  all_goals grind -ring -linarith [formed_of_parenBound?]

@[spec]
theorem pathLikeType_reads (plus : Bool) {lifetimes : List Node}
    (hlifetimes : FormedAll lifetimes) : Reads Formed (pathLikeType sub plus lifetimes) := by
  mvcgen [pathLikeType, hsub]
  all_goals grind -ring -linarith

@[spec]
theorem dynType_reads (plus : Bool) : Reads Formed (dynType sub plus) := by
  mvcgen [dynType, hsub]
  all_goals grind -ring -linarith

@[spec]
theorem arrayOrSliceType_reads : Reads Formed (arrayOrSliceType sub) := by
  mvcgen [arrayOrSliceType, hsub]
  all_goals grind -ring -linarith

@[spec]
theorem typeRule_reads (plus : Bool) : Reads Formed (typeRule sub plus) := by
  mvcgen [typeRule, hsub]
  all_goals grind -ring -linarith

end Productions

end EntityTables.Syntax
