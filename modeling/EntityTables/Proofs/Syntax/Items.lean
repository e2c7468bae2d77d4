import EntityTables.Proofs.Syntax.Expressions

/-!
# Files are well-formed

Signatures and items, and with them whole texts, are read into well-formed trees.
-/

namespace EntityTables.Syntax

open EntityTables.Syntax.Parser EntityTables.Text Std.Do

set_option mvcgen.warning false

section Productions

variable {sub : Nonterminal → Parser Node}
  (hsub : ∀ nonterminal, nonterminal.Starting → Reads nonterminal.Reading (sub nonterminal))

include hsub

/-! ### Signatures -/

omit hsub in
@[spec]
theorem visibility_reads : Reads Formed visibility := by
  mvcgen [visibility]
  all_goals grind -ring -linarith

@[spec]
theorem boundsAfterColon_reads (stop : Input → Bool) :
    Reads FormedAll (boundsAfterColon sub stop) := by
  mvcgen [boundsAfterColon, hsub]
  all_goals grind -ring -linarith

@[spec]
theorem constDefault_reads : Reads Formed (constDefault sub) := by
  mvcgen [constDefault, hsub]
  all_goals grind -ring -linarith [endsInSegment, isNamedSegment]

@[spec]
theorem genericParam_reads : Reads Formed (genericParam sub) := by
  mvcgen [genericParam, hsub]
  all_goals grind -ring -linarith

omit hsub in
theorem flatten_pairsWithComma (params : List Node) : (pairsWithComma params).flatten = params := by
  fun_induction pairsWithComma params with
  | case1 param comma rest hcomma ih =>
      rw [List.flatten_cons, ih]
      rfl
  | case2 param comma rest hcomma ih =>
      rw [List.flatten_cons, ih]
      rfl
  | case3 => rfl
  | case4 => rfl

omit hsub in
theorem formedAll_lifetimesFirst {params : List Node} (hparams : FormedAll params) :
    FormedAll (lifetimesFirst params) := by
  have hfiltered : ∀ keep : List Node → Bool,
      FormedAll ((pairsWithComma params).filter keep).flatten := by
    intro keep
    refine wellFormedAll_subset (fun node hmem => ?_) hparams
    obtain ⟨run, hrun, hnode⟩ := List.mem_flatten.mp hmem
    rw [← flatten_pairsWithComma params]
    exact List.mem_flatten.mpr ⟨run, List.mem_of_mem_filter hrun, hnode⟩
  have hlifetimes := hfiltered (·.any isLifetimeParam)
  have hothers := hfiltered (!·.any isLifetimeParam)
  unfold lifetimesFirst
  dsimp only
  split
  · exact formedAll_append hlifetimes (by grind -ring -linarith)
  · exact formedAll_append hlifetimes hothers

@[spec]
theorem generics_reads : Reads Formed (generics sub) := by
  mvcgen [generics, hsub]
  all_goals grind -ring -linarith [formedAll_lifetimesFirst]

@[spec]
theorem predicate_reads : Reads Formed (predicate sub) := by
  mvcgen [predicate, hsub]
  all_goals grind -ring -linarith

@[spec]
theorem whereClause_reads : Reads Formed (whereClause sub) := by
  mvcgen [whereClause, hsub]
  all_goals grind -ring -linarith

@[spec]
theorem receiver_reads {attributes : Node} (hattributes : Formed attributes) :
    Reads Formed (receiver sub attributes) := by
  mvcgen [receiver, hsub]
  all_goals grind -ring -linarith

@[spec]
theorem functionParam_reads : Reads Formed (functionParam sub) := by
  have hreceiver : ∀ attributes, Formed attributes → Reads
      (fun read => ∀ found, read = some found → Formed found) (attempt (receiver sub attributes)) :=
    fun _ hattributes => attempt_reads (receiver_reads hsub hattributes)
  have hpattern : Formed (.phrase .pattern [.ident "_"]) := by decide
  mvcgen [functionParam, hsub, hreceiver]
  all_goals grind -ring -linarith

@[spec]
theorem functionParams_reads : Reads FormedAll (functionParams sub) := by
  mvcgen [functionParams, hsub]
  all_goals grind -ring -linarith

omit hsub in
@[spec]
theorem functionQualifiers_reads (safe : Bool) : Reads Formed (functionQualifiers safe) := by
  mvcgen [functionQualifiers]
  all_goals grind -ring -linarith

@[spec]
theorem signature_reads (safe : Bool) : Reads Formed (signature sub safe) := by
  mvcgen [signature, hsub]
  all_goals grind -ring -linarith

/-! ### Items -/

section Items

variable {front : ItemFront}

/-- The front of an item is well-formed, and the item starts on unread trees. -/
@[grind]
def ItemFront.Formed (front : ItemFront) : Prop :=
  isUnreadAll front.start = true ∧ Syntax.Formed front.attributes ∧ Syntax.Formed front.visibility

omit hsub in
@[grind →]
theorem ItemFront.Formed.parts (hfront : front.Formed) :
    FormedAll front.parts := by
  obtain ⟨-, hattributes, hvisibility⟩ := hfront
  grind -ring -linarith [ItemFront.parts]

omit hsub in
@[spec]
theorem asWritten_reads (hfront : front.Formed) :
    Reads Formed front.asWritten := by
  have hstart := hfront.1
  mvcgen [ItemFront.asWritten]
  all_goals grind -ring -linarith

@[spec]
theorem itemFront_reads : Reads ItemFront.Formed (itemFront sub) := by
  mvcgen [itemFront, hsub]
  all_goals grind -ring -linarith

@[spec]
theorem namedField_reads : Reads Formed (namedField sub) := by
  mvcgen [namedField, hsub]
  all_goals grind -ring -linarith

@[spec]
theorem namedFields_reads : Reads Formed (namedFields sub) := by
  mvcgen [namedFields, hsub]
  all_goals grind -ring -linarith

@[spec]
theorem tupleField_reads : Reads Formed (tupleField sub) := by
  mvcgen [tupleField, hsub]
  all_goals grind -ring -linarith

@[spec]
theorem tupleFields_reads : Reads Formed (tupleFields sub) := by
  mvcgen [tupleFields, hsub]
  all_goals grind -ring -linarith

@[spec]
theorem structItem_reads (hfront : front.Formed) : Reads Formed (structItem sub front) := by
  mvcgen [structItem, hsub]
  all_goals grind -ring -linarith

@[spec]
theorem enumVariant_reads : Reads Formed (enumVariant sub) := by
  mvcgen [enumVariant, hsub]
  all_goals grind -ring -linarith

@[spec]
theorem enumItem_reads (hfront : front.Formed) : Reads Formed (enumItem sub front) := by
  mvcgen [enumItem, hsub]
  all_goals grind -ring -linarith

@[spec]
theorem unionItem_reads (hfront : front.Formed) : Reads Formed (unionItem sub front) := by
  mvcgen [unionItem, hsub]
  all_goals grind -ring -linarith

/-- The parts of a named type are well-formed. -/
@[grind]
def TypeDefinition.Formed (definition : TypeDefinition) : Prop :=
  FormedAll definition.head ∧ FormedAll definition.bounds ∧ FormedAll definition.value ∧
    Syntax.Formed definition.predicates ∧ Syntax.Formed definition.closing

@[spec]
theorem typeDefinition_reads (before after : Bool) :
    Reads TypeDefinition.Formed (typeDefinition sub before after) := by
  mvcgen [typeDefinition, hsub]
  all_goals grind -ring -linarith

@[spec]
theorem typeItem_reads (hfront : front.Formed) : Reads Formed (typeItem sub front) := by
  mvcgen [typeItem, hsub]
  all_goals grind -ring -linarith

@[spec]
theorem constantParts?_reads {keyword : Node} (hkeyword : Formed keyword) :
    Reads (fun read => ∀ parts valued, read = some (parts, valued) → FormedAll parts)
      (constantParts? sub keyword) := by
  mvcgen [constantParts?, hsub]
  all_goals grind -ring -linarith

@[spec]
theorem constItem_reads (hfront : front.Formed) : Reads Formed (constItem sub front) := by
  mvcgen [constItem, hsub]
  all_goals grind -ring -linarith

@[spec]
theorem staticItem_reads (hfront : front.Formed) : Reads Formed (staticItem sub front) := by
  mvcgen [staticItem, hsub]
  all_goals grind -ring -linarith

@[spec]
theorem fnItem_reads (hfront : front.Formed) : Reads Formed (fnItem sub front) := by
  mvcgen [fnItem, hsub]
  all_goals grind -ring -linarith

@[spec]
theorem useTreeRule_reads : Reads Formed (useTreeRule sub) := by
  mvcgen [useTreeRule, hsub]
  all_goals grind -ring -linarith

@[spec]
theorem rootUseTree_reads : Reads Formed (rootUseTree sub) := by
  mvcgen [rootUseTree, hsub]
  all_goals grind -ring -linarith

@[spec]
theorem useItem_reads (hfront : front.Formed) : Reads Formed (useItem sub front) := by
  have hparts := hfront.parts
  unfold useItem
  refine reads_bind (word_reads "use") fun keyword hkeyword => ?_
  refine reads_bind (punct?_reads "::") fun leading hleading => ?_
  extract_lets afterTree
  have hafter : ∀ tree, Formed tree → Reads Formed (afterTree tree) := by
    intro tree htree
    refine reads_bind (punct_reads ";") fun closing hclosing => ?_
    extract_lets isMixed
    split
    · exact asWritten_reads hfront
    · mvcgen
      grind -ring -linarith
  clear_value afterTree
  mvcgen [hsub, hafter]
  all_goals grind -ring -linarith

omit hsub in
@[spec]
theorem crateItem_reads (hfront : front.Formed) :
    Reads Formed (crateItem front) := by
  have hparts := hfront.parts
  mvcgen [crateItem]
  all_goals grind -ring -linarith

omit hsub in
@[spec]
theorem macroCall_reads (named : Bool) {attributes : Node} (hattributes : Formed attributes) :
    Reads Formed (macroCall named attributes) := by
  mvcgen [macroCall]
  all_goals grind -ring -linarith

/-! ### Members and the items around them -/

@[spec]
theorem traitMember_reads : Reads Formed (traitMember sub) := by
  mvcgen [traitMember, hsub]
  all_goals grind -ring -linarith

@[spec]
theorem traitRest_reads (hfront : front.Formed) {qualifiers : List Node}
    (hqualifiers : FormedAll qualifiers) {keyword name generics : Node} (hkeyword : Formed keyword)
    (hname : Formed name) (hgenerics : Formed generics) :
    Reads Formed (traitRest sub front qualifiers keyword name generics) := by
  have hparts := hfront.parts
  have hsupertraits : ∀ bounds, FormedAll bounds → Formed (.phrase .supertraits bounds) := by
    grind -ring -linarith
  mvcgen [traitRest, hsub]
  all_goals grind -ring -linarith

@[spec]
theorem traitItem_reads (hfront : front.Formed) : Reads Formed (traitItem sub front) := by
  mvcgen [traitItem, hsub]
  all_goals grind -ring -linarith

@[spec]
theorem implMember_reads : Reads Formed (implMember sub) := by
  have hqualifiers : ∀ words, FormedAll words → Formed (.phrase .qualifiers words) := by
    grind -ring -linarith
  mvcgen [implMember, hsub]
  all_goals grind -ring -linarith

omit hsub in
theorem formedAll_pathOfType? {type : Node} (htype : Formed type) :
    FormedAll (pathOfType? type).toList := by
  unfold pathOfType?
  split <;> grind -ring -linarith

@[spec]
theorem implItem_reads (hfront : front.Formed) : Reads Formed (implItem sub front) := by
  have hqualifiers : ∀ words, FormedAll words → Formed (.phrase .qualifiers words) := by
    grind -ring -linarith
  have himplFor : ∀ parts, FormedAll parts → Formed (.phrase .implFor parts) := by
    grind -ring -linarith
  unfold implItem
  refine reads_bind (word?_reads "default") fun default hdefault => ?_
  refine reads_bind (word?_reads "unsafe") fun unsafety hunsafety => ?_
  refine reads_bind (word_reads "impl") fun keyword hkeyword => reads_bind (peek_reads _) fun _ _ => ?_
  extract_lets afterGenerics
  have hgenerics : ∀ generics, Formed generics → Reads Formed (afterGenerics generics) := by
    refine fun generics hgenerics => reads_bind (peek_reads _) fun isConst _ => ?_
    extract_lets afterConst
    have hconst : ∀ read, Reads Formed (afterConst read) := by
      refine fun _ => reads_get fun start hstart => ?_
      refine reads_bind (orNothing_reads _ ?_) fun negative hnegative => ?_
      · mvcgen
        all_goals grind -ring -linarith
      refine reads_bind (hsub (.type true) trivial) fun first hfirst => ?_
      refine reads_bind (peek_reads _) fun isFor _ => ?_
      extract_lets implemented
      refine reads_bind (orNothing_reads _ ?_) fun implFor himplemented => ?_
      · mvcgen
        all_goals grind -ring -linarith [formedAll_pathOfType?]
      extract_lets afterSelf
      have hself : ∀ self, Formed self → Reads Formed (afterSelf self) := by
        intro self hself
        mvcgen [hsub]
        all_goals grind -ring -linarith
      clear_value afterSelf
      mvcgen [hsub, hself]
      all_goals grind -ring -linarith
    clear_value afterConst
    mvcgen [hconst]
    all_goals grind -ring -linarith
  clear_value afterGenerics
  mvcgen [hsub, hgenerics]
  all_goals grind -ring -linarith

@[spec]
theorem modItem_reads (hfront : front.Formed) : Reads Formed (modItem sub front) := by
  mvcgen [modItem, hsub]
  all_goals grind -ring -linarith

@[spec]
theorem foreignMember_reads : Reads Formed (foreignMember sub) := by
  mvcgen [foreignMember, hsub]
  all_goals grind -ring -linarith

@[spec]
theorem foreignItem_reads (hfront : front.Formed) : Reads Formed (foreignItem sub front) := by
  mvcgen [foreignItem, hsub]
  all_goals grind -ring -linarith

omit hsub in
@[spec]
theorem macroDefinition_reads (hfront : front.Formed) :
    Reads Formed (macroDefinition front) := by
  mvcgen [macroDefinition]
  all_goals grind -ring -linarith

@[spec]
theorem externItem_reads (hfront : front.Formed) : Reads Formed (externItem sub front) := by
  mvcgen [externItem, hsub]
  all_goals grind -ring -linarith

@[spec]
theorem itemRule_reads : Reads Formed (itemRule sub) := by
  mvcgen [itemRule, hsub]
  all_goals grind -ring -linarith

@[spec]
theorem fileRule_reads : Reads Formed (fileRule sub) := by
  mvcgen [fileRule, hsub]
  all_goals grind -ring -linarith

end Items

/-- Each production reads what its nonterminal has to read. -/
theorem production_reads (nonterminal : Nonterminal) (hstarting : nonterminal.Starting) :
    Reads nonterminal.Reading (production sub nonterminal) := by
  cases nonterminal with
  | type plus => exact typeRule_reads hsub plus
  | pattern => exact patternRule_reads hsub
  | alternatives => exact alternativesRule_reads hsub
  | expr struct => exact exprRule_reads hsub struct
  | operand struct => exact operandRule_reads hsub struct
  | continuation left struct least => exact continuationRule_reads hsub hstarting struct least
  | statementExpr => exact statementExprRule_reads hsub
  | block => exact blockRule_reads hsub
  | item => exact itemRule_reads hsub
  | useTree => exact useTreeRule_reads hsub

end Productions

/-! ### Whole texts -/

theorem nonterminal_reads (depth : Nat) : ∀ start : Nonterminal, start.Starting →
    Reads start.Reading (nonterminal depth start) := by
  induction depth with
  | zero =>
      intro start _
      exact reads_iff.mpr fun _ _ _ _ hrun => by cases hrun
  | succ depth ih =>
      intro start hstarting
      exact production_reads ih start hstarting

/-- What is read from a text has the property that the parser ensures. -/
theorem formed_of_readText? {α : Type} {formed : α → Prop} {text : String}
    {parser : (Nonterminal → Parser Node) → Parser α}
    (hparser : ∀ depth, Reads formed (parser (nonterminal depth))) {read : α}
    (hread : readText? text parser = some read) : formed read := by
  obtain ⟨input, hlex, hread⟩ := Option.bind_eq_some_iff.mp hread
  unfold readAll at hread
  split at hread
  · next read hrun =>
      cases hread
      exact (reads_iff.mp (hparser _) input _ _ (isUnreadAll_of_lex? hlex) hrun).1
  · cases hread
  · cases hread

/-- A text that is a path is read into a phrase of that kind. -/
theorem is_path_of_parsePath? {text : String} {path : Node} (hread : parsePath? text = some path) :
    path.is .path = true := by
  let parser (sub : Nonterminal → Parser Node) : Parser Node := Syntax.path sub false
  have hpath : ∀ depth, Reads (fun node => Formed node ∧ node.is .path = true)
      (parser (nonterminal depth)) := fun depth => path_reads (nonterminal_reads depth) false
  have hformed := formed_of_readText? hpath hread
  exact hformed.2

/-- **The form of files.** A text that is a file is read into a well-formed tree. -/
theorem wellFormed_of_parseFile? {text : String} {file : Node}
    (hread : parseFile? text = some file) : wellFormed file = true :=
  formed_of_readText? (fun depth => fileRule_reads (nonterminal_reads depth)) hread

end EntityTables.Syntax
