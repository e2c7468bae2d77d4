import EntityTables.Generated.Code
import EntityTables.Proofs.Generated.WrittenTables
import EntityTables.Proofs.Syntax.Rejection

/-!
# The written code of entities

The record type of an interface with its constructor, and the conversions of a struct, are read back
from their tokens. The types in getters stand behind an `&`, which takes less than a type does
elsewhere: where one joins bounds, the getter is rejected, and with it all methods of the record.
-/

namespace EntityTables.Generated

open EntityTables.Syntax EntityTables.Syntax.Parser EntityTables.Schema

/-! ### Shared pieces -/

section Pieces

variable {base value : Node} {name : String}

theorem readsOperand_methodCall {arguments : List Node} (hbase : ReadsOperand base)
    (hname : isName name = true) (harguments : ∀ argument ∈ arguments, ReadsExpr argument) :
    ReadsOperand (methodCall base name arguments) :=
  readsOperand_methodCallWith hbase hname harguments (.inl rfl)

theorem steady_methodCallWith {typeArguments : Node} {arguments : List Node} (hbase : Steady base)
    (hplain : base.is .attributes = false) (htypes : typeArguments.is .attributes = false) :
    Steady (methodCallWith typeArguments base name arguments) := by
  refine steady_bareExpr rfl rfl ?_ (.inl hbase)
  exact List.forall_mem_cons.mpr ⟨hplain, List.forall_mem_cons.mpr ⟨rfl, List.forall_mem_cons.mpr
    ⟨rfl, List.forall_mem_cons.mpr ⟨htypes, List.forall_mem_singleton.mpr rfl⟩⟩⟩⟩

theorem readsOperand_ownBag : ReadsOperand ownBag :=
  readsOperand_fieldOf (readsOperand_nameExpr (by decide)) (by decide)

theorem startsStatement_ownBag : StartsStatement ownBag := fun _ => rfl

theorem readsOperand_self : ReadsOperand (nameExpr "self") := readsOperand_nameExpr (by decide)

theorem readsOperand_it : ReadsOperand (nameExpr "it") := readsOperand_nameExpr (by decide)

theorem readsOutput_named (hname : isPathWord name = true) :
    ReadsOutput (Signature.outputOf (namedType name)) :=
  readsOutput_outputOf (recovers_pathType (readsPath_name hname))

theorem startsStatement_structOf (fields : List Node) : StartsStatement (structOf "Self" fields) := by
  have hlexed : (structOf "Self" fields).lexed =
      [.ident "Self", .group .brace (Node.lexedAll fields)] := by
    simp [structOf, namePath, bareExpr, pathOf, joinSegments, segmentOf, braces, Kind.isOpen]
  intro rest
  rw [hlexed]
  rfl

theorem readsBody_structOf {fields : List Node}
    (hfields : (commaList structPart).run (Node.lexedAll fields) = .ok (fields, [])) :
    ReadsBody [resultOf (structOf "Self" fields)] :=
  readsBody_expr (readsExpr_structOf hfields) rfl (startsStatement_structOf fields)

end Pieces

/-! ### Record types -/

/-- A getter whose name and types can be read where its code has them. -/
structure Getter.Legible (getter : Getter) : Prop where
  property : isName getter.property = true
  stored : getter.readsThrough = false → ReadsType getter.storedType
  read : ReadsType getter.readType
  plain : getter.readType.is .verbatim = false

structure Setter.Legible (setter : Setter) : Prop where
  method : isName setter.method = true
  stored : ReadsType setter.storedType

structure KeyHelper.Legible (helper : KeyHelper) : Prop where
  method : isName helper.method = true
  property : isName helper.property = true
  key : isName helper.key = true
  type : ReadsType helper.keyType
  plain : helper.keyType.is .verbatim = false

structure RecordType.Legible (type : RecordType) : Prop where
  name : isName type.name = true
  tableType : isName type.tableType = true
  getters : ∀ getter ∈ type.getters, getter.Legible
  setters : ∀ setter ∈ type.setters, setter.Legible
  keyHelpers : ∀ helper ∈ type.keyHelpers, helper.Legible

/-- The types that stand behind an `&` in the methods of a record. -/
def RecordType.borrowedTypes (type : RecordType) : List Node :=
  type.getters.map (·.readType) ++ type.keyHelpers.map (·.keyType)

section Records

variable {getter : Getter} {setter : Setter} {helper : KeyHelper} {type : RecordType}

theorem readsMember_readingMethod {doc name : String} {type value : Node} (hname : isName name = true)
    (htype : ReadsType type) (hplain : type.is .verbatim = false) (hjoins : joinsBounds type = false)
    (hbody : ReadsBody [resultOf value]) : ReadsMember (readingMethod doc name type value) := by
  obtain ⟨read, hattributes⟩ := readsAttributes_described doc
  have hborrowed := readsType_referenceTo htype hjoins hplain
  have hsignature := readsSignature_plain hname
    (List.forall_mem_singleton.mpr readsInput_selfByReference) rfl
    (readsOutput_outputOf (recovers_pathType (readsPath_option hborrowed)))
  exact readsMember_function hattributes (.inl rfl) hsignature hbody

theorem rejectsMember_readingMethod {doc name : String} {type value : Node}
    (hname : isName name = true) (htype : ReadsType type) (hjoins : joinsBounds type = true) :
    RejectsMember (readingMethod doc name type value) := by
  obtain ⟨read, hattributes⟩ := readsAttributes_described doc
  refine rejectsMember_function hattributes (.inl rfl) fun rest => ?_
  exact rejects_signature hname (List.forall_mem_singleton.mpr readsInput_selfByReference) rfl rfl
    rest (rejects_optionOf htype hjoins _)

theorem readsMember_newCode {type : RecordType} (htype : isName type.tableType = true) :
    ReadsMember type.newCode := by
  have hfields := run_commaList (List.forall_mem_singleton.mpr
    (recoversPart_fieldGiven (by decide : isName "record" = true)
      (readsOperand_emptyBag htype).readsExpr))
  have hsignature := readsSignature_plain (by decide : isName "new" = true) (List.forall_mem_nil _)
    rfl (readsOutput_named (by decide : isPathWord "Self" = true))
  exact readsMember_function (.cons (readsAttribute_text (by decide) _)
    (.cons readsAttribute_mustUse .nil)) (.inl rfl) hsignature (readsBody_structOf hfields)

theorem readsMember_wrapCode : ReadsMember RecordType.wrapCode := by
  have hfields := run_commaList (List.forall_mem_singleton.mpr
    (recoversPart_fieldNamed (by decide : isName "record" = true)))
  have hsignature := readsSignature_plain (by decide : isName "from_entity_record" = true)
    (List.forall_mem_singleton.mpr (readsInput_inputOf (by decide : isName "record" = true)
      (readsType_pathType readsPath_bag))) rfl
    (readsOutput_named (by decide : isPathWord "Self" = true))
  exact readsMember_function (.cons (readsAttribute_text (by decide) _)
    (.cons readsAttribute_mustUse .nil)) (.inl rfl) hsignature (readsBody_structOf hfields)

theorem readsMember_unwrapCode : ReadsMember RecordType.unwrapCode := by
  have hsignature := readsSignature_plain (by decide : isName "into_entity_record" = true)
    (List.forall_mem_singleton.mpr readsInput_selfByValue) rfl
    (readsOutput_outputOf (recovers_pathType readsPath_bag))
  exact readsMember_function (.cons (readsAttribute_text (by decide) _)
    (.cons readsAttribute_mustUse .nil)) (.inl rfl) hsignature
    (readsBody_expr readsOperand_ownBag.readsExpr rfl startsStatement_ownBag)

/-- Reads an optional property through, with the given type arguments. -/
def readThrough (typeArguments : Node) (property : String) : Node :=
  methodCall (methodCallWith typeArguments ownBag "get" [textExpr property]) "and_then"
    [closure "it" (methodCall (nameExpr "it") "as_ref" [])]

/-- The calls after the property bag. -/
def throughTokens (typeArguments : Node) (property : String) : Input :=
  .punct "." :: .ident "get" :: (typeArguments.lexed ++
    .group .paren (Node.lexedAll (commaSeparated [textExpr property])) :: .punct "." ::
      .ident "and_then" :: [.group .paren (Node.lexedAll (commaSeparated
        [closure "it" (methodCall (nameExpr "it") "as_ref" [])]))])

theorem lexed_readThrough {typeArguments : Node} (htypes : typeArguments.is .attributes = false)
    (property : String) (position : Position) : (readThrough typeArguments property).lexedAt position =
      ownBag.lexed ++ throughTokens typeArguments property := by
  have hsteady : Steady (readThrough typeArguments property) :=
    steady_methodCallWith (steady_methodCallWith readsOperand_ownBag.steady rfl htypes) rfl rfl
  rw [hsteady, readThrough, methodCall, lexed_methodCallWith, lexed_methodCallWith]
  simp [throughTokens]

/-- One token closes the brackets of the optional form and those around it. They are read as two. -/
theorem readsTail_through (property : String) {type : Node} (htype : ReadsType type) :
    ReadsTail (resultOf (readThrough (optionTurbofish type) property)) := by
  have hkey : ∀ argument ∈ [textExpr property], ReadsExpr argument :=
    List.forall_mem_singleton.mpr (readsExpr_text property)
  have hclosure : ∀ argument ∈ [closure "it" (methodCall (nameExpr "it") "as_ref" [])],
      ReadsExpr argument := List.forall_mem_singleton.mpr (readsExpr_closure (by decide)
    (readsOperand_methodCall readsOperand_it (by decide) (List.forall_mem_nil _)))
  have hget : ReadsOperand (methodCallWith (turbofish (optionOf type)) ownBag "get"
      [textExpr property]) := readsOperand_methodCallWith readsOperand_ownBag (by decide) hkey
    (.inr ⟨_, rfl, readsType_optionOf htype⟩)
  have hread : ReadsOperand (readThrough (turbofish (optionOf type)) property) :=
    readsOperand_methodCall hget (by decide) hclosure
  have hgrowth : Growth (trailer? reading) ownBag (throughTokens (optionTurbofish type) property)
      (readThrough (turbofish (optionOf type)) property) [] := by
    refine .round (run_trailer?_dot readsOperand_ownBag (by decide)
      (run_memberNamed_option htype hkey _)) (by simp [throughTokens]) ?_
    refine .round (run_trailer?_dot hget (by decide)
      (run_memberNamed hclosure (.inl rfl) [])) (by simp) ?_
    exact .stop (run_trailer?_of_ends rfl)
  have hrun : (atom reading true >>= withTrailers reading).run
      (ownBag.lexed ++ throughTokens (optionTurbofish type) property) =
        .ok (readThrough (turbofish (optionOf type)) property, []) :=
    readsOperand_ownBag.grows rfl hgrowth
  have hrest : Input.startsPunct (throughTokens (optionTurbofish type) property) "#" = false := rfl
  have hoperand := run_operand (readsOperand_ownBag.starts.append hrest) hread.isOperand hrun
  have hlexed : (resultOf (readThrough (optionTurbofish type) property)).lexed =
      ownBag.lexed ++ throughTokens (optionTurbofish type) property :=
    lexed_resultOf.trans (lexed_readThrough rfl property .whole)
  have hstarts := startsStatement_ownBag (throughTokens (optionTurbofish type) property)
  refine ⟨rfl, hlexed ▸ List.append_ne_nil_of_right_ne_nil _ (List.cons_ne_nil _ _),
    hlexed ▸ opensStatement_of_starts hstarts,
    resultOf (readThrough (turbofish (optionOf type)) property), ?_, rfl⟩
  rw [hlexed]
  exact run_statement_expr hstarts hread.isOperand.isBlockLike_eq_false rfl hoperand rfl rfl

theorem Getter.value_eq (getter : Getter) : getter.value =
    if getter.readsThrough then readThrough (optionTurbofish getter.readType) getter.property
    else methodCallWith (turbofish getter.storedType) ownBag "get" [textExpr getter.property] := rfl

theorem Getter.Legible.readsMember (hgetter : getter.Legible)
    (hjoins : joinsBounds getter.readType = false) : ReadsMember getter.code := by
  refine readsMember_readingMethod hgetter.property hgetter.read hgetter.plain hjoins ?_
  rw [getter.value_eq]
  cases hthrough : getter.readsThrough with
  | true =>
      exact readsBody_tail (List.forall_mem_nil _)
        (readsTail_through getter.property hgetter.read)
  | false =>
      have hvalue : ReadsOperand (methodCallWith (turbofish getter.storedType) ownBag "get"
          [textExpr getter.property]) :=
        readsOperand_methodCallWith readsOperand_ownBag (by decide)
          (List.forall_mem_singleton.mpr (readsExpr_text _))
          (.inr ⟨_, rfl, hgetter.stored hthrough⟩)
      exact readsBody_expr hvalue.readsExpr rfl (startsStatement_ownBag.methodCallWith _ _ _)

theorem Setter.Legible.readsMember (hsetter : setter.Legible) : ReadsMember setter.code := by
  have hsignature := readsSignature_plain hsetter.method (List.forall_mem_cons.mpr
    ⟨readsInput_selfByMutable, List.forall_mem_singleton.mpr
      (readsInput_inputOf (by decide : isName "value" = true) hsetter.stored)⟩) rfl readsOutput_none
  have hstoring := readsStatement_storing readsOperand_ownBag
    (readsOperand_nameExpr (by decide : isPathWord "value" = true)).readsExpr (fun _ => rfl)
    setter.property
  exact readsMember_function (.cons (readsAttribute_doc _) .nil) (.inl rfl) hsignature
    (readsBody_statements (List.forall_mem_singleton.mpr hstoring))

theorem KeyHelper.Legible.readsMember (hhelper : helper.Legible)
    (hjoins : joinsBounds helper.keyType = false) : ReadsMember helper.code := by
  refine readsMember_readingMethod hhelper.method hhelper.type hhelper.plain hjoins ?_
  have hclosure : ReadsExpr (closure "it" (methodCall (nameExpr "it") helper.key [])) :=
    readsExpr_closure (by decide)
      (readsOperand_methodCall readsOperand_it hhelper.key (List.forall_mem_nil _))
  have hvalue : ReadsOperand helper.value :=
    readsOperand_methodCall
      (readsOperand_methodCall readsOperand_self hhelper.property (List.forall_mem_nil _))
      (by decide) (List.forall_mem_singleton.mpr hclosure)
  have hstarts : StartsStatement (methodCall (nameExpr "self") helper.property []) := by
    intro rest
    rw [methodCall, lexed_methodCallWith]
    rfl
  exact readsBody_expr hvalue.readsExpr rfl (hstarts.methodCall _ _)

/-- The methods of a record are read one by one, or rejected for what stands behind an `&`. -/
theorem RecordType.Legible.member_cases (htype : type.Legible) :
    ∀ member ∈ type.members, ReadsMember member ∨
      RejectsMember member ∧ ∃ own ∈ type.borrowedTypes, joinsBounds own = true := by
  simp only [RecordType.members, List.forall_mem_append, List.forall_mem_cons, List.forall_mem_map]
  refine ⟨⟨⟨⟨.inl (readsMember_newCode htype.tableType), .inl readsMember_wrapCode,
    .inl readsMember_unwrapCode, List.forall_mem_nil _⟩, fun getter hmem => ?_⟩,
    fun setter hmem => .inl (htype.setters setter hmem).readsMember⟩, fun helper hmem => ?_⟩
  · have hgetter := htype.getters getter hmem
    cases hjoins : joinsBounds getter.readType with
    | false => exact .inl (hgetter.readsMember hjoins)
    | true =>
        exact .inr ⟨rejectsMember_readingMethod hgetter.property hgetter.read hjoins, _,
          List.mem_append_left _ (List.mem_map_of_mem hmem), hjoins⟩
  · have hhelper := htype.keyHelpers helper hmem
    cases hjoins : joinsBounds helper.keyType with
    | false => exact .inl (hhelper.readsMember hjoins)
    | true =>
        exact .inr ⟨rejectsMember_readingMethod hhelper.method hhelper.type hjoins, _,
          List.mem_append_right _ (List.mem_map_of_mem hmem), hjoins⟩

theorem RecordType.Legible.exists_rejected (htype : type.Legible)
    (hjoins : ∃ own ∈ type.borrowedTypes, joinsBounds own = true) :
    ∃ member ∈ type.members, RejectsMember member := by
  obtain ⟨own, hmem, hjoins⟩ := hjoins
  rcases List.mem_append.mp hmem with hmem | hmem
  · obtain ⟨getter, hgetter, rfl⟩ := List.mem_map.mp hmem
    have hlegible := htype.getters getter hgetter
    refine ⟨getter.code, ?_, rejectsMember_readingMethod hlegible.property hlegible.read hjoins⟩
    exact List.mem_append_left _ (List.mem_append_left _ (List.mem_append_right _
      (List.mem_map_of_mem hgetter)))
  · obtain ⟨helper, hhelper, rfl⟩ := List.mem_map.mp hmem
    have hlegible := htype.keyHelpers helper hhelper
    refine ⟨helper.code, ?_, rejectsMember_readingMethod hlegible.method hlegible.type hjoins⟩
    exact List.mem_append_right _ (List.mem_map_of_mem hhelper)

/-- The implementation that holds the methods of a record. -/
def RecordType.ownCode (type : RecordType) : Node := ownImpl type.selfType type.members

theorem RecordType.Legible.readsItem_own (htype : type.Legible)
    (hborrows : ∀ own ∈ type.borrowedTypes, joinsBounds own = false) : ReadsItem type.ownCode := by
  refine readsItem_ownImpl (readsPath_own htype.name) fun member hmem => ?_
  refine (htype.member_cases member hmem).resolve_right fun hrejected => ?_
  obtain ⟨-, own, hown, hjoins⟩ := hrejected
  exact Bool.false_ne_true ((hborrows own hown).symm.trans hjoins)

theorem RecordType.Legible.rejectsItem_own (htype : type.Legible)
    (hjoins : ∃ own ∈ type.borrowedTypes, joinsBounds own = true) : RejectsItem type.ownCode := by
  refine rejectsItem_ownImpl (readsPath_own htype.name) (fun member hmem => ?_)
    (htype.exists_rejected hjoins)
  exact (htype.member_cases member hmem).imp_right And.left

theorem RecordType.Legible.item_cases (htype : type.Legible) :
    ReadsItem type.ownCode ∨ RejectsItem type.ownCode := by
  by_cases hjoins : ∃ own ∈ type.borrowedTypes, joinsBounds own = true
  · exact .inr (htype.rejectsItem_own hjoins)
  · refine .inl (htype.readsItem_own fun own hmem => Bool.eq_false_iff.mpr fun hown => ?_)
    exact hjoins ⟨own, hmem, hown⟩

/-- The other items of a record are read whatever its methods return. -/
theorem RecordType.Legible.readsItem (htype : type.Legible) :
    ∀ item ∈ type.code, item = type.ownCode ∨ ReadsItem item := by
  have hself : ReadsPath false (pathOf [segmentOf type.name]) := readsPath_own htype.name
  have hattributes : List.Forall₂ ReadsAttribute
      [docAttribute ("Values of a `" ++ type.entity ++ "` entity."),
        listAttribute "derive" [words "Debug"]] _ :=
    .cons (readsAttribute_doc _) (.cons (readsAttribute_list (by decide) _) .nil)
  have hdefault : ReadsMember (memberFunction [] (.empty .visibility)
      (plainSignature "default" [] RecordType.returningSelf)
        [resultOf (callOf (namePath ["Self", "new"]) [])]) := by
    have hsignature := readsSignature_plain (by decide : isName "default" = true)
      (List.forall_mem_nil _) rfl (readsOutput_named (by decide : isPathWord "Self" = true))
    have hnew : ReadsPath true (namePath ["Self", "new"]) :=
      readsPath_names (by decide) (List.forall_mem_singleton.mpr (by decide))
    exact readsMember_function .nil (.inr rfl) hsignature
      (readsBody_expr (readsOperand_callOf hnew (List.forall_mem_nil _)).readsExpr rfl
        (startsStatement_callOf fun _ _ => rfl))
  have hentity : ReadsMember (memberFunction [] (.empty .visibility) (plainSignature "entity_record"
      [selfByReference] (Signature.outputOf (referenceTo bagType)))
        [resultOf (borrowed ownBag)]) := by
    have hresult : Recovers (reading (.type true)) endsType (referenceTo bagType).lexed
        (referenceTo bagType) := @recovers_reference true _ [] (.inl rfl) readsPath_bag
    have hsignature := readsSignature_plain (by decide : isName "entity_record" = true)
      (List.forall_mem_singleton.mpr readsInput_selfByReference) rfl (readsOutput_outputOf hresult)
    exact readsMember_function .nil (.inr rfl) hsignature
      (readsBody_expr (readsExpr_borrowed readsOperand_ownBag fun _ _ => ⟨rfl, rfl⟩) rfl
        fun _ => rfl)
  refine List.forall_mem_cons.mpr ⟨?_, List.forall_mem_cons.mpr ⟨?_, List.forall_mem_cons.mpr
    ⟨?_, List.forall_mem_singleton.mpr ?_⟩⟩⟩
  · exact .inr (readsItem_wrapper hattributes htype.name (by decide)
      (readsType_pathType readsPath_bag))
  · exact .inl rfl
  · exact .inr (readsItem_traitImpl readsGenerics_none (readsPath_rootPath (by decide)) hself
      (List.forall_mem_singleton.mpr hdefault))
  · exact .inr (readsItem_traitImpl readsGenerics_none (readsPath_toolPath (by decide)) hself
      (List.forall_mem_singleton.mpr hentity))

end Records

/-! ### Constructors -/

/-- An assignment that names its parameter and its flags. -/
structure Assignment.Legible (assignment : Assignment) : Prop where
  flag : isName assignment.flag = true
  parameter : isName assignment.parameter.name = true

structure Constructor.Legible (constructor : Constructor) : Prop where
  signature : ReadsSignature constructor.signature
  implementation : ReadsSignature constructor.implementationSignature
  record : isName (recordName constructor.entity) = true
  assignments : ∀ assignment ∈ constructor.assignments, assignment.Legible

section Constructors

variable {assignment : Assignment} {constructor : Constructor}

theorem readsStatement_store {name value : String} (hvalue : isName value = true) :
    ReadsStatement (storing (fieldOf (nameExpr recordLocal) "record") name (nameExpr value)) :=
  readsStatement_storing
    (readsOperand_fieldOf (readsOperand_nameExpr (by decide : isPathWord recordLocal = true))
      (by decide)) (readsOperand_nameExpr (isPathWord_of_isName hvalue)).readsExpr (fun _ => rfl) name

theorem Assignment.Legible.readsStatement_body (hassignment : assignment.Legible) :
    ReadsStatement assignment.body := by
  unfold Assignment.body
  cases assignment.parameter.wrapped with
  | false => exact readsStatement_store hassignment.parameter
  | true =>
      exact readsStatement_ifThen (readsCondition_letSome (by decide) hassignment.parameter) rfl
        (fun _ => rfl) (run_statements (List.forall_mem_singleton.mpr
          (readsStatement_store (by decide))))

theorem Assignment.Legible.readsStatement (hassignment : assignment.Legible) :
    ReadsStatement assignment.code :=
  readsStatement_ifThen (readsCondition_masked hassignment.flag _ _) rfl (fun _ => rfl)
    (run_statements (List.forall_mem_singleton.mpr hassignment.readsStatement_body))

theorem words_unusedMut : words "unused_mut" = [.ident "unused_mut"] := by decide +kernel

theorem readsAttribute_unusedMut :
    ReadsAttribute (allowing ["unused_mut"]) (allowing ["unused_mut"]) := by
  have hread := readsAttribute_list (by decide : isName "allow" = true) [[.ident "unused_mut"]]
  rw [allowing, List.map_cons, List.map_nil, words_unusedMut]
  exact hread

theorem readsAttributes_function (text : String) {marker : String} (hmarker : isName marker = true)
    (warnings : List String) : ∃ read, List.Forall₂ ReadsAttribute
      [docAttribute text, markerAttribute marker, allowing warnings] read :=
  ⟨_, .cons (readsAttribute_doc text) (.cons (readsAttribute_marker hmarker)
    (.cons (readsAttribute_list (by decide) (warnings.map words)) .nil))⟩

theorem Constructor.Legible.readsItem_virtual (hconstructor : constructor.Legible) :
    ReadsItem constructor.virtualItem := by
  obtain ⟨read, hattributes⟩ := readsAttributes_function ("Builds an `" ++ constructor.entity ++
    "` record from named arguments. Omitted arguments stay unset.")
    (by decide : isName Call.virtualMarker = true)
    ["non_snake_case", "unused_variables", "dead_code", "clippy :: too_many_arguments"]
  have htail : ReadsTail (resultOf (macroCallOf (rootPath ["core", "unreachable"])
      (parens [stringLiteral ("`" ++ constructor.entity ++
        "` calls must be rewritten before compilation")]))) :=
    readsTail_macroCall (readsPath_rootPath (by decide)) (by decide) nofun ⟨_, rfl⟩ rfl
  have hbody := readsBody_tail (List.forall_mem_nil _) htail
  exact readsItem_function hattributes hconstructor.signature hbody

theorem Constructor.Legible.readsItem_implementation (hconstructor : constructor.Legible) :
    ReadsItem constructor.implementationItem := by
  obtain ⟨read, hattributes⟩ := readsAttributes_function
    ("Target of rewritten `" ++ constructor.entity ++ "` calls.")
    (by decide : isName Call.implementationMarker = true)
    ["non_snake_case", "clippy :: too_many_arguments"]
  have hnew : ReadsPath true (namePath [recordName constructor.entity, "new"]) :=
    readsPath_names (isPathWord_of_isName hconstructor.record)
      (List.forall_mem_singleton.mpr (by decide))
  have hcreate := readsOperand_callOf hnew (List.forall_mem_nil _)
  have hlet := readsStatement_letMut (.cons readsAttribute_unusedMut .nil)
    (by decide : isName recordLocal = true) hcreate.readsExpr rfl
  have hstatements : ∀ node ∈ letMut [allowing ["unused_mut"]] recordLocal
      (callOf (namePath [recordName constructor.entity, "new"]) []) ::
        constructor.assignments.map Assignment.code, ReadsStatement node :=
    List.forall_mem_cons.mpr ⟨hlet, List.forall_mem_map.mpr fun assignment hmem =>
      (hconstructor.assignments assignment hmem).readsStatement⟩
  have hrecord := readsOperand_nameExpr (by decide : isPathWord recordLocal = true)
  have htail : ReadsTail (resultOf (nameExpr recordLocal)) :=
    readsTail_expr hrecord.readsExpr rfl rfl
  have hbody := readsBody_tail hstatements htail
  exact readsItem_function hattributes hconstructor.implementation hbody

end Constructors

/-! ### Conversions -/

/-- A conversion whose fields can be read; types matter if a struct is made from a record. -/
structure Conversion.Legible (conversion : Conversion) : Prop where
  entity : isName conversion.entity = true
  tableType : isName conversion.tableType = true
  moved : ∀ field ∈ conversion.moved, isName field.name = true
  types : conversion.defaulted.isSome → ∀ field ∈ conversion.moved, ReadsType field.type
  defaulted : ∀ names ∈ conversion.defaulted, ∀ name ∈ names, isName name = true

section Conversions

variable {conversion : Conversion}

theorem Conversion.Legible.readsMember_into (hconversion : conversion.Legible) :
    ReadsMember conversion.intoCode := by
  have hattributes : List.Forall₂ ReadsAttribute
      [docAttribute ("Move the columns of this `" ++ conversion.entity ++ "` into a record."),
        mustUse, allowing ["unused_mut"]] _ :=
    .cons (readsAttribute_doc _) (.cons readsAttribute_mustUse (.cons readsAttribute_unusedMut .nil))
  have hsignature := readsSignature_plain (by decide : isName "into_record" = true)
    (List.forall_mem_singleton.mpr readsInput_selfByValue) rfl
    (readsOutput_outputOf (recovers_pathType readsPath_bag))
  have hrecord := readsOperand_nameExpr (by decide : isPathWord "record" = true)
  have hlet := readsStatement_letMut .nil (by decide : isName "record" = true)
    (readsOperand_emptyBag hconversion.tableType).readsExpr rfl
  have hstatements : ∀ node ∈ letMut [] "record" (emptyBag conversion.tableType) ::
      conversion.moved.map fun field =>
        storing (nameExpr "record") field.name (fieldOf (nameExpr "self") field.name),
          ReadsStatement node := by
    refine List.forall_mem_cons.mpr ⟨hlet, List.forall_mem_map.mpr fun field hmem => ?_⟩
    have hfield := readsOperand_fieldOf readsOperand_self (hconversion.moved field hmem)
    exact readsStatement_storing hrecord hfield.readsExpr (fun _ => rfl) field.name
  have hbody := readsBody_tail hstatements (readsTail_expr hrecord.readsExpr rfl rfl)
  exact readsMember_function hattributes (.inl rfl) hsignature hbody

theorem recoversPart_taking {field : MovedField} (hname : isName field.name = true)
    (htype : ReadsType field.type) : RecoversPart structPart field.taking :=
  recoversPart_fieldGiven hname (readsOperand_tried (readsOperand_methodCallWith
    (readsOperand_nameExpr (by decide)) (by decide)
    (List.forall_mem_singleton.mpr (readsExpr_text _)) (.inr ⟨_, rfl, htype⟩))).readsExpr

theorem recoversPart_fillingField {name : String} (hname : isName name = true) :
    RecoversPart structPart (fillingField name) :=
  recoversPart_fieldGiven hname
    (readsOperand_callOf (readsPath_rootPath (by decide)) (List.forall_mem_nil _)).readsExpr

theorem Conversion.Legible.readsMember_from (hconversion : conversion.Legible) {names : List String}
    (hnames : conversion.defaulted = some names) : ReadsMember (conversion.fromCode names) := by
  have htypes := hconversion.types (hnames ▸ rfl)
  have hattributes : List.Forall₂ ReadsAttribute [docAttribute ("Rebuild an `" ++ conversion.entity ++
      "` from a record. `None` if a column is missing or has another type."), mustUse,
        allowing ["unused_mut", "unused_variables"]] _ :=
    .cons (readsAttribute_doc _) (.cons readsAttribute_mustUse (.cons
      (readsAttribute_list (by decide) (["unused_mut", "unused_variables"].map words)) .nil))
  have hrecord : ReadsInput (.phrase .param [.empty .attributes,
      .phrase .identPat ([.ident "mut"] ++ [.ident "record"]), .punct ":", bagType]) :=
    readsInput_param (by decide) (.inr rfl) (readsType_pathType readsPath_bag)
  have hself : ReadsType (namedType "Self") := readsType_pathType (readsPath_name (by decide))
  have hsignature := readsSignature_plain (by decide : isName "from_record" = true)
    (List.forall_mem_singleton.mpr hrecord) rfl
    (readsOutput_outputOf (recovers_pathType (readsPath_option hself)))
  have hfields : ∀ node ∈ conversion.moved.map MovedField.taking ++ names.map fillingField,
      RecoversPart structPart node := by
    refine List.forall_mem_append.mpr ⟨List.forall_mem_map.mpr fun field hmem => ?_,
      List.forall_mem_map.mpr fun name hmem => ?_⟩
    · exact recoversPart_taking (hconversion.moved field hmem) (htypes field hmem)
    · exact recoversPart_fillingField (hconversion.defaulted names hnames name hmem)
  have hvalue := readsOperand_callOf (readsPath_rootPath (by decide :
      ∀ name ∈ ["core", "option", "Option", "Some"], isSegmentWord name = true))
    (List.forall_mem_singleton.mpr (readsExpr_structOf (run_commaList_ended hfields)))
  have hbody := readsBody_expr hvalue.readsExpr rfl (startsStatement_callOf fun _ _ => rfl)
  exact readsMember_function hattributes (.inl rfl) hsignature hbody

theorem Conversion.Legible.readsItem (hconversion : conversion.Legible) :
    ReadsItem conversion.code := by
  refine readsItem_ownImpl (readsPath_own hconversion.entity)
    (List.forall_mem_cons.mpr ⟨hconversion.readsMember_into, fun member hmem => ?_⟩)
  obtain ⟨names, hnames, rfl⟩ := Option.map_eq_some_iff.mp (Option.mem_toList.mp hmem)
  exact hconversion.readsMember_from hnames

end Conversions

end EntityTables.Generated
