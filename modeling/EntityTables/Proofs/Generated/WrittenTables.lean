import EntityTables.Generated.Sequence
import EntityTables.Generated.TableType
import EntityTables.Proofs.Syntax.WrittenItems

/-!
# The written code of tables

The items of a table type and of a sequence are read back from their tokens. What they take from the
sources has to be readable where it stands: the names as names, the types of values as arguments of
types, and the paths of SQL types in expressions.
-/

namespace EntityTables.Generated

open EntityTables.Syntax EntityTables.Schema

/-! ### Shared pieces -/

section Pieces

variable {inExpr : Bool} {name : String} {type : Node}

theorem readsPath_toolPath (hname : isName name = true) : ReadsPath inExpr (toolPath name) := by
  refine readsPath_rootPath (List.forall_mem_cons.mpr ⟨by decide, List.forall_mem_singleton.mpr ?_⟩)
  rw [isSegmentWord, hname, Bool.true_or]

theorem readsPath_own (hname : isName name = true) : ReadsPath inExpr (pathOf [segmentOf name]) :=
  readsPath_name (isPathWord_of_isName hname)

theorem readsPath_option (htype : ReadsType type) : ReadsPath false (absolutePath
    [segmentOf "core", segmentOf "option", .phrase .segment
      [.ident "Option", .phrase .genericArgs [.punct "<", type, .punct ">"]]]) :=
  @readsPath_rootGeneric ["core", "option"] "Option" type (by decide) (by decide) htype

theorem readsType_optionOf (htype : ReadsType type) : ReadsType (optionOf type) :=
  readsType_pathType (readsPath_option htype)

theorem readsPath_bag : ReadsPath false (toolPath "EntityRecord") :=
  readsPath_toolPath (by decide)

theorem recovers_staticText : Recovers (reading (.type true)) endsType staticText.lexed staticText := by
  have hpath : ReadsPath false (pathOf [segmentOf "str"]) := readsPath_own (by decide)
  have hlifetime : [Node.leaf (.lifetime "'static")] = [] ∨
      ∃ name, [Node.leaf (.lifetime "'static")] = [.leaf (.lifetime name)] := .inr ⟨_, rfl⟩
  have hform : staticText = .phrase .referenceType (.punct "&" :: [.leaf (.lifetime "'static")] ++
      [pathType (pathOf [segmentOf "str"])]) := rfl
  rw [hform]
  exact recovers_reference hlifetime hpath

theorem readsType_staticText : ReadsType staticText :=
  fun rest hrest => recovers_staticText rest (endsType_of_closes hrest)

theorem readsExpr_text (text : String) : ReadsExpr (textExpr text) :=
  (readsOperand_literal _).readsExpr

theorem readsOperand_tableNameOf (hname : isPathWord name = true) :
    ReadsOperand (tableNameOf name) :=
  readsOperand_traitConstant (readsPath_name hname) (readsPath_toolPath (by decide)) (by decide)

theorem readsOperand_emptyBag (hname : isName name = true) : ReadsOperand (emptyBag name) :=
  readsOperand_callOf (readsPath_rootPath (by decide)) (List.forall_mem_singleton.mpr
    (readsOperand_tableNameOf (isPathWord_of_isName hname)).readsExpr)

theorem readsSignature_plain {inputs : List Node} {output : Node} (hname : isName name = true)
    (hinputs : ∀ input ∈ inputs, ReadsInput input)
    (hreceivers : (inputs.drop 1).all (fun input => !input.is .receiver) = true)
    (houtput : ReadsOutput output) : ReadsSignature (plainSignature name inputs output) :=
  ⟨hname, hinputs, hreceivers, houtput⟩

theorem startsStatement_callOf {function : Node} {arguments : List Node}
    (hfunction : ∀ body rest,
      startsExprStatement (function.lexed ++ .group .paren body :: rest) = true) :
    StartsStatement (callOf function arguments) := by
  intro rest
  rw [lexed_callOf, List.append_assoc]
  exact hfunction _ rest

theorem readsAttribute_doc (text : String) : ReadsAttribute (docAttribute text)
    (attributeOf [pathOf [segmentOf "doc"], .punct "=", literalExprOf (Text.quoteLiteral text)]) :=
  readsAttribute_text (by decide) _

theorem readsAttribute_mustUse : ReadsAttribute mustUse mustUse := readsAttribute_plain (by decide)

theorem readsAttributes_described (text : String) : ∃ read,
    List.Forall₂ ReadsAttribute [docAttribute text, mustUse] read :=
  ⟨_, .cons (readsAttribute_doc text) (.cons readsAttribute_mustUse .nil)⟩

end Pieces

/-! ### Column accessors -/

/-- An accessor whose names, type and path can be read where its code has them. -/
structure ColumnAccessor.Legible (accessor : ColumnAccessor) : Prop where
  method : isName accessor.method = true
  valueType : ReadsType accessor.sqlType.valueType
  path : ReadsPath true accessor.sqlType.path
  target : ∀ key ∈ accessor.reference, isName key.tableType = true

section Accessors

variable {accessor : ColumnAccessor} {column : Node}

theorem ColumnAccessor.Legible.readsOperand_sqlType (haccessor : accessor.Legible) :
    ReadsOperand (sqlTypeExpr accessor.sqlType) := by
  unfold sqlTypeExpr
  cases accessor.sqlType.shape with
  | fixed =>
      exact readsOperand_callOf (readsPath_rootPath (by decide))
        (List.forall_mem_singleton.mpr (readsOperand_pathExpr haccessor.path).readsExpr)
  | factory =>
      refine readsOperand_callOf (readsPath_absolutePath ?_)
        (List.forall_mem_singleton.mpr (readsExpr_borrowed_path haccessor.path))
      exact List.forall_mem_cons.mpr ⟨readsSegment_segmentOf (by decide), List.forall_mem_cons.mpr
        ⟨readsSegment_segmentOf (by decide), List.forall_mem_singleton.mpr
          (readsSegment_turbofish (by decide) haccessor.valueType)⟩⟩

theorem readsOperand_foreignKey {key : ForeignKey} (hkey : isName key.tableType = true)
    (hcolumn : ReadsOperand column) : ReadsOperand (key.code column) := by
  refine readsOperand_methodCallWith hcolumn (by decide) ?_ (.inl rfl)
  exact List.forall_mem_cons.mpr ⟨(readsOperand_tableNameOf (isPathWord_of_isName hkey)).readsExpr,
    List.forall_mem_singleton.mpr (readsExpr_text _)⟩

/-- A call of a method without arguments, if it is made. -/
theorem readsOperand_ifCalled {name : String} (hname : isName name = true) (called : Bool)
    (hcolumn : ReadsOperand column) :
    ReadsOperand (if called then methodCall column name [] else column) := by
  cases called with
  | true => exact readsOperand_methodCallWith hcolumn hname (List.forall_mem_nil _) (.inl rfl)
  | false => exact hcolumn

theorem startsStatement_ifCalled (name : String) (called : Bool) (hcolumn : StartsStatement column) :
    StartsStatement (if called then methodCall column name [] else column) := by
  cases called with
  | true => exact hcolumn.methodCall name []
  | false => exact hcolumn

theorem startsStatement_newColumn (valueType : Node) (arguments : List Node) :
    StartsStatement (callOf (ColumnAccessor.newColumn valueType) arguments) := by
  have hlexed : ∃ more, (callOf (ColumnAccessor.newColumn valueType) arguments).lexed =
      [.leaf (.punct ":" true), .punct ":", .ident "tablegen", .leaf (.punct ":" true), .punct ":",
        .ident "Column", .leaf (.punct ":" true), .punct ":", .punct "<"] ++ more := by
    rw [lexed_callOf]
    simp [ColumnAccessor.newColumn, absolutePath, joinSegments, segmentOf, turbofishSegment,
      turbofish, Kind.isOpen]
  exact .of_lexed hlexed fun rest => rfl

theorem ColumnAccessor.Legible.value (haccessor : accessor.Legible) :
    ReadsOperand accessor.value ∧ StartsStatement accessor.value := by
  have hnew : ReadsPath true (newColumn accessor.sqlType.valueType) := by
    refine readsPath_absolutePath ?_
    exact List.forall_mem_cons.mpr ⟨readsSegment_segmentOf (by decide), List.forall_mem_cons.mpr
      ⟨readsSegment_turbofish (by decide) haccessor.valueType, List.forall_mem_singleton.mpr
        (readsSegment_segmentOf (by decide))⟩⟩
  have hcolumn : ReadsOperand (callOf (newColumn accessor.sqlType.valueType)
      [tableNameOf "Self", textExpr accessor.column, sqlTypeExpr accessor.sqlType]) := by
    refine readsOperand_callOf hnew (List.forall_mem_cons.mpr ⟨?_, List.forall_mem_cons.mpr
      ⟨readsExpr_text _, List.forall_mem_singleton.mpr haccessor.readsOperand_sqlType.readsExpr⟩⟩)
    exact (readsOperand_tableNameOf (by decide)).readsExpr
  have hread := readsOperand_ifCalled (by decide : isName "nullable" = true) accessor.nullable
    (readsOperand_ifCalled (by decide : isName "primary_key" = true) accessor.primaryKey hcolumn)
  have hstarts := startsStatement_ifCalled "nullable" accessor.nullable
    (startsStatement_ifCalled "primary_key" accessor.primaryKey
      (startsStatement_newColumn accessor.sqlType.valueType
        [tableNameOf "Self", textExpr accessor.column, sqlTypeExpr accessor.sqlType]))
  unfold ColumnAccessor.value
  cases hreference : accessor.reference with
  | none => exact ⟨hread, hstarts⟩
  | some key =>
      exact ⟨readsOperand_foreignKey (haccessor.target key hreference) hread,
        hstarts.methodCall _ _⟩

theorem ColumnAccessor.is_macro_value (accessor : ColumnAccessor) :
    accessor.value.is .macroExpr = false := by
  unfold ColumnAccessor.value
  cases accessor.reference with
  | some key => rfl
  | none => cases accessor.nullable <;> cases accessor.primaryKey <;> rfl

theorem ColumnAccessor.Legible.readsMember (haccessor : accessor.Legible) :
    ReadsMember accessor.code := by
  obtain ⟨hvalue, hstarts⟩ := haccessor.value
  obtain ⟨read, hattributes⟩ := readsAttributes_described ("Column `" ++ accessor.column ++ "`.")
  have hresult : ReadsPath false (absolutePath (["tablegen"].map segmentOf ++ [.phrase .segment
      [.ident "Column",
        .phrase .genericArgs [.punct "<", accessor.sqlType.valueType, .punct ">"]]])) :=
    readsPath_rootGeneric (by decide) (by decide) haccessor.valueType
  have hsignature := readsSignature_plain haccessor.method
    (List.forall_mem_singleton.mpr readsInput_selfByReference) rfl
    (readsOutput_outputOf (recovers_pathType hresult))
  exact readsMember_function hattributes (.inl rfl) hsignature
    (readsBody_expr hvalue.readsExpr accessor.is_macro_value hstarts)

end Accessors

/-! ### Table types -/

/-- A table type whose name and accessors can be read. -/
structure TableType.Legible (type : TableType) : Prop where
  name : isName type.name = true
  accessors : ∀ accessor ∈ type.accessors, accessor.Legible

section Types

variable {type : TableType}

theorem readsMember_columnsCode (type : TableType) : ReadsMember type.columnsCode := by
  have hinfo : ReadsPath false (toolPath "ColumnInfo") := readsPath_toolPath (by decide)
  have hresult : ReadsPath false (absolutePath (["std", "vec"].map segmentOf ++ [.phrase .segment
      [.ident "Vec", .phrase .genericArgs [.punct "<", pathType (toolPath "ColumnInfo"),
        .punct ">"]]])) :=
    readsPath_rootGeneric (by decide) (by decide) (readsType_pathType hinfo)
  have hsignature : ReadsSignature (plainSignature "columns" [selfByReference]
      (Signature.outputOf (rootGeneric ["std", "vec"] "Vec" (pathType (toolPath "ColumnInfo"))))) :=
    readsSignature_plain (by decide) (List.forall_mem_singleton.mpr readsInput_selfByReference) rfl
      (readsOutput_outputOf (recovers_pathType hresult))
  have htail : ReadsTail (resultOf (macroCallOf (rootPath ["std", "vec"])
      (brackets (commaSeparated (type.accessors.map ColumnAccessor.infoCode))))) :=
    readsTail_macroCall (readsPath_rootPath (by decide)) (by decide) nofun ⟨_, rfl⟩ rfl
  exact readsMember_function .nil (.inr rfl) hsignature
    (readsBody_tail (List.forall_mem_nil _) htail)

theorem readsMember_optionalConstant {name : String} (hname : isName name = true)
    {value : Option String} {member : Node} (hmem : member ∈ optionalConstant name value) :
    ReadsMember member := by
  cases value with
  | none => cases hmem
  | some text =>
      obtain rfl := List.mem_singleton.mp hmem
      have hvalue : ReadsOperand (callOf somePath [textExpr text]) :=
        readsOperand_callOf (readsPath_rootPath (by decide))
          (List.forall_mem_singleton.mpr (readsExpr_text text))
      exact readsMember_constant hname (recovers_pathType (readsPath_option readsType_staticText))
        hvalue.readsExpr

theorem readsMember_tableMembers (type : TableType) :
    ∀ member ∈ type.tableMembers, ReadsMember member := by
  simp only [TableType.tableMembers, List.forall_mem_cons, List.forall_mem_append]
  refine ⟨⟨⟨⟨?_, ?_⟩, ?_⟩, ?_⟩, readsMember_columnsCode type, List.forall_mem_nil _⟩
  · exact readsMember_constant (by decide) recovers_staticText (readsExpr_text _)
  · exact fun member hmem => readsMember_optionalConstant (by decide) hmem
  · exact fun member hmem => readsMember_optionalConstant (by decide) hmem
  · exact fun member hmem => readsMember_optionalConstant (by decide) hmem

theorem TableType.Legible.readsItem (htype : type.Legible) : ∀ item ∈ type.code, ReadsItem item := by
  have hself : ReadsPath false (pathOf [segmentOf type.name]) := readsPath_own htype.name
  have hattributes : List.Forall₂ ReadsAttribute
      [docAttribute ("Table `" ++ type.qualifiedName ++ "` of entity `" ++ type.entity ++ "`."),
        listAttribute "derive" [words "Debug", words "Clone", words "Copy", words "Default"]] _ :=
    .cons (readsAttribute_doc _) (.cons (readsAttribute_list (by decide) _) .nil)
  refine List.forall_mem_cons.mpr ⟨readsItem_unitStruct hattributes htype.name,
    List.forall_mem_cons.mpr ⟨?_, List.forall_mem_singleton.mpr ?_⟩⟩
  · exact readsItem_traitImpl readsGenerics_none (readsPath_toolPath (by decide)) hself
      (readsMember_tableMembers type)
  · exact readsItem_ownImpl hself (List.forall_mem_map.mpr fun accessor hmem =>
      (htype.accessors accessor hmem).readsMember)

end Types

/-! ### Sequences -/

structure SequenceTrait.Legible (trait : SequenceTrait) : Prop where
  name : isName trait.name = true
  method : isName trait.method = true
  tableType : isName trait.tableType = true

/-- The arguments of a sequence: a lifetime, and the types of the database and of the table. -/
theorem readsSegment_sequence {tableType : String} (hname : isName tableType = true) :
    ReadsSegment false (.phrase .segment [.ident "EntitySequence", .phrase .genericArgs
      [.punct "<", .leaf (.lifetime "'_"), .punct ",", namedType "Self", .punct ",",
        namedType tableType, .punct ">"]]) := by
  have hlexed : (Node.phrase .segment [.ident "EntitySequence", .phrase .genericArgs
      [.punct "<", .leaf (.lifetime "'_"), .punct ",", namedType "Self", .punct ",",
        namedType tableType, .punct ">"]]).lexed =
          .ident "EntitySequence" :: .punct "<" :: .leaf (.lifetime "'_") :: .punct "," ::
            ((namedType "Self").lexed ++ .punct "," :: ((namedType tableType).lexed ++
              [.punct ">"])) := by
    simp [Kind.isOpen]
  have hself : ReadsType (namedType "Self") := readsType_pathType (readsPath_name (by decide))
  refine ⟨rfl, ⟨_, _, by decide, hlexed⟩, fun rest _ => ?_⟩
  have htypes : ArgumentRounds ((namedType "Self").lexed ++ .punct "," ::
      ((namedType tableType).lexed ++ .punct ">" :: rest))
        ([namedType "Self"] ++ [.punct ","] ++ [namedType tableType]) (.punct ">" :: rest) :=
    .before (hself (.punct "," :: _) rfl)
      (.only (readsType_namedType hname (.punct ">" :: rest) rfl) rfl)
  have hrounds : ArgumentRounds (.leaf (.lifetime "'_") :: .punct "," ::
      ((namedType "Self").lexed ++ .punct "," :: ((namedType tableType).lexed ++
        .punct ">" :: rest))) _ (.punct ">" :: rest) :=
    .next rfl (run_one_eq_ok.mpr ⟨.leaf (.lifetime "'_"), rfl, rfl⟩) rfl rfl
      (Nat.lt_succ_of_lt (Nat.lt_succ_self _)) htypes
  rw [hlexed]
  simp only [List.cons_append, List.append_assoc, List.nil_append]
  refine run_segment_name (.inl (by decide)) ?_
  exact run_one_eq_ok.mpr ⟨_, rfl, run_genericArgs hrounds⟩

section Sequences

variable {trait : SequenceTrait}

theorem SequenceTrait.Legible.readsAs_methodCode (htrait : trait.Legible) :
    ∃ own, ReadsAs (traitMember reading) trait.methodCode own := by
  have hresult : ReadsPath false (absolutePath [segmentOf "tablegen", .phrase .segment
      [.ident "EntitySequence", .phrase .genericArgs [.punct "<", .leaf (.lifetime "'_"),
        .punct ",", namedType "Self", .punct ",", namedType trait.tableType, .punct ">"]]]) :=
    readsPath_absolutePath (List.forall_mem_cons.mpr ⟨readsSegment_segmentOf (by decide),
      List.forall_mem_singleton.mpr (readsSegment_sequence htrait.tableType)⟩)
  have hvalue : ReadsOperand (callOf (rootPath ["tablegen", "Database", "sequence_of"])
      [nameExpr "self", nameExpr trait.tableType]) := by
    refine readsOperand_callOf (readsPath_rootPath (by decide)) (List.forall_mem_cons.mpr ⟨?_,
      List.forall_mem_singleton.mpr ?_⟩)
    · exact (readsOperand_nameExpr (by decide)).readsExpr
    · exact (readsOperand_nameExpr (isPathWord_of_isName htrait.tableType)).readsExpr
  have hsignature := readsSignature_plain htrait.method
    (List.forall_mem_singleton.mpr readsInput_selfByReference) rfl
    (readsOutput_outputOf (recovers_pathType hresult))
  have hstarts : StartsStatement (callOf (rootPath ["tablegen", "Database", "sequence_of"])
      [nameExpr "self", nameExpr trait.tableType]) := startsStatement_callOf fun body rest => rfl
  exact readsAs_traitFn (.cons (readsAttribute_doc _) .nil) hsignature
    (readsBody_expr hvalue.readsExpr rfl hstarts)

theorem SequenceTrait.Legible.readsItem (htrait : trait.Legible) :
    ∀ item ∈ trait.code, ReadsItem item := by
  have hdatabase : ReadsPath false (toolPath "Database") := readsPath_toolPath (by decide)
  have hsized : ReadsPath false (rootPath ["core", "marker", "Sized"]) :=
    readsPath_rootPath (by decide)
  have hnamed : ReadsPath false (namePath [trait.name]) := readsPath_own htrait.name
  have hparameter : ReadsPath false (pathOf [segmentOf "D"]) := readsPath_own (by decide)
  obtain ⟨own, hmethod⟩ := htrait.readsAs_methodCode
  refine List.forall_mem_cons.mpr ⟨?_, List.forall_mem_singleton.mpr ?_⟩
  · exact readsItem_trait (.cons (readsAttribute_doc _) .nil) htrait.name hdatabase hsized rfl
      (.cons hmethod .nil)
  · exact readsItem_traitImpl (readsGenerics_param (by decide) hdatabase) hnamed hparameter
      (List.forall_mem_nil _)

end Sequences

end EntityTables.Generated
