import EntityTables.Proofs.Call.Order
import EntityTables.Proofs.Generated.EntityProgram

/-!
# Redirected constructor calls

The rewriter encodes which properties a call supplies, the function that is generated as the
implementation decodes it, and both get their parameters from the signature of the constructor. When
the generated items run, a redirected call makes a record with exactly the supplied properties.
-/

namespace EntityTables.Generated

open EntityTables.Syntax EntityTables.Schema EntityTables.Call

variable {α : Type}

/-! ### Calls into generated code -/

/-- A program in which a path names a function of generated code; the words of flags are passed as
plain values. -/
def Program.linked {m : Type → Type} [Monad m] (generated : Program α) (depth : Nat)
    (word : UInt32 → α) (name : String) (path : Node) (program : Semantics m (Value α)) :
    Semantics m (Value α) :=
  { program with
    absent := .absent
    present := .present
    word := fun held => .plain (word held)
    call := fun called passed =>
      if called = path then
        match (generated.call? depth (.function name) (passed.map .passing)).bind Datum.value? with
        | some result => pure result
        | none => program.call called passed
      else program.call called passed }

section Linked

variable {generated : Program α} {word : UInt32 → α} {m : Type → Type} [Monad m] {path : Node}
  {program : Semantics m (Value α)} {table : Table} {container : String} {type : RecordType}
  {constructor : Constructor} {tableName : String}

theorem slot_linked (depth : Nat) (name : String) :
    (generated.linked depth word name path program).slot = argumentFor := by
  funext parameter supplied
  cases supplied <;> rfl

/-- Plain values that hold words are taken as the words of an implementation. -/
theorem passedAs_map_passing (hword : ∀ held, generated.word? (word held) = some held)
    {implementation : ImplementationFunction} (actuals : Actuals α implementation) :
    actuals.PassedAs generated.word?
      ((actuals.arguments ++ actuals.words.map fun held => Value.plain (word held)).map
        .passing) := by
  refine ⟨actuals.words.map fun held => .passing (.plain (word held)), ?_,
    List.forall₂_map_left_iff.mpr (List.forall₂_same.mpr fun held _ => ?_)⟩
  · rw [List.map_append, List.map_map]
    rfl
  · have hread : ((Datum.passing (Value.plain (word held))).passedAs (namedType "u32")).word?
        generated.word? = if namedType "u32" = namedType "u32" then generated.word? (word held)
          else none := rfl
    rw [hread, if_pos rfl, hword]

/-- A call of the implementation with what a redirected call passes makes the record. -/
theorem call_linked (hok : Constructor.of table container = .ok constructor)
    (hapart : PropertiesApart table constructor.pair.implementation.flags)
    (htype : RecordType.of table = .ok type)
    (hitems : generated.items = (EntityCode.record type constructor).items)
    (hnamed : generated.constant (namedType type.tableType) "TABLE_NAME" = some (.text tableName))
    (hword : ∀ held, generated.word? (word held) = some held) (depth : Nat)
    {targets : List Nat} {values : List (Value α)} (hlength : values.length = targets.length) :
    let name := constructor.pair.implementation.name
    let s := generated.linked (depth + 3) word name path program
    s.call path (s.received constructor.pair.implementation targets values) =
      pure (.record (constructed constructor.pair.implementation.parameters tableName
        (targets.zip values))) := by
  intro name s
  obtain ⟨hpair, hassignments⟩ := of_eq_ok hok
  obtain ⟨-, -, -, hflags⟩ := derive?_eq_some hpair
  let actuals : Actuals α constructor.pair.implementation :=
    { arguments := fill argumentFor constructor.pair.implementation.parameters 0
        (targets.zip values)
      words := constructor.pair.implementation.encoding.encode targets
      length_arguments := length_fill
      length_words := by rw [FlagEncoding.length_encode, hflags, FlagEncoding.length_flagNames] }
  have hreceived : s.received constructor.pair.implementation targets values =
      actuals.arguments ++ actuals.words.map fun held => .plain (word held) := by
    rw [Semantics.received, slot_linked]
    rfl
  have hrun := call_implementation hok hapart.distinct htype hitems hnamed
    (passedAs_map_passing hword actuals) depth
  have hmade := run_fill hpair hassignments (hapart.nodup_variableNames hok) hlength tableName
  rw [hmade] at hrun
  have hcall : s.call path (s.received constructor.pair.implementation targets values) =
      match (generated.call? (depth + 3) (.function name)
        ((s.received constructor.pair.implementation targets values).map .passing)).bind
          Datum.value? with
      | some result => pure result
      | none => program.call path (s.received constructor.pair.implementation targets values) :=
    if_pos rfl
  rw [hcall, hreceived, hrun]
  rfl

end Linked

/-- **Constructor calls.** A call of the constructor of a resolved table is redirected to a call of
the generated implementation. When the generated items run, it evaluates its arguments in order and
makes a record, in which exactly the supplied properties are set, each to the value of its argument.
A nullable column keeps that value in its own optional type. -/
theorem eval_constructorCall {resolver : Resolver} {key : Key} {table : Table}
    (hresolved : ((resolveTable resolver key).run .empty).1 = .ok table) {container : String}
    {type : RecordType} (htype : RecordType.of table = .ok type)
    {constructor : Constructor} (hconstructor : Constructor.of table container = .ok constructor)
    (hapart : PropertiesApart table constructor.pair.implementation.flags)
    {generated : Program α} (hitems : generated.items = (EntityCode.record type constructor).items)
    {tableName : String}
    (hnamed : generated.constant (namedType type.tableType) "TABLE_NAME" = some (.text tableName))
    {word : UInt32 → α} (hword : ∀ held, generated.word? (word held) = some held)
    {call : CallExpr} {attributes path : Node} (hcallee : call.callee = .function attributes path)
    {bound : List (Nat × Node)}
    (hbound : bindArguments constructor.pair.virtual call.arguments = .ok bound)
    (module : String) (depth : Nat) {m : Type → Type} [Monad m] [LawfulMonad m]
    (program : Semantics m (Value α)) (locals : Locals (Value α)) :
    let name := constructor.pair.implementation.name
    let s := generated.linked (depth + 3) word name
      (implementationPath path name container module) program
    let supplied := suppliedValue? constructor.pair.virtual call.arguments
    ∃ redirected, ∃ record : List (Value α) → Properties α,
      redirectCall call constructor.pair module = .ok redirected ∧
      (s.eval locals redirected.expr =
        (call.arguments.mapM fun argument => s.eval locals argument.value) >>= fun values =>
          pure (.record (record values))) ∧
      ∀ values, values.length = call.arguments.length →
        (record values).table = tableName ∧
        (∀ property, (record values).contains property = (supplied values property).isSome ∧
          (record values).value? property = supplied values property) ∧
        ∀ column ∈ table.columns, column.nullable →
          (record values).get? column.storedType column.property =
            supplied values column.property := by
  obtain ⟨hpair, -⟩ := of_eq_ok hconstructor
  obtain ⟨hvirtual, -⟩ := derive?_eq_some hpair
  have hcontainer : constructor.pair.virtual.container = container := by rw [hvirtual]; rfl
  obtain ⟨htargets, hvalues, -⟩ := bindArguments_ok hbound
  have hlength : (targets constructor.pair.virtual call.arguments).length =
      call.arguments.length := by
    rw [← htargets, List.length_map, ← List.length_map (·.2), hvalues, List.length_map]
  refine ⟨_, fun values => constructed constructor.pair.implementation.parameters tableName
    ((targets constructor.pair.virtual call.arguments).zip values),
    by simp only [redirectCall, hbound]; rfl, ?_, fun values _ => ⟨?_, fun property => ?_, ?_⟩⟩
  · rw [eval_redirectedExpr_function _ _ (hvirtual ▸ hpair) (hapart.distinctLocals hconstructor)
      hbound hcallee]
    simp only [Semantics.inOrder, hcallee, hcontainer]
    refine Semantics.mapM_bind_congr fun values hvalues => ?_
    exact call_linked hconstructor hapart htype hitems hnamed hword depth
      (hvalues.trans hlength.symm)
  · exact table_foldl_storeSupplied _ _ _
  · have hvalue := @value?_constructed α table container constructor tableName hconstructor hapart
      call.arguments values property
    refine ⟨?_, hvalue⟩
    rw [← hvalue, EntityRecord.value?, Option.isSome_map]
    rfl
  · intro column hcolumn hnullable
    rw [← @value?_constructed α table container constructor tableName hconstructor hapart]
    refine get?_constructed hconstructor hapart hcolumn ?_
    rw [nullable_of_resolved hresolved hcolumn, hnullable]

section Instance

/-- A call that gives the mentor first, as nobody, then a key, and no name. -/
def memberCall : CallExpr where
  attributes := .empty .attributes
  callee := .function (.empty .attributes) (pathOf [segmentOf "Member"])
  arguments := [.named "mentor" (optionPath "None"),
    .named "id" (.phrase .literalExpr [.empty .attributes, .literal "7u32"])]

/-- A program that does nothing else. -/
def emptyProgram : Semantics Id (Value String) where
  absent := .absent
  present := .present
  word := fun _ => .absent
  call := fun _ _ => .absent
  method := fun _ _ _ _ => .absent
  other := fun _ _ => .absent

theorem eval_constructorCall_member : ∃ type redirected record,
    RecordType.of memberTable = .ok type ∧
      redirectCall memberCall memberPair "crate" = .ok redirected ∧
      ((literalProgram "Member" (EntityCode.record type memberConstructor).items).linked 3
        (fun held => toString held.toNat ++ "u32") "__impl_Member"
        (implementationPath (pathOf [segmentOf "Member"]) "__impl_Member" "crate" "crate")
        emptyProgram).eval (fun _ => none) redirected.expr = .record record ∧
      record.contains "name" = false ∧ record.value? "id" = some (.plain "7u32") ∧
      record.value? "mentor" = some .absent := by
  have hgenerated : (RecordType.of memberTable).toOption.map (fun _ => ()) = some () := by
    decide +kernel
  obtain ⟨type, htype, -⟩ := exists_ok_of_toOption hgenerated
  have hapart : PropertiesApart memberTable memberConstructor.pair.implementation.flags :=
    ⟨by decide, by decide, by decide⟩
  obtain ⟨redirected, record, hredirected, heval, hrecord⟩ :=
    @eval_constructorCall String _ _ _ member_resolved "crate" type htype memberConstructor rfl
      hapart (literalProgram "Member" (EntityCode.record type memberConstructor).items) rfl "Member" rfl _
      wordOf?_toString memberCall _ _ rfl [(2, optionPath "None"),
        (0, .phrase .literalExpr [.empty .attributes, .literal "7u32"])] rfl "crate" 0
      Id _ _ emptyProgram fun _ => none
  obtain ⟨-, hvalues, -⟩ := hrecord [.absent, .plain "7u32"] rfl
  exact ⟨type, redirected, _, htype, hredirected, heval, (hvalues "name").1, (hvalues "id").2,
    (hvalues "mentor").2⟩

end Instance

end EntityTables.Generated
