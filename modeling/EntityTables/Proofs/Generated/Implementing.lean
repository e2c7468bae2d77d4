import EntityTables.Proofs.Generated.Executing
import EntityTables.Proofs.Generated.Passing

/-!
# Running an implementation

The function that is generated as the implementation of a constructor makes the record that its
assignments make one after the other. Its variables are the parameters with the types they are
declared with, and the local of the record in front of them.
-/

namespace EntityTables.Generated

open EntityTables.Syntax EntityTables.Schema EntityTables.Call

variable {α : Type}

/-! ### Variables -/

theorem lookup_zip_rel {β γ : Type} {R : β → γ → Prop} {first : List β} {second : List γ}
    (hrelated : List.Forall₂ R first second) (keys : List String) (key : String) :
    Option.Rel R ((keys.zip first).lookup key) ((keys.zip second).lookup key) := by
  induction hrelated generalizing keys with
  | nil => simp
  | cons hhead htail ih =>
      cases keys with
      | nil => exact .none
      | cons own keys =>
          rw [List.zip_cons_cons, List.zip_cons_cons, List.lookup_cons, List.lookup_cons]
          cases key == own with
          | true => exact .some hhead
          | false => exact ih keys

/-- What a variable of running code is in the frame of an implementation. No parameter that holds
a value has the type of words. -/
inductive Datum.Shows (read? : α → Option UInt32) : Datum α → Variable α → Prop
  | value {type : Node} {value : Value α} (htype : type ≠ namedType "u32") :
      Shows read? (.value type value) (.value value)
  | word {datum : Datum α} {word : UInt32} (hword : datum.word? read? = some word) :
      Shows read? datum (.word word)

theorem Datum.word?_value_of_ne {read? : α → Option UInt32} {type : Node} {value : Value α}
    (htype : type ≠ namedType "u32") : (Datum.value type value).word? read? = none := by
  cases value with
  | plain held => exact if_neg htype
  | _ => rfl

/-- A parameter of the constructor never has the type of words: it is optional. -/
theorem type_of_ne_word (parameter : Parameter) :
    (ImplementationParameter.of parameter).type ≠ namedType "u32" := by
  unfold ImplementationParameter.of
  cases hoptional : parameter.type.stripOption.2 with
  | false => simp [optionOf, namedType, pathType, absolutePath, pathOf, joinSegments]
  | true =>
      rintro heq
      simp only [if_true] at heq
      rw [heq] at hoptional
      revert hoptional
      decide

/-- What a function is called with is bound to its parameters in order. -/
theorem bindInputs_eq {items : List (String × Node)}
    (hread : ∀ item ∈ items, (Signature.parameter? (Signature.inputOf item.1 item.2)).isSome)
    {passed : List (Datum α)} (hlength : passed.length = items.length) :
    bindInputs (items.map fun item => Signature.inputOf item.1 item.2) passed =
      some ((items.map fun item => withoutRaw item.1).zip
        (items.zipWith (fun item datum => datum.passedAs item.2) passed)) := by
  induction items generalizing passed with
  | nil =>
      obtain rfl := List.length_eq_zero_iff.mp hlength
      rfl
  | cons item items ih =>
      obtain ⟨datum, passed, rfl⟩ := List.exists_cons_of_length_eq_add_one hlength
      obtain ⟨parameter, hparameter⟩ := Option.isSome_iff_exists.mp (hread item List.mem_cons_self)
      obtain rfl := parameter?_inputOf hparameter
      have hrest := ih (fun other hmem => hread other (List.mem_cons_of_mem item hmem))
        (Nat.succ.inj hlength)
      rw [List.map_cons, bindInputs, hrest, hparameter]
      rfl

section Implementation

variable {table : Table} {container : String} {constructor : Constructor}
  {actuals : Actuals α constructor.pair.implementation} {read? : α → Option UInt32}
  {flags : List (Datum α)}

namespace Constructor

/-- The inputs of an implementation with their types. -/
def inputs (constructor : Constructor) : List (String × Node) :=
  (constructor.pair.implementation.parameters.map fun parameter =>
    (parameter.name, parameter.type)) ++
    constructor.pair.implementation.flags.map fun flag => (flag, namedType "u32")

/-- The variables of an implementation that is called: its parameters, and then its words. -/
def locals (constructor : Constructor) (values : List (Value α)) (flags : List (Datum α)) :
    Bindings α :=
  let implementation := constructor.pair.implementation
  ((implementation.parameters.map (·.name)).map withoutRaw).zip
      (implementation.parameters.zipWith (fun parameter value => .value parameter.type value) values) ++
    implementation.flags.zip flags

end Constructor

/-- What an implementation is called with: its values, and data that its words are taken from. -/
def Actuals.PassedAs (read? : α → Option UInt32) {implementation : ImplementationFunction}
    (actuals : Actuals α implementation) (passed : List (Datum α)) : Prop :=
  ∃ flags, passed = actuals.arguments.map Datum.passing ++ flags ∧
    List.Forall₂ (fun datum word => (datum.passedAs (namedType "u32")).word? read? = some word)
      flags actuals.words

theorem implementationSignature_inputs (constructor : Constructor) :
    constructor.implementationSignature.inputs =
      constructor.inputs.map fun input => Signature.inputOf input.1 input.2 := by
  rw [Constructor.inputs, List.map_append, List.map_map, List.map_map]
  rfl

/-- The parameters of an implementation are bound to its values, and its flags to its words. -/
theorem bindInputs_implementation (hok : Constructor.of table container = .ok constructor)
    {passed : List (Datum α)} (hpassed : actuals.PassedAs read? passed) :
    ∃ flags, bindInputs constructor.implementationSignature.inputs passed =
        some (constructor.locals actuals.arguments flags) ∧
      List.Forall₂ (fun datum word => datum.word? read? = some word) flags actuals.words := by
  obtain ⟨flags, rfl, hflags⟩ := hpassed
  have hcount := actuals.length_arguments
  have hflagCount : flags.length = constructor.pair.implementation.flags.length :=
    hflags.length_eq.trans actuals.length_words
  refine ⟨flags.map (Datum.passedAs (namedType "u32")), ?_, List.forall₂_map_left_iff.mpr hflags⟩
  rw [implementationSignature_inputs, bindInputs_eq (fun input hmem =>
    isSome_parameter?_of_mem_inputs hok (implementationSignature_inputs constructor ▸
      List.mem_map_of_mem hmem)) (by simp [Constructor.inputs, hcount, hflagCount])]
  have hplain : constructor.pair.implementation.flags.map withoutRaw =
      constructor.pair.implementation.flags :=
    (List.map_congr_left fun flag => withoutRaw_of_mem_flags hok).trans (List.map_id _)
  have hwords : (constructor.pair.implementation.flags.map fun flag =>
      (flag, namedType "u32")).zipWith (fun input datum => Datum.passedAs input.2 datum) flags =
      flags.map (Datum.passedAs (namedType "u32")) := by
    rw [List.zipWith_map_left, ← List.map_uncurry_zip_eq_zipWith]
    conv_rhs => rw [← List.map_snd_zip hflagCount.le, List.map_map]
    rfl
  rw [Constructor.inputs, List.zipWith_append (by simp [hcount]), hwords, List.map_append,
    List.zip_append (by simp [hcount]), List.map_map, List.map_map, List.zipWith_map_left,
    List.zipWith_map_right]
  congr 3
  rw [List.map_map]
  rfl

/-! ### What variables hold -/

/-- A parameter is a variable of its own type. -/
theorem lookup_parameter (hok : Constructor.of table container = .ok constructor)
    (hdistinct : (table.columns.map fun column => withoutRaw column.property).Nodup)
    {parameter : ImplementationParameter} {position : Nat}
    (hparameter : constructor.pair.implementation.parameters[position]? = some parameter) :
    ∃ value, (constructor.locals actuals.arguments flags).lookup (withoutRaw parameter.name) =
        some (.value parameter.type value) ∧
      actuals.frame.value? parameter.name =
        if withoutRaw parameter.name = Frame.recordVariable then none else some value := by
  have hnodup := hdistinct.sublist (names_sublist hok)
  have hcount := actuals.length_arguments
  obtain ⟨hposition, -⟩ := List.getElem?_eq_some_iff.mp hparameter
  have hname : ((constructor.pair.implementation.parameters.map (·.name)).map withoutRaw)[position]? =
      some (withoutRaw parameter.name) := by
    rw [List.getElem?_map, List.getElem?_map, hparameter]
    rfl
  refine ⟨actuals.arguments[position], ?_, ?_⟩
  · rw [Constructor.locals, List.lookup_append, lookup_zip hnodup hname, List.getElem?_zipWith,
      hparameter, List.getElem?_eq_getElem]
    rfl
  · rw [Frame.value?, Frame.held?, Actuals.frame, Frame.lookup_contents (by simp [hcount]),
      lookup_zip hnodup hname, List.getElem?_map, List.getElem?_eq_getElem (hcount ▸ hposition)]
    by_cases hrecord : withoutRaw parameter.name = Frame.recordVariable <;> simp [hrecord]

theorem shows_parameters {parameters : List ImplementationParameter} {values : List (Value α)}
    (hlength : values.length = parameters.length)
    (htypes : ∀ parameter ∈ parameters, parameter.type ≠ namedType "u32") :
    List.Forall₂ (Datum.Shows read?)
      (parameters.zipWith (fun parameter value => .value parameter.type value) values)
      (values.map .value) := by
  induction parameters generalizing values with
  | nil =>
      obtain rfl := List.length_eq_zero_iff.mp hlength
      exact .nil
  | cons parameter parameters ih =>
      obtain ⟨value, values, rfl⟩ := List.exists_cons_of_length_eq_add_one hlength
      obtain ⟨hfirst, hrest⟩ := List.forall_mem_cons.mp htypes
      exact .cons (.value hfirst) (ih (Nat.succ.inj hlength) hrest)

/-- A flag is read as the same word from the variables and from the frame: a parameter of its name
hides it in both. -/
theorem word?_lookup_flag (hok : Constructor.of table container = .ok constructor)
    (hflags : List.Forall₂ (fun datum word => datum.word? read? = some word) flags actuals.words)
    {flag : String} (hflag : flag ∈ constructor.pair.implementation.flags) :
    ((constructor.locals actuals.arguments flags).lookup (withoutRaw flag)).bind
        (Datum.word? read?) = actuals.frame.word? flag := by
  obtain ⟨-, hparameters, -, hnames⟩ := derive?_eq_some (of_eq_ok hok).1
  have hcount := actuals.length_arguments
  have htypes : ∀ parameter ∈ constructor.pair.implementation.parameters,
      parameter.type ≠ namedType "u32" := by
    rw [hparameters]
    exact List.forall_mem_map.mpr fun parameter _ => type_of_ne_word parameter
  have hshown : List.Forall₂ (Datum.Shows read?) _
      (actuals.arguments.map .value ++ actuals.words.map .word) :=
    List.rel_append (shows_parameters hcount htypes)
      (List.forall₂_map_right_iff.mpr (hflags.imp fun _ _ hword => .word hword))
  have hheld := lookup_zip_rel hshown
    ((constructor.pair.implementation.parameters.map (·.name)).map withoutRaw ++
      constructor.pair.implementation.flags) flag
  rw [List.zip_append (by simp [hcount])] at hheld
  have hrecord : (withoutRaw flag == Frame.recordVariable) = false := by
    rw [withoutRaw_of_mem_flags hok hflag]
    exact beq_false_of_ne (ne_of_mem_flagNames (hnames ▸ hflag) (by decide))
  rw [Frame.word?, Frame.held?, hrecord, withoutRaw_of_mem_flags hok hflag]
  change Option.Rel _ ((constructor.locals actuals.arguments flags).lookup flag)
    (actuals.frame.contents.lookup flag) at hheld
  generalize (constructor.locals actuals.arguments flags).lookup flag = held at hheld ⊢
  generalize actuals.frame.contents.lookup flag = shown at hheld ⊢
  cases hheld with
  | none => rfl
  | some hshows =>
      cases hshows with
      | value htype => exact Datum.word?_value_of_ne htype
      | word hword => exact hword

/-! ### Steps -/

/-- The variables of an implementation while it makes a record. -/
def making (type : Node) (base : Bindings α) (content : Properties α) : Bindings α :=
  (recordLocal, .value type (.record content)) :: base

theorem bagOf?_making (type : Node) (base : Bindings α) (content : Properties α) :
    (making type base content).bagOf? (fieldOf (nameExpr recordLocal) "record") =
      some (⟨recordLocal, ["record"]⟩, .value type (.record content), content) := rfl

theorem lookup_making (type : Node) (base : Bindings α) (content : Properties α) (name : String) :
    (making type base content).lookup name =
      if name = recordLocal then some (.value type (.record content)) else base.lookup name := by
  rw [making, List.lookup_cons]
  by_cases hname : name = recordLocal
  · simp [hname]
  · rw [beq_false_of_ne hname, if_neg hname]

section Steps

variable {s : Surroundings α} {base : Bindings α} {type : Node} {frame : Frame α}
  {assignment : Assignment} {value : Value α}

/-- A parameter that is not wrapped is stored as it is. -/
theorem run_body_of_plain (hplain : assignment.parameter.wrapped = false)
    (hvalue : base.lookup (withoutRaw assignment.parameter.name) =
      some (.value assignment.parameter.type value))
    (hframe : frame.value? assignment.parameter.name =
      if withoutRaw assignment.parameter.name = recordLocal then none else some value)
    (content : Properties α) :
    (s.evalBlock [assignment.body]).run (making type base content) =
      ending (((frame.value? assignment.parameter.name).bind (assignment.store? content)).map
        fun content => (.unit, making type base content)) := by
  have hbody : assignment.body = storing (fieldOf (nameExpr recordLocal) "record")
      assignment.parameter.name (nameExpr assignment.parameter.name) := by
    rw [Assignment.body, hplain]
    rfl
  have hstore : assignment.store? content value =
      some (content.set assignment.parameter.name assignment.parameter.type value) := by
    simp [Assignment.store?, ImplementationParameter.storedType, hplain]
  have hread : (s.eval (nameExpr assignment.parameter.name)).run
      ((recordLocal, .lent) :: making type base content) =
        pure (if withoutRaw assignment.parameter.name = recordLocal then .lent
          else .value assignment.parameter.type value,
          (recordLocal, .lent) :: making type base content) := by
    rw [Surroundings.run_nameExpr, List.lookup_cons]
    by_cases hrecord : withoutRaw assignment.parameter.name = recordLocal
    · rw [if_pos hrecord, hrecord]
      rfl
    · rw [if_neg hrecord, beq_false_of_ne hrecord, lookup_making, if_neg hrecord, hvalue]
      rfl
  rw [hbody, Surroundings.run_storing (bagOf?_making type base content) rfl hread, hframe]
  by_cases hrecord : withoutRaw assignment.parameter.name = recordLocal
  · rw [if_pos hrecord, if_pos hrecord]
    rfl
  · rw [if_neg hrecord, if_neg hrecord, Option.bind_some, hstore]
    rfl

/-- A wrapped parameter is stored if it is present. -/
theorem run_body_of_wrapped (hwrapped : assignment.parameter.wrapped = true) {inner : Node}
    (hinner : insideOption? assignment.parameter.type = some inner)
    (hvalue : base.lookup (withoutRaw assignment.parameter.name) =
      some (.value assignment.parameter.type value))
    (hframe : frame.value? assignment.parameter.name =
      if withoutRaw assignment.parameter.name = recordLocal then none else some value)
    (content : Properties α) :
    (s.evalBlock [assignment.body]).run (making type base content) =
      ending (((frame.value? assignment.parameter.name).bind (assignment.store? content)).map
        fun content => (.unit, making type base content)) := by
  have hbody : s.evalBlock [assignment.body] =
      s.eval (ifThen (letSome "value" (nameExpr assignment.parameter.name))
        [storing (fieldOf (nameExpr recordLocal) "record") assignment.parameter.name
          (nameExpr "value")]) := by
    rw [Assignment.body, hwrapped]
    rfl
  rw [hbody, Surroundings.eval_ifThen_letSome, StateT.run_bind, Surroundings.run_nameExpr,
    lookup_making, hvalue, hframe]
  by_cases hrecord : withoutRaw assignment.parameter.name = recordLocal
  · rw [if_pos hrecord, if_pos hrecord]
    rfl
  rw [if_neg hrecord, if_neg hrecord, Option.map_some, ending_some, pure_bind, Option.bind_some]
  cases value with
  | plain => simp [Assignment.store?, hwrapped, Datum.optional?, Exec.run_stuck]
  | record => simp [Assignment.store?, hwrapped, Datum.optional?, Exec.run_stuck]
  | absent => simp [Assignment.store?, hwrapped, Datum.optional?, hinner, ending_some]
  | present value =>
      have hstore : assignment.store? content (.present value) =
          some (content.set assignment.parameter.name inner value) := by
        simp [Assignment.store?, ImplementationParameter.storedType, hwrapped, hinner]
      have hbag : Bindings.bagOf? (("value", .value inner value) :: making type base content)
          (fieldOf (nameExpr recordLocal) "record") =
          some (⟨recordLocal, ["record"]⟩, .value type (.record content), content) := rfl
      have hstored := @Surroundings.run_storing α s _ _ (nameExpr "value")
        assignment.parameter.name _ _ (.value inner value) _ hbag rfl rfl
      rw [Datum.optional?, hinner, hstore]
      change (Exec.within "value" _ _).run _ = _
      rw [Exec.run_within, hstored]
      simp [Surroundings.settingIn, Datum.withBag, Bindings.update, making, recordLocal, ending]

/-- The code of an assignment runs its body if the bit of its parameter is set. -/
theorem run_code
    (hword : (base.lookup (withoutRaw assignment.flag)).bind (Datum.word? s.word?) =
      frame.word? assignment.flag)
    (hother : withoutRaw assignment.flag ≠ recordLocal) {content : Properties α}
    (hbody : (s.evalBlock [assignment.body]).run (making type base content) =
      ending (((frame.value? assignment.parameter.name).bind (assignment.store? content)).map
        fun content => (.unit, making type base content))) :
    (s.eval (ifThen assignment.condition [assignment.body])).run (making type base content) =
      ending ((assignment.run frame content).map fun content =>
        (.unit, making type base content)) := by
  rw [Assignment.condition, Surroundings.eval_ifThen_binary, StateT.run_bind,
    Surroundings.run_condition, lookup_making, if_neg hother, hword, Assignment.run]
  cases frame.word? assignment.flag with
  | none => rfl
  | some word =>
      rw [Option.map_some, ending_some, pure_bind, Option.bind_eq_bind, Option.bind_some]
      by_cases hclear : word &&& assignment.mask = 0
      · simp [hclear, ending_some]
      · have hset : (word &&& assignment.mask != 0) = true := bne_iff_ne.mpr hclear
        rw [hset, if_neg (by simpa using hclear), Option.bind_eq_bind]
        change (Exec.block _).run _ = _
        rw [Exec.run_block, hbody]
        cases (frame.value? assignment.parameter.name).bind (assignment.store? content) with
        | none => rfl
        | some content => simp [ending_some, making]

end Steps

theorem parts_of_assignment (hok : Constructor.of table container = .ok constructor)
    {assignment : Assignment} {position : Nat}
    (hassignment : constructor.assignments[position]? = some assignment) :
    constructor.pair.implementation.parameters[position]? = some assignment.parameter ∧
      constructor.pair.implementation.flags[position / wordBits]? = some assignment.flag := by
  rw [(of_eq_ok hok).2, getElem?_assignmentsOf] at hassignment
  obtain ⟨parameter, hparameter, rfl⟩ := Option.map_eq_some_iff.mp hassignment
  obtain ⟨hposition, -⟩ := List.getElem?_eq_some_iff.mp hparameter
  exact ⟨hparameter, by rw [List.getElem?_eq_getElem (div_lt_length_flags hok hposition)]; rfl⟩

/-- A wrapped parameter has the optional type of what it stores. -/
theorem exists_inside_of_wrapped (hok : Constructor.of table container = .ok constructor)
    {parameter : ImplementationParameter}
    (hmem : parameter ∈ constructor.pair.implementation.parameters)
    (hwrapped : parameter.wrapped = true) :
    ∃ inner, insideOption? parameter.type = some inner := by
  rw [(derive?_eq_some (of_eq_ok hok).1).2.1] at hmem
  obtain ⟨own, -, rfl⟩ := List.mem_map.mp hmem
  have hstrip : own.type.stripOption.2 = false := by simpa [ImplementationParameter.of] using hwrapped
  exact ⟨own.type, by rw [ImplementationParameter.of, hstrip]; rfl⟩

/-- The code of an assignment does to the record what the assignment does. -/
theorem run_assignment {s : Surroundings α} {type : Node} {assignment : Assignment}
    (hok : Constructor.of table container = .ok constructor)
    (hdistinct : (table.columns.map fun column => withoutRaw column.property).Nodup)
    (hflags : List.Forall₂ (fun datum word => datum.word? s.word? = some word) flags actuals.words)
    (hmem : assignment ∈ constructor.assignments) (content : Properties α) :
    (s.eval (ifThen assignment.condition [assignment.body])).run
        (making type (constructor.locals actuals.arguments flags) content) =
      ending ((assignment.run actuals.frame content).map fun content =>
        (.unit, making type (constructor.locals actuals.arguments flags) content)) := by
  obtain ⟨position, hassignment⟩ := List.getElem?_of_mem hmem
  obtain ⟨hparameter, hflag⟩ := parts_of_assignment hok hassignment
  obtain ⟨value, hvalue, hframe⟩ :=
    @lookup_parameter _ _ _ _ actuals flags hok hdistinct _ _ hparameter
  have hown := List.mem_of_getElem? hflag
  have hother : withoutRaw assignment.flag ≠ recordLocal := by
    rw [withoutRaw_of_mem_flags hok hown]
    exact ne_of_mem_flagNames ((derive?_eq_some (of_eq_ok hok).1).2.2.2 ▸ hown) (by decide)
  refine run_code (word?_lookup_flag hok hflags hown) hother ?_
  cases hwrapped : assignment.parameter.wrapped with
  | false => exact run_body_of_plain hwrapped hvalue hframe content
  | true =>
      obtain ⟨inner, hinner⟩ :=
        exists_inside_of_wrapped hok (List.mem_of_getElem? hparameter) hwrapped
      exact run_body_of_wrapped hwrapped hinner hvalue hframe content

/-- The code of some assignments does what they do one after the other, and ends with the record. -/
theorem run_assignments {s : Surroundings α} {type : Node} {base : Bindings α} {frame : Frame α}
    {assignments : List Assignment}
    (hsteps : ∀ assignment ∈ assignments, ∀ content,
      (s.eval (ifThen assignment.condition [assignment.body])).run (making type base content) =
        ending ((assignment.run frame content).map fun content =>
          (.unit, making type base content)))
    (content : Properties α) :
    (s.evalBlock (assignments.map Assignment.code ++ [resultOf (nameExpr recordLocal)])).run
        (making type base content) =
      ending ((assignments.foldlM (Assignment.run frame) content).map fun content =>
        (.value type (.record content), making type base content)) := by
  induction assignments generalizing content with
  | nil => exact Surroundings.run_nameExpr recordLocal
  | cons assignment rest ih =>
      obtain ⟨hfirst, hrest⟩ := List.forall_mem_cons.mp hsteps
      obtain ⟨next, others, hnext⟩ : ∃ next others,
          rest.map Assignment.code ++ [resultOf (nameExpr recordLocal)] = next :: others :=
        List.exists_cons_of_ne_nil (by simp)
      rw [List.map_cons, List.cons_append, Assignment.code, hnext, Surroundings.evalBlock_resultOf,
        ← hnext, StateT.run_bind, hfirst, List.foldlM_cons]
      cases assignment.run frame content with
      | none => rfl
      | some content => exact ih hrest content

end Implementation

/-! ### Making a record -/

/-- The function that makes an empty record. -/
def RecordType.newFunction (type : RecordType) : Function :=
  ⟨plainSignature "new" [] returningSelf,
    [resultOf (structOf "Self" [fieldGiven "record" (emptyBag type.tableType)])]⟩

/-- A new record has an empty bag for the table of its type. -/
theorem RecordType.run_newFunction {s : Surroundings α} {type : RecordType} {tableName : String}
    (hself : s.self = type.selfType) (hplain : type.tableType ≠ "Self")
    (hname : s.call (.table (namedType type.tableType) "TABLE_NAME") [] = some (.text tableName)) :
    type.newFunction.run s [] =
      some (.value type.selfType (.record (.empty tableName)), []) := by
  rw [← @resolveSelf_of_ne s.self _ hplain] at hname
  have hread : s.evalBlock type.newFunction.body = (do
      let values ← (do
        let datum ← s.eval (emptyBag type.tableType)
        return [("record", datum)])
      Exec.ofOption (Datum.ofFields? s.fill (resolveSelf s.self (namedType "Self")) values)) := rfl
  refine Function.run_eq rfl ?_
  simp only [hread, StateT.run_bind, Surroundings.run_emptyBag hname, pure_bind, resolveSelf,
    if_true, hself]
  rfl

section Making

variable {table : Table} {container : String} {constructor : Constructor}

/-- The function that is the implementation of a constructor. -/
def Constructor.function (constructor : Constructor) : Function :=
  ⟨constructor.implementationSignature,
    letMut [allowing ["unused_mut"]] recordLocal
      (callOf (namePath [recordName constructor.entity, "new"]) []) ::
        constructor.assignments.map Assignment.code ++ [resultOf (nameExpr recordLocal)]⟩

theorem functionOf?_publicFunction (attributes : List Node) (signature : Signature)
    (body : List Node) : functionOf? (publicFunction attributes signature body) =
      (Signature.ofNode? signature.toNode).map fun own => ⟨own, body⟩ := rfl

theorem functionOf?_implementationItem (hok : Constructor.of table container = .ok constructor) :
    functionOf? constructor.implementationItem = some constructor.function := by
  rw [Constructor.implementationItem, functionOf?_publicFunction,
    ofNode?_implementationSignature hok]
  rfl

/-- Running an implementation makes the record that its assignments make. -/
theorem run_function (hok : Constructor.of table container = .ok constructor)
    (hdistinct : (table.columns.map fun column => withoutRaw column.property).Nodup)
    {s : Surroundings α} (hself : s.self = namedType "Self") {type : Node} {tableName : String}
    (htype : type = recordType constructor.entity)
    (hnew : s.call (.own type "new") [] = some (.value type (.record (.empty tableName))))
    {actuals : Actuals α constructor.pair.implementation} {passed : List (Datum α)}
    (hpassed : actuals.PassedAs s.word? passed) :
    (constructor.function.run s passed).map (·.1) =
      (constructor.run tableName actuals.arguments actuals.words).map fun content =>
        .value type (.record content) := by
  obtain ⟨flags, hinputs, hflags⟩ := bindInputs_implementation hok hpassed
  have hstep := fun assignment hmem => @run_assignment _ _ _ _ _ _ s type assignment hok hdistinct
    hflags hmem
  have hsteps := run_assignments hstep (EntityRecord.empty tableName)
  have hbody : (s.evalBlock constructor.function.body).run
      (constructor.locals actuals.arguments flags) =
      ending ((constructor.run tableName actuals.arguments actuals.words).map fun content =>
        (.value type (.record content),
          making type (constructor.locals actuals.arguments flags) content)) := by
    rw [Constructor.function, List.cons_append, recordLocal, Surroundings.run_letMut_record,
      Surroundings.run_callOf_own, hself, resolveSelf_self]
    subst htype
    rw [recordType] at hnew
    rw [hnew]
    exact hsteps
  rw [Function.run_eq hinputs hbody, Option.map_map]
  rfl

end Making

end EntityTables.Generated
