import EntityTables.Proofs.Generated.Capture

/-!
# Calls of an implementation

An implementation takes any values and words. Names in it may be captured, but then it gets stuck: a
record that it makes holds what was passed for the columns whose bits are set, in the types of the
columns.
-/

namespace EntityTables.Generated

open EntityTables.Syntax EntityTables.Schema EntityTables.Call

variable {α : Type}

/-! ### What is passed -/

def Value.isOptional : Value α → Bool
  | .present _ => true
  | .absent => true
  | _ => false

/-- What an implementation is called with: a value for each of its parameters, and its words. -/
structure Actuals (α : Type) (implementation : ImplementationFunction) where
  arguments : List (Value α)
  words : List UInt32
  length_arguments : arguments.length = implementation.parameters.length
  length_words : words.length = implementation.flags.length

namespace Actuals

variable {implementation : ImplementationFunction} (actuals : Actuals α implementation)

/-- Wrapped parameters are given optional values. -/
def Wraps : Prop :=
  ∀ (position : Nat) (parameter : ImplementationParameter) (argument : Value α),
    implementation.parameters[position]? = some parameter → parameter.wrapped = true →
      actuals.arguments[position]? = some argument → argument.isOptional = true

/-- What is stored for the parameter at a position: its argument, if its bit is set; for a wrapped
one what the argument has inside. -/
def stored? (position : Nat) : Option (Value α) :=
  if FlagEncoding.isSupplied actuals.words position then
    implementation.parameters[position]?.bind fun parameter =>
      actuals.arguments[position]?.bind fun argument =>
        if parameter.wrapped then argument.content? else some argument
  else none

/-- All that is stored, by positions. -/
def supplied : List (Nat × Value α) :=
  (List.range implementation.parameters.length).filterMap fun position =>
    (actuals.stored? position).map (position, ·)

theorem slotOf?_supplied {position : Nat} (hlt : position < implementation.parameters.length) :
    slotOf? actuals.supplied position = actuals.stored? position := by
  have hfind : ∀ positions : List Nat, position ∈ positions →
      slotOf? (positions.filterMap fun other => (actuals.stored? other).map (other, ·)) position =
        actuals.stored? position := by
    intro positions hmem
    induction positions with
    | nil => cases hmem
    | cons other rest ih =>
        by_cases hsame : other = position
        · subst hsame
          cases hstored : actuals.stored? other with
          | some value => simp [hstored, slotOf?_cons_self]
          | none =>
              rw [List.filterMap_cons_none (by rw [hstored]; rfl)]
              by_cases hrest : other ∈ rest
              · rw [ih hrest, hstored]
              · refine slotOf?_eq_none fun hlisted => hrest ?_
                obtain ⟨entry, hentry, rfl⟩ := List.mem_map.mp hlisted
                obtain ⟨found, hfound, hpair⟩ := List.mem_filterMap.mp hentry
                obtain ⟨value, -, rfl⟩ := Option.map_eq_some_iff.mp hpair
                exact hfound
        · have hrest := ih ((List.mem_cons.mp hmem).resolve_left (Ne.symm hsame))
          cases hstored : actuals.stored? other with
          | none => rw [List.filterMap_cons_none (by rw [hstored]; rfl), hrest]
          | some value =>
              rw [List.filterMap_cons_some (by rw [hstored]; rfl), slotOf?_cons_of_ne hsame, hrest]
  exact hfind _ (List.mem_range.mpr hlt)

end Actuals

/-! ### Variables that an implementation reads

Whatever a variable is read as is what was passed for it, even if names are captured. -/

namespace Frame

variable {names flags : List String} {values : List (Value α)} {words : List UInt32} {index : Nat}
  {name : String}

theorem lookup_contents (hlength : values.length = names.length) (key : String) :
    (Frame.of names values flags words).contents.lookup key =
      (((names.map withoutRaw).zip (values.map Variable.value)).lookup key).or
        ((flags.zip (words.map Variable.word)).lookup key) := by
  rw [Frame.of, List.zip_append (by simp [hlength]), List.lookup_append]

theorem getElem?_of_value? (hlength : values.length = names.length)
    (hnodup : (names.map withoutRaw).Nodup) (hname : names[index]? = some name) {value : Value α}
    (hvalue : (Frame.of names values flags words).value? name = some value) :
    values[index]? = some value := by
  obtain ⟨hindex, -⟩ := List.getElem?_eq_some_iff.mp hname
  have hown : ((names.map withoutRaw).zip (values.map Variable.value)).lookup (withoutRaw name) =
      (values.map Variable.value)[index]? :=
    lookup_zip hnodup (by rw [List.getElem?_map, hname]; rfl)
  rw [List.getElem?_map, List.getElem?_eq_getElem (hlength ▸ hindex), Option.map_some] at hown
  have hcontents := @lookup_contents α names flags values words hlength (withoutRaw name)
  rw [hown, Option.some_or] at hcontents
  rw [value?, held?] at hvalue
  split at hvalue
  · next found hheld =>
      split at hheld
      · cases hheld
      · rw [hcontents] at hheld
        cases hheld
        rw [List.getElem?_eq_getElem (hlength ▸ hindex)]
        exact hvalue
  · cases hvalue

theorem getElem?_of_word? (hlength : values.length = names.length) (hnodup : flags.Nodup)
    (hplain : withoutRaw name = name) (hname : flags[index]? = some name) {word : UInt32}
    (hword : (Frame.of names values flags words).word? name = some word) :
    words[index]? = some word := by
  rw [word?, held?] at hword
  split at hword
  · next found hheld =>
      cases hword
      split at hheld
      · cases hheld
      · rw [lookup_contents hlength, hplain] at hheld
        -- a parameter of this name would hide the word
        cases hfirst : ((names.map withoutRaw).zip (values.map Variable.value)).lookup name with
        | some found =>
            obtain ⟨front, rest, hzip, -⟩ := List.lookup_eq_some_iff.mp hfirst
            have hmem : (name, found) ∈ (names.map withoutRaw).zip (values.map Variable.value) := by
              rw [hzip]
              simp
            obtain ⟨value, -, rfl⟩ := List.mem_map.mp (List.of_mem_zip hmem).2
            rw [hfirst] at hheld
            cases hheld
        | none =>
            rw [hfirst, Option.none_or, lookup_zip hnodup hname, List.getElem?_map] at hheld
            obtain ⟨other, hother, heq⟩ := Option.map_eq_some_iff.mp hheld
            cases heq
            exact hother
  · cases hword

end Frame

/-! ### Runs of an implementation -/

theorem eq_foldl_of_foldlM_eq_some {β γ : Type} {step : β → γ → Option β} {result : β → γ → β}
    {items : List γ} (hstep : ∀ item ∈ items, ∀ state next, step state item = some next →
      next = result state item) {state final : β} (hfinal : items.foldlM step state = some final) :
    final = items.foldl result state := by
  induction items generalizing state with
  | nil => exact (Option.some.inj hfinal).symm
  | cons item rest ih =>
      rw [List.foldlM_cons] at hfinal
      obtain ⟨next, hnext, hrest⟩ := Option.bind_eq_some_iff.mp hfinal
      rw [List.foldl_cons, ← hstep item List.mem_cons_self state next hnext]
      exact ih (fun other hmem => hstep other (List.mem_cons_of_mem _ hmem)) hrest

theorem isSome_foldlM {β γ : Type} {step : β → γ → Option β} {items : List γ}
    (hstep : ∀ item ∈ items, ∀ state, (step state item).isSome) (state : β) :
    (items.foldlM step state).isSome := by
  induction items generalizing state with
  | nil => rfl
  | cons item rest ih =>
      obtain ⟨next, hnext⟩ := Option.isSome_iff_exists.mp (hstep item List.mem_cons_self state)
      rw [List.foldlM_cons, hnext]
      exact ih (fun other hmem => hstep other (List.mem_cons_of_mem _ hmem)) next

theorem Assignment.isSome_store? {assignment : Assignment} {value : Value α}
    (hvalue : assignment.parameter.wrapped = true → value.isOptional = true)
    (record : Properties α) : (assignment.store? record value).isSome := by
  cases hwrapped : assignment.parameter.wrapped with
  | false => simp [store?, hwrapped]
  | true =>
      have hoptional := hvalue hwrapped
      cases value with
      | plain => cases hoptional
      | record => cases hoptional
      | absent => simp [store?, hwrapped]
      | present => simp [store?, hwrapped]

/-- A step that succeeds stores what a variable holds; a wrapped one what it has inside. -/
theorem Assignment.eq_stored_of_store? {assignment : Assignment} {value : Value α}
    {record next : Properties α} (hstore : assignment.store? record value = some next) :
    next = stored assignment.parameter record
      (if assignment.parameter.wrapped then value.content? else some value) := by
  cases hwrapped : assignment.parameter.wrapped with
  | false =>
      simp only [store?, hwrapped, Bool.false_eq_true, if_false, Option.some.injEq] at hstore
      exact hstore.symm
  | true =>
      simp only [store?, hwrapped, if_true] at hstore
      cases value with
      | plain => cases hstore
      | record => cases hstore
      | absent => exact (Option.some.inj hstore).symm
      | present => exact (Option.some.inj hstore).symm

section Runs

variable {table : Table} {container : String} {constructor : Constructor} {tableName : String}
  {actuals : Actuals α constructor.pair.implementation}

/-- The variables of an implementation that is called. -/
def Actuals.frame {implementation : ImplementationFunction} (actuals : Actuals α implementation) :
    Frame α :=
  .of (implementation.parameters.map (·.name)) actuals.arguments implementation.flags actuals.words

/-- There is a word for the bit of every parameter. -/
theorem div_lt_length_flags (hok : Constructor.of table container = .ok constructor)
    {position : Nat} (hposition : position < constructor.pair.implementation.parameters.length) :
    position / wordBits < constructor.pair.implementation.flags.length := by
  obtain ⟨-, hparameters, hencoding, hflags⟩ := derive?_eq_some (of_eq_ok hok).1
  rw [hflags, FlagEncoding.length_flagNames]
  refine FlagEncoding.div_lt_wordCount ?_
  rwa [hencoding, ← List.length_map ImplementationParameter.of, ← hparameters]

/-- A step that succeeds stores what was passed for its parameter. -/
theorem eq_storeSupplied_of_run (hok : Constructor.of table container = .ok constructor)
    (hdistinct : (table.columns.map fun column => withoutRaw column.property).Nodup)
    {parameter : ImplementationParameter} {position : Nat}
    (hparameter : constructor.pair.implementation.parameters[position]? = some parameter)
    {assignment : Assignment} (hassignment : constructor.assignments[position]? = some assignment)
    {record next : Properties α} (hrun : assignment.run actuals.frame record = some next) :
    next = storeSupplied actuals.supplied record (parameter, position) := by
  obtain ⟨hpair, hassignments⟩ := of_eq_ok hok
  obtain ⟨-, -, -, hflags⟩ := derive?_eq_some hpair
  obtain ⟨hposition, -⟩ := List.getElem?_eq_some_iff.mp hparameter
  have hlength : actuals.arguments.length =
      (constructor.pair.implementation.parameters.map (·.name)).length := by
    rw [actuals.length_arguments, List.length_map]
  have hplace := div_lt_length_flags hok hposition
  have hflag := List.getElem?_eq_getElem hplace
  rw [hassignments, getElem?_assignmentsOf, hparameter, Option.map_some, Option.some.injEq, hflag,
    Option.getD_some] at hassignment
  subst hassignment
  obtain ⟨word, hword, hrun⟩ := Option.bind_eq_some_iff.mp hrun
  have hpassed := Frame.getElem?_of_word? hlength (hflags ▸ FlagEncoding.nodup_flagNames)
    (withoutRaw_of_mem_flags hok (List.getElem_mem hplace)) hflag hword
  have hbit := @FlagEncoding.and_mask_eq_zero_iff word _
    (Nat.mod_lt position (by decide : 0 < wordBits))
  rw [← FlagEncoding.isSupplied_eq hpassed] at hbit
  rw [storeSupplied, Actuals.slotOf?_supplied _ hposition, Actuals.stored?]
  dsimp only at hrun
  split at hrun
  · next hclear =>
      rw [if_neg (by simpa using hbit.mp (beq_iff_eq.mp hclear))]
      exact (Option.some.inj hrun).symm
  · next hset =>
      obtain ⟨value, hvalue, hstore⟩ := Option.bind_eq_some_iff.mp hrun
      have hargument := Frame.getElem?_of_value? hlength (hdistinct.sublist (names_sublist hok))
        (by rw [List.getElem?_map, hparameter]; rfl) hvalue
      have hsupplied : FlagEncoding.isSupplied actuals.words position = true := by
        rw [← Bool.not_eq_false, ← hbit]
        simpa using hset
      rw [if_pos hsupplied, hparameter, hargument]
      exact Assignment.eq_stored_of_store? hstore

/-- An implementation that makes a record sets the properties whose bits are set, to what was passed
for them. -/
theorem eq_constructed_of_run (hok : Constructor.of table container = .ok constructor)
    (hdistinct : (table.columns.map fun column => withoutRaw column.property).Nodup)
    {record : Properties α}
    (hrun : constructor.run tableName actuals.arguments actuals.words = some record) :
    record = constructed constructor.pair.implementation.parameters tableName actuals.supplied := by
  rw [Constructor.run, (of_eq_ok hok).2, assignmentsOf, List.foldlM_map] at hrun
  refine eq_foldl_of_foldlM_eq_some ?_ hrun
  rintro ⟨parameter, position⟩ hmem state next hstep
  have hparameter := List.mk_mem_zipIdx_iff_getElem?.mp hmem
  refine eq_storeSupplied_of_run hok hdistinct hparameter ?_ hstep
  rw [(of_eq_ok hok).2, getElem?_assignmentsOf, hparameter]
  rfl

/-- An implementation makes a record of whatever is passed, if no name in it is captured. -/
theorem isSome_run (hok : Constructor.of table container = .ok constructor)
    (hapart : PropertiesApart table constructor.pair.implementation.flags)
    (hwraps : actuals.Wraps) :
    (constructor.run tableName actuals.arguments actuals.words).isSome := by
  obtain ⟨-, hassignments⟩ := of_eq_ok hok
  refine isSome_foldlM (fun assignment hmem record => ?_) _
  obtain ⟨position, hassignment⟩ := List.getElem?_of_mem hmem
  obtain ⟨hvalue, hword⟩ := hapart.readsOwn hok α actuals.arguments actuals.words
    actuals.length_arguments actuals.length_words position assignment hassignment
  rw [hassignments, getElem?_assignmentsOf] at hassignment
  obtain ⟨parameter, hparameter, hown⟩ := Option.map_eq_some_iff.mp hassignment
  obtain ⟨hposition, -⟩ := List.getElem?_eq_some_iff.mp hparameter
  have hplace := div_lt_length_flags hok hposition
  have hargument := List.getElem?_eq_getElem (actuals.length_arguments ▸ hposition)
  rw [hargument] at hvalue
  rw [List.getElem?_eq_getElem (actuals.length_words ▸ hplace)] at hword
  simp only [Assignment.run, hword, hvalue, Option.bind_eq_bind, Option.bind_some]
  split
  · rfl
  · refine Assignment.isSome_store? (fun hwrapped => ?_) record
    refine hwraps position parameter _ hparameter ?_ hargument
    rw [← hwrapped, ← hown]

end Runs

/-! ### What a constructor stores -/

/-- The value that a call of an implementation gives for a column, if it gives one: the argument in
the place of the column, if its bit is set. The argument for a nullable column is the value, that of
any other has it inside. -/
def Constructor.passed? (constructor : Constructor)
    (actuals : Actuals α constructor.pair.implementation) (column : Column) : Option (Value α) :=
  (constructor.pair.virtual.position? column.property).bind fun position =>
    if FlagEncoding.isSupplied actuals.words position then
      actuals.arguments[position]?.bind fun argument =>
        if column.nullable then some argument else argument.content?
    else none

theorem suppliedTyped?_eq (parameters : List ImplementationParameter)
    (supplied : List (Nat × Value α)) (property : String) :
    suppliedTyped? parameters 0 supplied property =
      (parameters.findIdx? (·.name == property)).bind fun position =>
        parameters[position]?.bind fun parameter =>
          (slotOf? supplied position).map fun value => ⟨parameter.storedType, value⟩ := by
  rw [suppliedTyped?, List.findIdx?_eq_fst_find?_zipIdx]
  cases hfound : parameters.zipIdx.find? fun entry => entry.1.name == property with
  | none => rfl
  | some entry =>
      have hparameter := List.mk_mem_zipIdx_iff_getElem?.mp (List.mem_of_find?_eq_some hfound)
      rw [Option.map_some, Option.bind_some, Option.bind_some, hparameter, Option.bind_some]

section Columns

variable {table : Table} {container : String} {constructor : Constructor} {tableName : String}
  {actuals : Actuals α constructor.pair.implementation} {column : Column}

theorem position?_eq_findIdx? (hok : Constructor.of table container = .ok constructor)
    (property : String) : constructor.pair.virtual.position? property =
      constructor.pair.implementation.parameters.findIdx? (·.name == property) := by
  obtain ⟨hvirtual, hparameters, -⟩ := derive?_eq_some (of_eq_ok hok).1
  rw [VirtualFunction.position?, hparameters, List.findIdx?_map, hvirtual]
  rfl

/-- The parameter in the place of a column takes values of its type. -/
theorem parameter_of_position? (hok : Constructor.of table container = .ok constructor)
    (hdistinct : (table.columns.map fun column => withoutRaw column.property).Nodup)
    (hcolumn : column ∈ table.columns) {position : Nat}
    (hposition : constructor.pair.virtual.position? column.property = some position) :
    constructor.pair.implementation.parameters[position]? =
      some (.of ⟨column.property, column.storedType⟩) := by
  obtain ⟨-, hparameters, -⟩ := derive?_eq_some (of_eq_ok hok).1
  rw [position?_eq_findIdx? hok] at hposition
  obtain ⟨hlt, hname, -⟩ := List.findIdx?_eq_some_iff_getElem.mp hposition
  rw [List.getElem?_eq_getElem hlt]
  have hmem := List.getElem_mem hlt
  generalize constructor.pair.implementation.parameters[position] = parameter at hname hmem
  rw [hparameters] at hmem
  obtain ⟨own, hown, rfl⟩ := List.mem_map.mp hmem
  obtain ⟨other, hother, rfl⟩ := mem_parameters_constructorSignature hown
  have hproperty : other.property = column.property := beq_iff_eq.mp hname
  rw [List.inj_on_of_nodup_map hdistinct hother hcolumn (by rw [hproperty])]

/-- A record that an implementation makes holds what was passed for the columns, in the types of the
columns. -/
theorem typed?_of_run (hok : Constructor.of table container = .ok constructor)
    (hdistinct : (table.columns.map fun column => withoutRaw column.property).Nodup)
    (hcolumn : column ∈ table.columns)
    (hnullable : column.storedType.stripOption.2 = column.nullable) {record : Properties α}
    (hrun : constructor.run tableName actuals.arguments actuals.words = some record) :
    record.typed? column.property =
      (constructor.passed? actuals column).map (Typed.mk column.storedType) := by
  have hnames : (constructor.pair.implementation.parameters.map (·.name)).Nodup :=
    List.Nodup.of_map withoutRaw (hdistinct.sublist (names_sublist hok))
  rw [eq_constructed_of_run hok hdistinct hrun, constructed, typed?_foldl_storeSupplied hnames,
    EntityRecord.typed?_empty, Option.or_none, suppliedTyped?_eq, ← position?_eq_findIdx? hok,
    Constructor.passed?]
  cases hposition : constructor.pair.virtual.position? column.property with
  | none => rfl
  | some position =>
      have hparameter := parameter_of_position? hok hdistinct hcolumn hposition
      obtain ⟨hlt, -⟩ := List.getElem?_eq_some_iff.mp hparameter
      rw [Option.bind_some, Option.bind_some, hparameter, Option.bind_some,
        Actuals.slotOf?_supplied _ hlt, Actuals.stored?, hparameter, Option.bind_some,
        ImplementationParameter.storedType_of, ImplementationParameter.of]
      simp only [hnullable]
      cases column.nullable <;> rfl

end Columns

end EntityTables.Generated
