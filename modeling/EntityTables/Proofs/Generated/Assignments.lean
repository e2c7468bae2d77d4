import EntityTables.Generated.Run
import EntityTables.Proofs.Call.Slots
import EntityTables.Proofs.Record

/-!
# What an implementation stores

The body of a constructor goes through its parameters in order. Each step finds the word and the
value of its parameter, and stores the value if the bit is set; so in the end the supplied properties
are set and no others.
-/

namespace EntityTables.Generated

open EntityTables.Call

variable {α : Type}

/-! ### Variables -/

theorem lookup_zip {β : Type} {keys : List String} {values : List β} (hnodup : keys.Nodup)
    {index : Nat} {key : String} (hkey : keys[index]? = some key) :
    (keys.zip values).lookup key = values[index]? := by
  induction keys generalizing values index with
  | nil => simp at hkey
  | cons first rest ih =>
      obtain ⟨hfirst, hrest⟩ := List.nodup_cons.mp hnodup
      cases values with
      | nil => simp
      | cons value values =>
          cases index with
          | zero =>
              simp only [List.getElem?_cons_zero, Option.some.injEq] at hkey
              simp [hkey]
          | succ index =>
              rw [List.getElem?_cons_succ] at hkey
              have hne : (key == first) = false := by
                refine beq_false_of_ne fun heq => hfirst ?_
                exact heq ▸ List.mem_of_getElem? hkey
              rw [List.zip_cons_cons, List.lookup_cons, hne, List.getElem?_cons_succ]
              exact ih hrest hkey

/-- The variables of an implementation: its parameters, its words, and the record that it makes. -/
def variableNames (names flags : List String) : List String :=
  Frame.recordVariable :: (names.map withoutRaw ++ flags)

namespace Frame

variable {names flags : List String} {values : List (Value α)} {words : List UInt32} {index : Nat}
  {name : String}

theorem held?_of (hnames : (variableNames names flags).Nodup)
    (hname : (names.map withoutRaw ++ flags)[index]? = some (withoutRaw name)) :
    (Frame.of names values flags words).held? name =
      (values.map Variable.value ++ words.map Variable.word)[index]? := by
  obtain ⟨hrecord, hnodup⟩ := List.nodup_cons.mp hnames
  have hne : (withoutRaw name == recordVariable) = false :=
    beq_false_of_ne fun h => hrecord (h ▸ List.mem_of_getElem? hname)
  simp only [held?, hne, Bool.false_eq_true, if_false, Frame.of]
  exact lookup_zip hnodup hname

theorem value?_of (hnames : (variableNames names flags).Nodup)
    (hlength : values.length = names.length) (hname : names[index]? = some name) :
    (Frame.of names values flags words).value? name = values[index]? := by
  obtain ⟨hindex, -⟩ := List.getElem?_eq_some_iff.mp hname
  have hheld := @held?_of α names flags values words index name hnames (by
    rw [List.getElem?_append_left (by simpa using hindex), List.getElem?_map, hname]
    rfl)
  rw [List.getElem?_append_left (by simpa [hlength] using hindex), List.getElem?_map,
    List.getElem?_eq_getElem (hlength ▸ hindex), Option.map_some] at hheld
  rw [value?, hheld, List.getElem?_eq_getElem (hlength ▸ hindex)]

theorem word?_of (hnames : (variableNames names flags).Nodup)
    (hlength : values.length = names.length) (hplain : ∀ flag ∈ flags, withoutRaw flag = flag)
    {word : UInt32} (hname : flags[index]? = some name) (hword : words[index]? = some word) :
    (Frame.of names values flags words).word? name = some word := by
  have hflag := hplain name (List.mem_of_getElem? hname)
  have hheld := @held?_of α names flags values words (names.length + index) name hnames (by
    rw [List.getElem?_append_right (by simp), hflag]
    simpa using hname)
  rw [List.getElem?_append_right (by simp [hlength]), List.getElem?_map, List.length_map, hlength,
    Nat.add_sub_cancel_left, hword, Option.map_some] at hheld
  rw [word?, hheld]

end Frame

/-! ### Steps -/

/-- What a step does to a record, for a parameter that was supplied with a value or not. -/
def stored (parameter : ImplementationParameter) (record : Properties α) :
    Option (Value α) → Properties α
  | some value => record.set parameter.name parameter.storedType value
  | none => record

/-- What a step does to a record if the given positions were supplied with values. -/
def storeSupplied (supplied : List (Nat × Value α)) (record : Properties α)
    (entry : ImplementationParameter × Nat) : Properties α :=
  stored entry.1 record (slotOf? supplied entry.2)

/-- A step stores the value of its parameter if its bit is set. -/
theorem Assignment.run_eq {frame : Frame α} {assignment : Assignment} {word : UInt32}
    {supplied : Option (Value α)} (hword : frame.word? assignment.flag = some word)
    (hvalue : frame.value? assignment.parameter.name =
      some (argumentFor assignment.parameter supplied))
    (hbit : word &&& assignment.mask = 0 ↔ supplied = none) (record : Properties α) :
    assignment.run frame record = some (stored assignment.parameter record supplied) := by
  cases supplied with
  | none => simp [Assignment.run, hword, hbit, stored]
  | some value =>
      have hset : word &&& assignment.mask ≠ 0 := by simp [hbit]
      have hrun : assignment.run frame record = assignment.store? record
          (argumentFor assignment.parameter (some value)) := by
        simp [Assignment.run, hword, hvalue, hset]
      rw [hrun]
      cases hwrapped : assignment.parameter.wrapped <;>
        simp [Assignment.store?, argumentFor, hwrapped, stored]

theorem foldlM_eq_some {β γ : Type} {step : β → γ → Option β} {result : β → γ → β} {items : List γ}
    (hstep : ∀ item ∈ items, ∀ state, step state item = some (result state item)) (state : β) :
    items.foldlM step state = some (items.foldl result state) := by
  induction items generalizing state with
  | nil => rfl
  | cons item rest ih =>
      rw [List.foldlM_cons, hstep item (by simp), List.foldl_cons]
      exact ih (fun other hmem => hstep other (List.mem_cons_of_mem _ hmem)) _

/-! ### Runs -/

/-- What a property is set to after some parameters, among those from a position on. -/
def suppliedTyped? (parameters : List ImplementationParameter) (start : Nat)
    (supplied : List (Nat × Value α)) (property : String) : Option (Typed Syntax.Node (Value α)) :=
  ((parameters.zipIdx start).find? fun entry => entry.1.name == property).bind
    fun (parameter, position) =>
      (slotOf? supplied position).map fun value => ⟨parameter.storedType, value⟩

theorem typed?_storeSupplied (supplied : List (Nat × Value α)) (record : Properties α)
    (parameter : ImplementationParameter) (position : Nat) (property : String) :
    (storeSupplied supplied record (parameter, position)).typed? property =
      if parameter.name = property then
        ((slotOf? supplied position).map fun value => ⟨parameter.storedType, value⟩).or
          (record.typed? property)
      else record.typed? property := by
  unfold storeSupplied
  cases hslot : slotOf? supplied position with
  | none => simp [stored]
  | some value => simp [stored, EntityRecord.typed?_set]

theorem find?_zipIdx_eq_none {parameters : List ImplementationParameter} {start : Nat}
    {property : String} (hfree : property ∉ parameters.map (·.name)) :
    (parameters.zipIdx start).find? (fun entry => entry.1.name == property) = none := by
  rw [List.find?_eq_none]
  intro entry hmem hentry
  refine hfree (List.mem_map.mpr ⟨entry.1, List.fst_mem_of_mem_zipIdx hmem, ?_⟩)
  simpa using hentry

/-- After all steps the properties of the supplied parameters are set; the others are as before. -/
theorem typed?_foldl_storeSupplied {parameters : List ImplementationParameter} {start : Nat}
    {supplied : List (Nat × Value α)} (hnames : (parameters.map (·.name)).Nodup)
    (record : Properties α) (property : String) :
    ((parameters.zipIdx start).foldl (storeSupplied supplied) record).typed? property =
      (suppliedTyped? parameters start supplied property).or (record.typed? property) := by
  induction parameters generalizing start record with
  | nil => rfl
  | cons parameter rest ih =>
      obtain ⟨hfirst, hrest⟩ := List.nodup_cons.mp hnames
      rw [List.zipIdx_cons, List.foldl_cons, ih hrest, typed?_storeSupplied]
      by_cases hsame : parameter.name = property
      · subst hsame
        have hlater := @find?_zipIdx_eq_none rest (start + 1) _ hfirst
        simp [suppliedTyped?, hlater]
      · have hskip : (parameter.name == property) = false := beq_false_of_ne hsame
        simp [suppliedTyped?, hsame, hskip]

theorem table_foldl_storeSupplied (entries : List (ImplementationParameter × Nat))
    (supplied : List (Nat × Value α)) (record : Properties α) :
    (entries.foldl (storeSupplied supplied) record).table = record.table := by
  induction entries generalizing record with
  | nil => rfl
  | cons entry rest ih =>
      rw [List.foldl_cons, ih, storeSupplied]
      cases slotOf? supplied entry.2 <;> rfl

/-- What a record holds after some parameters were supplied with values. -/
def constructed (parameters : List ImplementationParameter) (tableName : String)
    (supplied : List (Nat × Value α)) : Properties α :=
  parameters.zipIdx.foldl (storeSupplied supplied) (EntityRecord.empty tableName)

theorem isSupplied_encode_iff {encoding : FlagEncoding} {targets : List Nat}
    {values : List (Value α)} (hlength : values.length = targets.length) {position : Nat}
    (hposition : position < encoding.parameters) :
    FlagEncoding.isSupplied (encoding.encode targets) position = false ↔
      slotOf? (targets.zip values) position = none := by
  rw [FlagEncoding.isSupplied_encode hposition, decide_eq_false_iff_not]
  constructor
  · exact slotOf?_zip_eq_none
  · intro hslot hmem
    obtain ⟨value, hvalue⟩ := slotOf?_zip_isSome hlength hmem
    rw [hslot] at hvalue
    cases hvalue

theorem withoutRaw_flagName {encoding : FlagEncoding} {flag : String}
    (hflag : flag ∈ encoding.flagNames) : withoutRaw flag = flag := by
  obtain ⟨rest, rfl⟩ := FlagEncoding.mem_flagNames hflag
  have hraw : isRaw ("flag" ++ rest) = false := by simp [isRaw, List.isPrefixOf]
  simp [withoutRaw, hraw]

/-- Running an implementation on what a redirected call passes: every supplied property is set to
its value, and no other property is set. -/
theorem run_fill {virtual : VirtualFunction} {constructor : Constructor}
    (hpair : Pair.derive? virtual = some constructor.pair)
    (hassignments : constructor.assignments = assignmentsOf constructor.pair)
    (hnames : (variableNames (constructor.pair.implementation.parameters.map (·.name))
      constructor.pair.implementation.flags).Nodup)
    {targets : List Nat} {values : List (Value α)} (hlength : values.length = targets.length)
    (tableName : String) :
    constructor.run tableName
        (fill argumentFor constructor.pair.implementation.parameters 0 (targets.zip values))
        (constructor.pair.implementation.encoding.encode targets) =
      some (constructed constructor.pair.implementation.parameters tableName
        (targets.zip values)) := by
  obtain ⟨-, hparameters, hencoding, hflags⟩ := derive?_eq_some hpair
  have hcount : constructor.pair.implementation.encoding.parameters =
      constructor.pair.implementation.parameters.length := by
    rw [hencoding, hparameters, List.length_map]
  rw [Constructor.run, hassignments, assignmentsOf, List.foldlM_map]
  refine foldlM_eq_some (fun ⟨parameter, position⟩ hmem record => ?_) _
  have hparameter := List.mk_mem_zipIdx_iff_getElem?.mp hmem
  obtain ⟨hlt, -⟩ := List.getElem?_eq_some_iff.mp hparameter
  have hposition : position < constructor.pair.implementation.encoding.parameters := hcount ▸ hlt
  have hindex := FlagEncoding.div_lt_wordCount hposition
  obtain ⟨flag, hflag⟩ : ∃ flag,
      constructor.pair.implementation.flags[position / wordBits]? = some flag := by
    rw [hflags]
    exact ⟨_, List.getElem?_eq_getElem (by rwa [FlagEncoding.length_flagNames])⟩
  obtain ⟨word, hword⟩ : ∃ word, (constructor.pair.implementation.encoding.encode
      targets)[position / wordBits]? = some word :=
    ⟨_, List.getElem?_eq_getElem (by rwa [FlagEncoding.length_encode])⟩
  have hslots : (fill argumentFor constructor.pair.implementation.parameters 0
      (targets.zip values)).length =
        (constructor.pair.implementation.parameters.map (·.name)).length := by
    rw [length_fill, List.length_map]
  simp only [FlagEncoding.locate, hflag, Option.getD_some]
  refine @Assignment.run_eq α _ _ word _ ?_ ?_ ?_ record
  · refine Frame.word?_of hnames hslots (fun other hmem => ?_) hflag hword
    exact withoutRaw_flagName (hflags ▸ hmem)
  · rw [Frame.value?_of hnames hslots (by rw [List.getElem?_map, hparameter]; rfl),
      getElem?_fill hparameter]
  · rw [FlagEncoding.and_mask_eq_zero_iff (Nat.mod_lt _ (by decide)),
      ← FlagEncoding.isSupplied_eq hword, isSupplied_encode_iff hlength hposition]

end EntityTables.Generated
