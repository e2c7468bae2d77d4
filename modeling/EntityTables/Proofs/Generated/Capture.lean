import EntityTables.Proofs.Generated.Scanning

/-!
# Names in an implementation

The names in the implementation of a constructor come from three sources: properties name its
parameters, a numbering names its words of flags, and its body makes a local for the record. They
stay apart if no property has a name of the other two sources. Nothing keeps properties from such
names: one named like a word of flags is a parameter of the same name, and one named like the local
is hidden by it.
-/

namespace EntityTables.Generated

open EntityTables.Syntax EntityTables.Schema EntityTables.Call

/-- The names of the parameters of a function, as its item declares them. -/
def parameterNames : Node → List String
  | .phrase .fnItem [_, _, signature, _] =>
    ((Signature.ofNode? signature).map fun own => own.parameters.map (·.name)).getD []
  | _ => []

/-- Whatever is passed to an implementation, each of its assignments reads the value that was passed
for its own parameter, and the word that was passed for its flags. -/
def Constructor.ReadsOwn (α : Type) (constructor : Constructor) : Prop :=
  let implementation := constructor.pair.implementation
  ∀ (values : List (Value α)) (words : List UInt32),
    values.length = implementation.parameters.length → words.length = implementation.flags.length →
      let names := implementation.parameters.map (·.name)
      let frame := Frame.of names values implementation.flags words
      ∀ (position : Nat) (assignment : Assignment),
        constructor.assignments[position]? = some assignment →
          frame.value? assignment.parameter.name = values[position]? ∧
            frame.word? assignment.flag = words[position / wordBits]?

/-! ### What a frame hides -/

/-- Look-up finds a name in the first part of the names that has it. -/
theorem exists_lookup_zip_append {β : Type} {keys others : List String} {values rest : List β}
    (hlength : values.length = keys.length) {key : String} (hmem : key ∈ keys) :
    ∃ value ∈ values, ((keys ++ others).zip (values ++ rest)).lookup key = some value := by
  induction keys generalizing values with
  | nil => cases hmem
  | cons first keys ih =>
      obtain ⟨value, values, rfl⟩ := List.exists_cons_of_length_eq_add_one hlength
      rw [List.cons_append, List.cons_append, List.zip_cons_cons, List.lookup_cons]
      by_cases hsame : key = first
      · exact ⟨value, List.mem_cons_self, by simp [hsame]⟩
      · obtain ⟨found, hfound, hlookup⟩ :=
          ih (Nat.succ.inj hlength) ((List.mem_cons.mp hmem).resolve_left hsame)
        rw [beq_false_of_ne hsame]
        exact ⟨found, List.mem_cons_of_mem _ hfound, hlookup⟩

namespace Frame

variable {α : Type} {names flags : List String} {values : List (Value α)} {words : List UInt32}
  {name : String}

/-- The local of the record hides a parameter of its name. -/
theorem value?_of_recordVariable (hname : withoutRaw name = recordVariable) :
    (Frame.of names values flags words).value? name = none := by
  simp [value?, held?, hname]

/-- A parameter hides a word of its name. -/
theorem word?_of_mem (hlength : values.length = names.length)
    (hname : withoutRaw name ∈ names.map withoutRaw) :
    (Frame.of names values flags words).word? name = none := by
  obtain ⟨held, hheld, hlookup⟩ :=
    @exists_lookup_zip_append _ (names.map withoutRaw) flags (values.map Variable.value)
      (words.map Variable.word) (by simp [hlength]) _ hname
  obtain ⟨value, -, rfl⟩ := List.mem_map.mp hheld
  rw [word?, held?, Frame.of, hlookup]
  split <;> simp_all

end Frame

/-! ### Assignments -/

theorem getElem?_assignmentsOf (pair : Pair) (position : Nat) :
    (assignmentsOf pair)[position]? = pair.implementation.parameters[position]?.map
      fun parameter => ⟨parameter, pair.implementation.flags[position / wordBits]?.getD "",
        FlagEncoding.mask (position % wordBits)⟩ := by
  rw [assignmentsOf, List.getElem?_map, List.getElem?_zipIdx, Option.map_map]
  simp [FlagEncoding.locate, Function.comp_def]

section Names

variable {table : Table} {container : String} {constructor : Constructor}

theorem withoutRaw_of_mem_flags (hok : Constructor.of table container = .ok constructor)
    {flag : String} (hflag : flag ∈ constructor.pair.implementation.flags) :
    withoutRaw flag = flag :=
  withoutRaw_flagName ((derive?_eq_some (of_eq_ok hok).1).2.2.2 ▸ hflag)

/-- Every word of an implementation is read by the assignment of its lowest bit. -/
theorem exists_assignment_of_flag (hok : Constructor.of table container = .ok constructor)
    {place : Nat} {flag : String}
    (hflag : constructor.pair.implementation.flags[place]? = some flag) :
    ∃ assignment : Assignment, constructor.assignments[place * wordBits]? = some assignment ∧
      assignment.flag = flag := by
  obtain ⟨hpair, hassignments⟩ := of_eq_ok hok
  obtain ⟨-, hparameters, hencoding, hflags⟩ := derive?_eq_some hpair
  have hplace : place < constructor.pair.implementation.encoding.wordCount := by
    rw [← FlagEncoding.length_flagNames, ← hflags]
    exact (List.getElem?_eq_some_iff.mp hflag).1
  have hposition : place * wordBits < constructor.pair.implementation.parameters.length := by
    rw [hencoding] at hplace
    rw [hparameters, List.length_map]
    simp only [FlagEncoding.wordCount, wordBits] at hplace ⊢
    omega
  have hassignment := getElem?_assignmentsOf constructor.pair (place * wordBits)
  rw [← hassignments, List.getElem?_eq_getElem hposition, Nat.mul_div_cancel _ (by decide), hflag]
    at hassignment
  exact ⟨_, hassignment, rfl⟩

/-! ### Names that meet -/

theorem map_name_parameter? {β : Type} {items : List β} {name : β → String} {type : β → Node}
    (hread : ∀ item ∈ items,
      (Signature.parameter? (Signature.inputOf (name item) (type item))).isSome) :
    ((items.map fun item => Signature.inputOf (name item) (type item)).filterMap
      Signature.parameter?).map (·.name) = items.map name := by
  induction items with
  | nil => rfl
  | cons item rest ih =>
      obtain ⟨parameter, hparameter⟩ := Option.isSome_iff_exists.mp (hread item List.mem_cons_self)
      have hrest := ih fun other hmem => hread other (List.mem_cons_of_mem item hmem)
      rw [List.map_cons, List.filterMap_cons_some hparameter, List.map_cons, hrest, List.map_cons,
        parameter?_inputOf hparameter]

/-- An implementation declares its parameters and then its words. -/
theorem parameterNames_implementationItem (hok : Constructor.of table container = .ok constructor) :
    parameterNames constructor.implementationItem =
      constructor.pair.implementation.parameters.map (·.name) ++
        constructor.pair.implementation.flags := by
  have hread := fun input hmem => @isSome_parameter?_of_mem_inputs table container constructor hok
    input hmem
  simp only [Constructor.implementationSignature, List.forall_mem_append, List.forall_mem_map]
    at hread
  have hitem : parameterNames constructor.implementationItem =
      ((Signature.ofNode? constructor.implementationSignature.toNode).map fun own =>
        own.parameters.map (·.name)).getD [] := rfl
  rw [hitem, ofNode?_implementationSignature hok, Option.map_some, Option.getD_some,
    Signature.parameters, Constructor.implementationSignature, List.filterMap_append,
    List.map_append, map_name_parameter? hread.1, map_name_parameter? hread.2, List.map_id']

/-- A property is a parameter, unless its name is one that no parameter has. -/
theorem mem_names_of_mem_properties (hok : Constructor.of table container = .ok constructor)
    {name : String} (hmem : name ∈ table.columns.map fun column => withoutRaw column.property)
    (href : name ≠ "ref") (hmut : name ≠ "mut") :
    name ∈ (constructor.pair.implementation.parameters.map (·.name)).map withoutRaw := by
  obtain ⟨column, hcolumn, rfl⟩ := List.mem_map.mp hmem
  have hbound : Signature.boundName? (.phrase .identPat [.ident column.property]) =
      some column.property := by
    refine boundName?_of_ne (fun heq => href ?_) fun heq => hmut ?_
    all_goals
      rw [heq]
      decide
  refine List.mem_map_of_mem ?_
  rw [(parameters_name hok).2]
  refine List.mem_map.mpr ⟨⟨column.property, column.storedType⟩, List.mem_filterMap.mpr
    ⟨_, List.mem_map_of_mem hcolumn, parameter?_inputOf_of_bound _ hbound⟩, rfl⟩

theorem flag_mem_names_iff (hok : Constructor.of table container = .ok constructor) {flag : String}
    (hflag : flag ∈ constructor.pair.implementation.flags) :
    flag ∈ (constructor.pair.implementation.parameters.map (·.name)).map withoutRaw ↔
      flag ∈ table.columns.map fun column => withoutRaw column.property := by
  rw [(derive?_eq_some (of_eq_ok hok).1).2.2.2] at hflag
  exact ⟨(names_sublist hok).mem, fun hmem => mem_names_of_mem_properties hok hmem
    (ne_of_mem_flagNames hflag (by decide)) (ne_of_mem_flagNames hflag (by decide))⟩

theorem nodup_parameterNames_iff (hok : Constructor.of table container = .ok constructor)
    (hdistinct : (table.columns.map fun column => withoutRaw column.property).Nodup) :
    ((parameterNames constructor.implementationItem).map withoutRaw).Nodup ↔
      ∀ flag ∈ constructor.pair.implementation.flags,
        flag ∉ table.columns.map fun column => withoutRaw column.property := by
  obtain ⟨-, -, -, hflags⟩ := derive?_eq_some (of_eq_ok hok).1
  have hplain : constructor.pair.implementation.flags.map withoutRaw =
      constructor.pair.implementation.flags :=
    (List.map_congr_left fun flag => withoutRaw_of_mem_flags hok).trans (List.map_id _)
  have hnodup : constructor.pair.implementation.flags.Nodup :=
    hflags ▸ FlagEncoding.nodup_flagNames
  rw [parameterNames_implementationItem hok, List.map_append, hplain, List.nodup_append]
  constructor
  · rintro ⟨-, -, hne⟩ flag hflag hmem
    exact hne flag ((flag_mem_names_iff hok hflag).mpr hmem) flag hflag rfl
  · intro hapart
    refine ⟨hdistinct.sublist (names_sublist hok), hnodup, fun name hname flag hflag heq => ?_⟩
    subst heq
    exact hapart name hflag ((flag_mem_names_iff hok hflag).mp hname)

/-! ### What the assignments read -/

theorem PropertiesApart.readsOwn (hok : Constructor.of table container = .ok constructor)
    (hapart : PropertiesApart table constructor.pair.implementation.flags) (α : Type) :
    constructor.ReadsOwn α := by
  intro values words hvalues hwords names frame position assignment hassignment
  obtain ⟨hpair, hassignments⟩ := of_eq_ok hok
  obtain ⟨-, hparameters, hencoding, hflags⟩ := derive?_eq_some hpair
  rw [hassignments, getElem?_assignmentsOf] at hassignment
  obtain ⟨parameter, hparameter, rfl⟩ := Option.map_eq_some_iff.mp hassignment
  obtain ⟨hposition, -⟩ := List.getElem?_eq_some_iff.mp hparameter
  have hplace : position / wordBits < constructor.pair.implementation.flags.length := by
    rw [hflags, FlagEncoding.length_flagNames]
    refine FlagEncoding.div_lt_wordCount ?_
    rwa [hencoding, ← List.length_map ImplementationParameter.of, ← hparameters]
  have hflag := List.getElem?_eq_getElem hplace
  have hword := List.getElem?_eq_getElem (hwords ▸ hplace)
  have hnames := hapart.nodup_variableNames hok
  have hlength : values.length =
      (constructor.pair.implementation.parameters.map (·.name)).length := by
    rwa [List.length_map]
  refine ⟨Frame.value?_of hnames hlength (by rw [List.getElem?_map, hparameter]; rfl), ?_⟩
  simp only [hflag, Option.getD_some, hword]
  exact Frame.word?_of hnames hlength (fun flag => withoutRaw_of_mem_flags hok) hflag hword

theorem Constructor.ReadsOwn.propertiesApart {α : Type}
    (hok : Constructor.of table container = .ok constructor) (hreads : constructor.ReadsOwn α)
    (hdistinct : (table.columns.map fun column => withoutRaw column.property).Nodup) :
    PropertiesApart table constructor.pair.implementation.flags := by
  obtain ⟨-, hassignments⟩ := of_eq_ok hok
  -- A frame of absent values and empty words shows both: a hidden variable reads as nothing at all.
  let values : List (Value α) :=
    List.replicate constructor.pair.implementation.parameters.length .absent
  let words : List UInt32 := List.replicate constructor.pair.implementation.flags.length 0
  have hlength : values.length = constructor.pair.implementation.parameters.length :=
    List.length_replicate
  have hown := hreads values words hlength List.length_replicate
  refine ⟨hdistinct, fun hmem => ?_, fun flag hflag hmem => ?_⟩
  -- The assignment of the parameter that is named like the local reads no value.
  · have hname := mem_names_of_mem_properties hok hmem (by decide) (by decide)
    rw [List.map_map] at hname
    obtain ⟨parameter, hparameter, hrecord⟩ := List.mem_map.mp hname
    obtain ⟨position, hposition, rfl⟩ := List.mem_iff_getElem.mp hparameter
    have hvalue := (hown position _ (by
      rw [hassignments, getElem?_assignmentsOf, List.getElem?_eq_getElem hposition]
      rfl)).1
    rw [Frame.value?_of_recordVariable hrecord, List.getElem?_eq_getElem (by rwa [hlength])]
      at hvalue
    cases hvalue
  -- Parameters stand in front of the words, so an assignment of this word finds no word.
  · obtain ⟨place, hplace, rfl⟩ := List.mem_iff_getElem.mp hflag
    obtain ⟨assignment, hassignment, hreadsFlag⟩ :=
      exists_assignment_of_flag hok (List.getElem?_eq_getElem hplace)
    have hword := (hown _ _ hassignment).2
    have hname := (flag_mem_names_iff hok hflag).mpr hmem
    rw [hreadsFlag, Frame.word?_of_mem (by simpa using hlength)
        (by rwa [withoutRaw_of_mem_flags hok hflag]),
      Nat.mul_div_cancel _ (by decide), List.getElem?_eq_getElem (by simpa [words] using hplace)]
      at hword
    cases hword

end Names

/-- **Captured names.** The code generated for an interface holds the implementation of its
constructor, which declares a name for each parameter and then one for each word of flags. If the
names of the properties differ from each other, all these names differ if and only if no property is
named like a word of flags; and every assignment reads the parameter and the word that belong to it
if and only if moreover no property is named like the local of the record. -/
theorem implementation_captures_iff {unit : SourceUnit} {config : Config} {container : String}
    {table : Table} {code : TableCode} (hcode : TableCode.of unit config container table = .ok code)
    (hinterface : table.kind = .interface)
    (hdistinct : (table.columns.map fun column => withoutRaw column.property).Nodup) (α : Type) :
    ∃ constructor, Constructor.of table container = .ok constructor ∧
      constructor.implementationItem ∈ code.items ∧
      parameterNames constructor.implementationItem =
        constructor.pair.implementation.parameters.map (·.name) ++
          constructor.pair.implementation.flags ∧
      (((parameterNames constructor.implementationItem).map withoutRaw).Nodup ↔
        ∀ flag ∈ constructor.pair.implementation.flags,
          flag ∉ table.columns.map fun column => withoutRaw column.property) ∧
      (constructor.ReadsOwn α ↔
        PropertiesApart table constructor.pair.implementation.flags) := by
  obtain ⟨tableType, -, hcode⟩ := bind_eq_ok_iff.mp hcode
  obtain ⟨sequence, -, hcode⟩ := bind_eq_ok_iff.mp hcode
  obtain ⟨entity, hentity, hcode⟩ := bind_eq_ok_iff.mp hcode
  cases hcode
  rw [EntityCode.of, hinterface] at hentity
  obtain ⟨type, -, hentity⟩ := bind_eq_ok_iff.mp hentity
  obtain ⟨constructor, hok, hentity⟩ := bind_eq_ok_iff.mp hentity
  cases hentity
  refine ⟨constructor, hok, ?_, parameterNames_implementationItem hok,
    nodup_parameterNames_iff hok hdistinct,
    fun hreads => hreads.propertiesApart hok hdistinct, fun hapart => hapart.readsOwn hok α⟩
  simp [TableCode.items, EntityCode.items]

section Instances

theorem implementation_captures_iff_member : ∃ code,
    TableCode.of memberUnit (.merge .none none) "crate" memberTable = .ok code ∧
      memberConstructor.implementationItem ∈ code.items ∧
      parameterNames memberConstructor.implementationItem = ["id", "name", "mentor", "flag"] ∧
      ((parameterNames memberConstructor.implementationItem).map withoutRaw).Nodup ∧
      memberConstructor.ReadsOwn String := by
  have hgenerated : (TableCode.of memberUnit (.merge .none none) "crate" memberTable).toOption.map
      (fun _ => ()) = some () := by decide +kernel
  obtain ⟨code, hcode, -⟩ := exists_ok_of_toOption hgenerated
  obtain ⟨constructor, hok, hitem, hnames, hnodup, hreads⟩ :=
    implementation_captures_iff hcode rfl (by decide) String
  obtain rfl : memberConstructor = constructor := Except.ok.inj hok
  exact ⟨code, hcode, hitem, hnames, hnodup.mpr (by decide),
    hreads.mpr ⟨by decide, by decide, by decide⟩⟩

/-- Athletes start under a flag and hold a record. -/
def athleteText : String :=
  "#[table] pub trait Athlete: Entity " ++
    "{ #[primary_key] fn id(&self) -> i32; fn flag(&self) -> i32; fn record(&self) -> i32; }"

/-- The table of athletes, with its constructor. -/
def athleteCode : Except Error (Table × Constructor) := do
  let unit ← SourceUnit.empty.addTexts [("crate", athleteText)]
  let resolver ← Resolver.create unit .none .empty
  let table ← ((resolveTable resolver ⟨"crate::Athlete"⟩).run .empty).1
  return (table, ← Constructor.of table "crate::generated")

/-- Properties may be named like the word of flags and like the local of the record: then two
parameters have one name, and an assignment does not read what was passed for its parameter. -/
theorem implementation_captures_athlete : ∃ unit resolver table constructor,
    SourceUnit.empty.addTexts [("crate", athleteText)] = .ok unit ∧
      Resolver.create unit .none .empty = .ok resolver ∧
      ((resolveTable resolver ⟨"crate::Athlete"⟩).run .empty).1 = .ok table ∧
      table.kind = .interface ∧
      (table.columns.map fun column => withoutRaw column.property) = ["id", "flag", "record"] ∧
      Constructor.of table "crate::generated" = .ok constructor ∧
      parameterNames constructor.implementationItem = ["id", "flag", "record", "flag"] ∧
      ¬constructor.ReadsOwn String := by
  have hcode : athleteCode.toOption.map (fun code => (code.1.kind,
      (code.1.columns.map fun column => withoutRaw column.property),
      parameterNames code.2.implementationItem)) =
        some (.interface, ["id", "flag", "record"], ["id", "flag", "record", "flag"]) := by
    decide +kernel
  obtain ⟨⟨table, constructor⟩, hok, hparts⟩ := exists_ok_of_toOption hcode
  simp only [Prod.mk.injEq] at hparts
  obtain ⟨hkind, hproperties, hnames⟩ := hparts
  simp only [athleteCode, bind_eq_ok_iff] at hok
  obtain ⟨unit, hunit, resolver, hcreate, _, htable, _, hconstructor, hpure⟩ := hok
  cases hpure
  refine ⟨unit, resolver, table, constructor, hunit, hcreate, htable, hkind, hproperties,
    hconstructor, hnames, fun hreads => ?_⟩
  have hdistinct : (table.columns.map fun column => withoutRaw column.property).Nodup := by
    rw [hproperties]
    decide
  refine (hreads.propertiesApart hconstructor hdistinct).notRecord ?_
  rw [hproperties]
  decide

end Instances

end EntityTables.Generated
