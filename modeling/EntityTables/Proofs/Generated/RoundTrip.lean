import EntityTables.Proofs.Generated.Converting

/-!
# Structs and their records

The code that is generated for a struct, when it runs: a value of the struct moves its columns into
a record, and a record gives a value back unless a column is missing in it.
-/

namespace EntityTables.Generated

open EntityTables.Syntax EntityTables.Schema

variable {α : Type}

/-! ### Values of a struct in running code -/

/-- A value of a struct in running code: one value for each of its fields, in any order, and of the
type that the field is declared with. -/
def IsStructOf (declaration : Declaration) (fields : TypedFields α) : Prop :=
  (fields.map fun field => (field.1, field.2.type)).Perm
    (declaration.properties.map fun field => (field.name, field.type))

section Values

variable {declaration : Declaration} {fields : TypedFields α} {field : Property}

theorem IsStructOf.isValueOf (hstruct : IsStructOf declaration fields) :
    IsValueOf declaration fields.values := by
  have hnames := List.Perm.map Prod.fst hstruct
  rw [List.map_map, List.map_map] at hnames
  rw [IsValueOf, TypedFields.values, List.map_map]
  exact hnames

/-- A field has the type that it is declared with. -/
theorem IsStructOf.lookup_eq (hstruct : IsStructOf declaration fields)
    (hnames : (declaration.properties.map (·.name)).Nodup)
    (hfield : field ∈ declaration.properties) :
    fields.lookup field.name = (fields.values.lookup field.name).map (Typed.mk field.type) := by
  rw [TypedFields.lookup_values]
  cases hlookup : fields.lookup field.name with
  | none => rfl
  | some typed =>
      have hmem : (field.name, typed) ∈ fields := by
        obtain ⟨front, rest, hfields, -⟩ := List.lookup_eq_some_iff.mp hlookup
        exact hfields ▸ List.mem_append_right _ List.mem_cons_self
      have hdeclared := hstruct.mem_iff.mp
        (List.mem_map_of_mem (f := fun field => (field.1, field.2.type)) hmem)
      obtain ⟨other, hother, heq⟩ := List.mem_map.mp hdeclared
      obtain ⟨hname, htype⟩ := Prod.mk.injEq _ _ _ _ ▸ heq
      rw [List.inj_on_of_nodup_map hnames hother hfield hname] at htype
      rw [Option.map_some, Option.map_some, htype]

theorem IsStructOf.exists_lookup (hstruct : IsStructOf declaration fields)
    (hnames : (declaration.properties.map (·.name)).Nodup)
    (hfield : field ∈ declaration.properties) :
    ∃ value, fields.lookup field.name = some ⟨field.type, value⟩ := by
  obtain ⟨value, hvalue⟩ := hstruct.isValueOf.exists_lookup hfield
  exact ⟨value, by rw [hstruct.lookup_eq hnames hfield, hvalue]; rfl⟩

end Values

/-! ### Fields that are taken -/

/-- Fields are taken with their values as they are without their types. -/
theorem values_takeTyped (record : Properties α) (moved : List MovedField) :
    (takeTyped record moved).map TypedFields.values = takeFields record moved := by
  induction moved generalizing record with
  | nil => rfl
  | cons field rest ih =>
      rw [takeTyped, takeFields]
      cases record.take field.type field.name with
      | mk value left =>
          cases value with
          | none => rfl
          | some value =>
              dsimp only
              rw [← ih left, Option.map_map, Option.map_map]
              rfl

/-- Fields are taken in the types that they are declared with. -/
theorem types_of_takeTyped {moved : List MovedField} {record : Properties α}
    {taken : TypedFields α} (htaken : takeTyped record moved = some taken) :
    taken.map (fun field => (field.1, field.2.type)) =
      moved.map fun field => (field.name, field.type) := by
  induction moved generalizing record taken with
  | nil =>
      cases htaken
      rfl
  | cons field rest ih =>
      rw [takeTyped] at htaken
      cases htake : record.take field.type field.name with
      | mk value left =>
          rw [htake] at htaken
          cases value with
          | none => cases htaken
          | some value =>
              obtain ⟨others, hothers, rfl⟩ := Option.map_eq_some_iff.mp htaken
              rw [List.map_cons, List.map_cons, ih hothers]

/-! ### The program of a struct -/

/-- Whether a type has a function of a name of its own. -/
def Program.declares (program : Program α) (type : Node) (name : String) : Prop :=
  (functionNamed? (ownMembers program.items type) name).isSome

section Program

variable {generated : Program α} {conversion : Conversion} {tableName : String}

theorem ownMembers_conversion
    (hitems : generated.items = (EntityCode.conversion (some conversion)).items) :
    ownMembers generated.items (namedType conversion.entity) = conversion.members := by
  rw [hitems]
  simp [ownMembers, EntityCode.items, Conversion.code, ownImpl, implItemOf, braces]

theorem tableMembers?_conversion
    (hitems : generated.items = (EntityCode.conversion (some conversion)).items) (self : Node) :
    tableMembers? generated.items self = none := by
  rw [hitems]
  simp [tableMembers?, EntityCode.items, Conversion.code, ownImpl, implItemOf, braces]

theorem Conversion.functions_members (conversion : Conversion) :
    conversion.members.filterMap functionOf? =
      conversion.intoFunction :: (conversion.defaulted.map conversion.fromFunction).toList := by
  rw [members, List.filterMap_cons_some conversion.functionOf?_intoCode]
  cases conversion.defaulted <;> rfl

theorem functionNamed?_into (conversion : Conversion) :
    functionNamed? conversion.members "into_record" = some conversion.intoFunction := by
  rw [functionNamed?, Conversion.functions_members]
  rfl

theorem functionNamed?_from (conversion : Conversion) :
    functionNamed? conversion.members "from_record" =
      conversion.defaulted.map conversion.fromFunction := by
  rw [functionNamed?, Conversion.functions_members]
  cases conversion.defaulted <;> rfl

theorem declares_from_iff
    (hitems : generated.items = (EntityCode.conversion (some conversion)).items) :
    generated.declares (namedType conversion.entity) "from_record" ↔
      conversion.defaulted.isSome := by
  rw [Program.declares, ownMembers_conversion hitems, functionNamed?_from, Option.isSome_map]

theorem call_into (hitems : generated.items = (EntityCode.conversion (some conversion)).items)
    (hplain : conversion.tableType ≠ "Self")
    (hnamed : generated.constant (namedType conversion.tableType) "TABLE_NAME" =
      some (.text tableName)) {fields : TypedFields α}
    (hgiven : ∀ field ∈ conversion.moved,
      ∃ value, fields.lookup field.name = some ⟨field.type, value⟩) (depth : Nat) :
    generated.call? (depth + 2) (.own (namedType conversion.entity) "into_record")
        [.object (namedType conversion.entity) fields] =
      (conversion.intoRecord tableName fields.values).map .bag := by
  have hconstant : generated.call? (depth + 1)
      (.table (namedType conversion.tableType) "TABLE_NAME") [] = some (.text tableName) := by
    rw [Program.call?, Program.tableMember?, tableMembers?_conversion hitems]
    exact hnamed
  rw [Program.call?, ownMembers_conversion hitems, functionNamed?_into, Option.bind_some]
  exact Conversion.run_intoFunction hplain hconstant hgiven

theorem call_from (hitems : generated.items = (EntityCode.conversion (some conversion)).items)
    {defaulted : List String} (hdefaulted : conversion.defaulted = some defaulted) (depth : Nat)
    (record : Properties α) :
    generated.call? (depth + 1) (.own (namedType conversion.entity) "from_record") [.bag record] =
      some ((takeTyped record conversion.moved).elim .nothing fun taken =>
        .something (.object (namedType conversion.entity)
          (taken ++ defaulted.map fun name => (name, generated.fill name)))) := by
  rw [Program.call?, ownMembers_conversion hitems, functionNamed?_from, hdefaulted,
    Option.map_some, Option.bind_some]
  exact Conversion.run_fromFunction defaulted record

/-- A record gives a struct where all that moves is taken from it, and nothing otherwise. -/
theorem call_from_cases
    (hitems : generated.items = (EntityCode.conversion (some conversion)).items)
    {defaulted : List String} (hdefaulted : conversion.defaulted = some defaulted) (depth : Nat)
    (record : Properties α) :
    let result := generated.call? (depth + 1) (.own (namedType conversion.entity) "from_record")
      [.bag record]
    let rebuilt := conversion.fromRecord? (fun name => (generated.fill name).value) record
    (result = some .nothing ∧ rebuilt = none) ∨
      ∃ taken, takeTyped record conversion.moved = some taken ∧
        let back := taken ++ defaulted.map fun name => (name, generated.fill name)
        result = some (.something (.object (namedType conversion.entity) back)) ∧
          rebuilt = some (TypedFields.values back) := by
  have hvalues := values_takeTyped record conversion.moved
  rw [call_from hitems hdefaulted, Conversion.fromRecord?, hdefaulted, ← hvalues]
  cases takeTyped record conversion.moved with
  | none => exact Or.inl ⟨rfl, rfl⟩
  | some taken =>
      refine Or.inr ⟨taken, rfl, rfl, ?_⟩
      simp [TypedFields.values, Function.comp_def]

/-- What is taken from a record makes a struct, with defaults in the other fields. -/
theorem isStructOf_of_taken {table : Table} {declaration : Declaration} {allowReflection : Bool}
    (hok : Conversion.of table declaration allowReflection = .ok conversion)
    {defaulted : List String} (hdefaulted : conversion.defaulted = some defaulted)
    {fill : String → Typed Node (Value α)}
    (hfill : ∀ field ∈ declaration.properties, (fill field.name).type = field.type)
    {record : Properties α} {taken : TypedFields α}
    (htaken : takeTyped record conversion.moved = some taken) :
    IsStructOf declaration (taken ++ defaulted.map fun name => (name, fill name)) := by
  obtain ⟨hmoved, hothers⟩ := conversion_eq_ok hok
  have hnames : defaulted =
      (declaration.properties.filter (¬IsColumnField table ·)).map (·.name) := by
    rw [hdefaulted] at hothers
    split at hothers
    · exact Option.some.inj hothers
    · cases hothers
  have hfilled : (defaulted.map fun name => (name, (fill name).type)) =
      (declaration.properties.filter (¬IsColumnField table ·)).map
        fun field => (field.name, field.type) := by
    rw [hnames, List.map_map]
    refine List.map_congr_left fun field hmem => ?_
    rw [Function.comp_apply, hfill field (List.mem_of_mem_filter hmem)]
  have hsplit := (List.filter_append_perm (IsColumnField table) declaration.properties).map
    fun field => (field.name, field.type)
  rw [List.map_append] at hsplit
  rw [IsStructOf, List.map_append, types_of_takeTyped htaken, List.map_map, hmoved, List.map_map]
  refine List.Perm.trans (.of_eq ?_) hsplit
  refine congrArg _ (hfilled.trans ?_)
  simp

end Program

/-- **Structs and records.** The code that is generated for a resolved struct, which comes from texts
and has fields of different names, treats the eligible fields as columns. It declares `from_record`
if and only if reflection is allowed or every other field has a marker type. When it runs, a value of
the struct moves exactly its columns into a record, each under its name and with its type. The record
that a value was moved into gives the value back, with defaults in the other fields, and any record
gives nothing if and only if a column is missing or has another type. -/
theorem struct_roundTrip {texts : List (String × String)} {resolver : Resolver}
    (hunit : SourceUnit.empty.addTexts texts = .ok resolver.unit) {key : Key} {table : Table}
    (hresolved : ((resolveTable resolver key).run .empty).1 = .ok table)
    (hstruct : table.kind = .struct) {declaration : Declaration}
    (hdeclared : resolver.unit.get? key = some declaration)
    (hnames : (declaration.properties.map (·.name)).Nodup) {config : Config} {container : String}
    {entity : EntityCode}
    (hcode : EntityCode.of resolver.unit config container table = .ok entity)
    {generated : Program α} (hitems : generated.items = entity.items) {tableType tableName : String}
    (htype : identifier table table.typeName = .ok tableType)
    (hnamed : generated.constant (namedType tableType) "TABLE_NAME" = some (.text tableName))
    (hfill : ∀ field ∈ declaration.properties, (generated.fill field.name).type = field.type) :
    let type := namedType table.entity
    (∀ field ∈ declaration.properties, IsColumnField table field ↔ field.Eligible declaration) ∧
      (generated.declares type "from_record" ↔ config.allowReflection = true ∨
        ∀ field ∈ declaration.properties,
          IsColumnField table field ∨ Property.isPhantom field.type = true) ∧
      (∀ (depth : Nat) (fields : TypedFields α), IsStructOf declaration fields → ∃ record,
        generated.call? (depth + 2) (.own type "into_record") [.object type fields] =
            some (.bag record) ∧
          record.table = tableName ∧
          (∀ property, record.contains property = true ↔
            ∃ field ∈ declaration.properties, IsColumnField table field ∧ field.name = property) ∧
          (∀ field ∈ declaration.properties, IsColumnField table field →
            ∃ value, fields.lookup field.name = some ⟨field.type, value⟩ ∧
              record.typed? field.name = some ⟨field.type, value⟩) ∧
          (generated.declares type "from_record" → ∃ back,
            generated.call? (depth + 2) (.own type "from_record") [.bag record] =
                some (.something (.object type back)) ∧
              IsStructOf declaration back ∧
              ∀ field ∈ declaration.properties, back.lookup field.name =
                if IsColumnField table field then fields.lookup field.name
                else some (generated.fill field.name))) ∧
      (generated.declares type "from_record" → ∀ (depth : Nat) (record : Properties α),
        let result := generated.call? (depth + 2) (.own type "from_record") [.bag record]
        (result = some .nothing ↔ ∃ field ∈ declaration.properties, IsColumnField table field ∧
            ∀ value, record.typed? field.name ≠ some ⟨field.type, value⟩) ∧
          (result = some .nothing ∨ ∃ back, result = some (.something (.object type back)) ∧
            IsStructOf declaration back)) := by
  rw [resolveTable_empty] at hresolved
  obtain ⟨own, rfl, hown⟩ := entityCode_struct hstruct hcode
  rw [key_of_rebuild hresolved, hdeclared] at hown
  obtain ⟨conversion, hok, hown⟩ := bind_eq_ok_iff.mp hown
  cases hown
  obtain ⟨hentity, hown⟩ : conversion.entity = table.entity ∧ conversion.tableType = tableType := by
    obtain ⟨other, hother, hmade⟩ := bind_eq_ok_iff.mp hok
    cases hmade
    exact ⟨rfl, Except.ok.inj (hother.symm.trans htype)⟩
  have hmem := List.mem_of_find?_eq_some hdeclared
  have hdeclares := declares_from_iff hitems
  rw [hentity] at hdeclares
  intro type
  refine ⟨fun field hfield => isColumnField_iff_eligible hresolved hdeclared hnames hfield, ?_,
    fun depth fields hvalue => ?_, fun hfrom depth record => ?_⟩
  · rw [hdeclares, (conversion_eq_ok hok).2, Option.isSome_ite]
    refine or_congr_right (forall₂_congr fun field hfield => or_congr_right ?_)
    rw [SourceUnit.backed_eq_of_addTexts hunit hmem hfield, Bool.not_eq_false']
  · obtain ⟨record, hrecord, htable, hcontains, htyped⟩ :=
      exists_intoRecord hok hnames hvalue.isValueOf tableName
    have hgiven : ∀ field ∈ conversion.moved,
        ∃ value, fields.lookup field.name = some ⟨field.type, value⟩ := by
      intro moved hmoved
      obtain ⟨field, hfield, -, rfl⟩ := (mem_moved_iff hok).mp hmoved
      exact hvalue.exists_lookup hnames hfield
    have hcall := call_into hitems (hown ▸ ne_self_of_identifier htype) (hown ▸ hnamed) hgiven depth
    rw [hentity, hrecord] at hcall
    refine ⟨record, hcall, htable, hcontains, fun field hfield hcolumn => ?_, fun hfrom => ?_⟩
    · obtain ⟨value, hlookup, hset⟩ := htyped field hfield hcolumn
      exact ⟨value, by rw [hvalue.lookup_eq hnames hfield, hlookup]; rfl, hset⟩
    · have hsome := hdeclares.mp hfrom
      obtain ⟨defaulted, hdefaulted⟩ := Option.isSome_iff_exists.mp hsome
      obtain ⟨values, hvalues, -, hlookup⟩ := exists_fromRecord? hok hnames hsome htyped
        fun name => (generated.fill name).value
      rcases call_from_cases hitems hdefaulted (depth + 1) record with
        ⟨-, hnone⟩ | ⟨taken, htaken, hresult, hback⟩
      · cases hnone.symm.trans hvalues
      · obtain rfl := Option.some.inj (hback.symm.trans hvalues)
        rw [hentity] at hresult
        have hisStruct := isStructOf_of_taken hok hdefaulted hfill htaken
        refine ⟨_, hresult, hisStruct, fun field hfield => ?_⟩
        rw [hisStruct.lookup_eq hnames hfield, hlookup field hfield]
        by_cases hcolumn : IsColumnField table field
        · rw [if_pos hcolumn, if_pos hcolumn, hvalue.lookup_eq hnames hfield]
        · rw [if_neg hcolumn, if_neg hcolumn, Option.map_some, ← hfill field hfield]
  · have hsome := hdeclares.mp hfrom
    obtain ⟨defaulted, hdefaulted⟩ := Option.isSome_iff_exists.mp hsome
    have hnone := fromRecord?_eq_none_iff hok hnames hsome
      (fun name => (generated.fill name).value) record
    have hcases := call_from_cases hitems hdefaulted (depth + 1) record
    rw [hentity] at hcases
    rw [← hnone]
    rcases hcases with ⟨hresult, hmissing⟩ | ⟨taken, htaken, hresult, hback⟩
    · exact ⟨iff_of_true hresult hmissing, Or.inl hresult⟩
    · refine ⟨iff_of_false ?_ ?_, Or.inr ⟨_, hresult,
        isStructOf_of_taken hok hdefaulted hfill htaken⟩⟩
      · rw [hresult]
        rintro ⟨⟩
      · rw [hback]
        rintro ⟨⟩

section Instance

/-- Projects have notes, which are no column. -/
def projectText : String :=
  "#[table] pub struct Project \x7b #[primary_key] pub id: i64, pub title: String, " ++
    "#[column(ignore)] pub notes: String, pub marker: PhantomData<u8> \x7d"

/-- The table and the declaration of projects, with the code that is generated for them. -/
def projectCode (options : Options) :
    Except Error (Resolver × Table × Option Declaration × EntityCode) := do
  let unit ← SourceUnit.empty.addTexts [("crate", projectText)]
  let resolver ← Resolver.create unit options .empty
  let table ← ((resolveTable resolver ⟨"crate::Project"⟩).run .empty).1
  let entity ← EntityCode.of resolver.unit resolver.config "crate::generated" table
  return (resolver, table, resolver.unit.get? ⟨"crate::Project"⟩, entity)

/-- The fields of a declaration, and which of them are columns. -/
def columnFields (table : Table) (declaration : Declaration) : List (String × Bool) :=
  declaration.properties.map fun field => (field.name, decide (IsColumnField table field))

theorem exists_field {table : Table} {declaration : Declaration} {name : String} {isColumn : Bool}
    (hmem : (name, isColumn) ∈ columnFields table declaration) :
    ∃ field ∈ declaration.properties, field.name = name ∧
      decide (IsColumnField table field) = isColumn := by
  obtain ⟨field, hfield, heq⟩ := List.mem_map.mp hmem
  cases heq
  exact ⟨field, hfield, rfl, rfl⟩

/-- A field is an empty text by default, of the type that it is declared with. -/
def emptyField (declaration : Declaration) (name : String) : Typed Node (Value String) :=
  ⟨((declaration.properties.find? (·.name == name)).map (·.type)).getD (.empty .inferType),
    .plain ""⟩

/-- Items of projects that run. -/
def projectProgram (declaration : Declaration) (entity : EntityCode) : Program String :=
  { literalProgram "project" entity.items with fill := emptyField declaration }

/-- The fields of a declaration with some values. -/
def fieldsOf (declaration : Declaration) (values : List (Value String)) : TypedFields String :=
  (declaration.properties.zip values).map fun entry => (entry.1.name, ⟨entry.1.type, entry.2⟩)

theorem isStructOf_fieldsOf {declaration : Declaration} {values : List (Value String)}
    (hlength : declaration.properties.length = values.length) :
    IsStructOf declaration (fieldsOf declaration values) := by
  rw [IsStructOf, fieldsOf, List.map_map]
  have hfst : (declaration.properties.zip values).map Prod.fst = declaration.properties :=
    List.map_fst_zip hlength.le
  conv_rhs => rw [← hfst, List.map_map]
  exact .refl _

theorem values_fieldsOf (declaration : Declaration) (values : List (Value String)) :
    (fieldsOf declaration values).values = (declaration.properties.map (·.name)).zip values := by
  rw [TypedFields.values, fieldsOf, List.map_map, List.zip_map_left]
  rfl

def atlasValues : List (Value String) := [.plain "1", .plain "Atlas", .plain "draft", .absent]

/-- A project that went through a record has its title and new notes. -/
theorem struct_roundTrip_project : ∃ unit resolver table declaration entity,
    SourceUnit.empty.addTexts [("crate", projectText)] = .ok unit ∧ resolver.unit = unit ∧
      ((resolveTable resolver ⟨"crate::Project"⟩).run .empty).1 = .ok table ∧
      unit.get? ⟨"crate::Project"⟩ = some declaration ∧
      EntityCode.of unit resolver.config "crate::generated" table = .ok entity ∧
      let generated := projectProgram declaration entity
      let type := namedType table.entity
      ∃ record back, generated.call? 2 (.own type "into_record")
          [.object type (fieldsOf declaration atlasValues)] = some (.bag record) ∧
        record.contains "title" = true ∧
        generated.call? 2 (.own type "from_record") [.bag record] =
          some (.something (.object type back)) ∧
        (back.lookup "title").map (·.value) = some (.plain "Atlas") ∧
        (back.lookup "notes").map (·.value) = some (.plain "") := by
  have hgenerated : (projectCode { Options.none with allowReflection := some true }).toOption.map
      (fun code => (code.2.1.kind, code.2.2.1.map (columnFields code.2.1),
        code.1.config.allowReflection, (identifier code.2.1 code.2.1.typeName).toOption)) =
      some (.struct, some [("id", true), ("title", true), ("notes", false), ("marker", false)],
        true, some "Projects") := by decide +kernel
  obtain ⟨⟨resolver, table, found, entity⟩, hok, hparts⟩ := exists_ok_of_toOption hgenerated
  simp only [Prod.mk.injEq] at hparts
  obtain ⟨hstruct, hfields, hallowed, htyped⟩ := hparts
  obtain ⟨declaration, hfound, hcolumns⟩ := Option.map_eq_some_iff.mp hfields
  obtain ⟨tableType, htype⟩ : ∃ tableType, identifier table table.typeName = .ok tableType := by
    cases hname : identifier table table.typeName with
    | error error => cases hname ▸ htyped
    | ok tableType => exact ⟨tableType, rfl⟩
  simp only [projectCode, bind_eq_ok_iff] at hok
  obtain ⟨unit, hunit, resolver', hcreate, table', htable, entity', hentity, hpure⟩ := hok
  simp only [pure, Except.pure, Except.ok.injEq, Prod.mk.injEq] at hpure
  obtain ⟨rfl, rfl, rfl, rfl⟩ := hpure
  have hsame := unit_of_create hcreate
  have hall : declaration.properties.map (·.name) = ["id", "title", "notes", "marker"] := by
    have hnames := congrArg (List.map Prod.fst) hcolumns
    rw [columnFields, List.map_map] at hnames
    exact hnames
  have hnodup : (declaration.properties.map (·.name)).Nodup := by
    rw [hall]
    decide
  have hfill : ∀ field ∈ declaration.properties,
      (emptyField declaration field.name).type = field.type := by
    intro field hfield
    rw [emptyField, find?_key_of_mem Property.name hnodup hfield]
    rfl
  obtain ⟨-, hdeclares, hmoves, -⟩ :=
    @struct_roundTrip String _ _ (hsame ▸ hunit) _ _ htable hstruct _ hfound hnodup _ _ _ hentity
      (projectProgram declaration entity') rfl _ "project" htype rfl hfill
  have hlength : declaration.properties.length = atlasValues.length := by
    have hlength := congrArg List.length hall
    rwa [List.length_map] at hlength
  have hvalue := isStructOf_fieldsOf hlength
  obtain ⟨record, hinto, -, hcontains, hset, hback⟩ := hmoves 0 _ hvalue
  obtain ⟨back, hfrom, -, hlookup⟩ := hback (hdeclares.mpr (Or.inl hallowed))
  obtain ⟨title, htitle, htitleName, htitleColumn⟩ :=
    exists_field (hcolumns ▸ by decide : ("title", true) ∈ columnFields table' declaration)
  obtain ⟨notes, hnotes, hnotesName, hnotesColumn⟩ :=
    exists_field (hcolumns ▸ by decide : ("notes", false) ∈ columnFields table' declaration)
  have htitleBack := hlookup title htitle
  have hnotesBack := hlookup notes hnotes
  rw [if_pos (of_decide_eq_true htitleColumn), htitleName] at htitleBack
  rw [if_neg (of_decide_eq_false hnotesColumn), hnotesName] at hnotesBack
  refine ⟨unit, resolver', table', declaration, _, hunit, hsame, htable, hsame ▸ hfound,
    hsame ▸ hentity, record, back, hinto, ?_, hfrom, ?_, ?_⟩
  · exact (hcontains "title").mpr ⟨title, htitle, of_decide_eq_true htitleColumn, htitleName⟩
  · rw [htitleBack, ← TypedFields.lookup_values, values_fieldsOf, hall]
    rfl
  · rw [hnotesBack]
    rfl

end Instance

end EntityTables.Generated
