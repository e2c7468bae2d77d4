import EntityTables.Proofs.Generated.Conversions
import EntityTables.Proofs.Generated.KeyHelpers
import EntityTables.Proofs.Generated.Rereading
import EntityTables.Proofs.Schema.Legible

/-!
# Code that can be read

The code generated for a legible unit has only names, types and paths that can be read where they
stand: names are checked when the code is made, or composed so that they are no keywords, and the
types and paths are those of the tables.
-/

namespace EntityTables.Generated

open EntityTables.Syntax EntityTables.Schema EntityTables.Call

/-! ### Names -/

section Names

variable {table : Table} {name own : String}

theorem isName_of_identifier (hok : identifier table own = .ok name) : isName name = true :=
  isName_of_parseName? (eq_of_identifier hok)

theorem isName_append_ending {front ending : String}
    (hending : reservedWords.all (fun word => !ending.toList.isSuffixOf word.toList) = true) :
    isName (front ++ ending) = true := by
  rw [isName, Bool.not_eq_true', List.contains_eq_mem, decide_eq_false_iff_not]
  intro hmem
  have hsuffix := List.all_eq_true.mp hending _ hmem
  rw [Bool.not_eq_true', String.toList_append, ← Bool.not_eq_true, List.isSuffixOf_iff_suffix]
    at hsuffix
  exact hsuffix (List.suffix_append _ _)

theorem isName_front_append {front rest : String}
    (hfront : reservedWords.all (fun word => !front.toList.isPrefixOf word.toList) = true) :
    isName (front ++ rest) = true := by
  rw [isName, Bool.not_eq_true', List.contains_eq_mem, decide_eq_false_iff_not]
  intro hmem
  have hprefix := List.all_eq_true.mp hfront _ hmem
  rw [Bool.not_eq_true', String.toList_append, ← Bool.not_eq_true, List.isPrefixOf_iff_prefix]
    at hprefix
  exact hprefix (List.prefix_append _ _)

theorem isName_recordName (entity : String) : isName (recordName entity) = true :=
  isName_append_ending (by decide)

theorem isName_flag {encoding : FlagEncoding} (hmem : name ∈ encoding.flagNames) :
    isName name = true := by
  obtain ⟨rest, rfl⟩ := FlagEncoding.mem_flagNames hmem
  exact isName_front_append (by decide)

end Names

/-! ### Tables -/

section Tables

variable {table : Table} {column : Column} {accessor : ColumnAccessor} {method : String}

theorem legible_accessor (htable : table.Legible) (hmem : column ∈ table.columns)
    (hmethod : isName method = true) (hok : ColumnAccessor.of column method = .ok accessor) :
    accessor.Legible := by
  obtain ⟨key, hkey, hok⟩ := bind_eq_ok_iff.mp hok
  cases hok
  obtain ⟨hpath, hvalue⟩ := htable.sqlType column hmem
  refine ⟨hmethod, hvalue, hpath, fun own hown => ?_⟩
  obtain rfl : key = some own := hown
  cases hreference : column.reference with
  | none =>
      rw [hreference] at hkey
      cases hkey
  | some reference =>
      rw [hreference, Option.mapM_some] at hkey
      obtain ⟨target, htarget, hkey⟩ := bind_eq_ok_iff.mp hkey
      cases hkey
      obtain ⟨tableType, hname, htarget⟩ := bind_eq_ok_iff.mp htarget
      cases htarget
      exact isName_of_identifier hname

theorem legible_tableType (htable : table.Legible) {type : TableType}
    (hok : TableType.of table = .ok type) : type.Legible := by
  obtain ⟨name, hname, hok⟩ := bind_eq_ok_iff.mp hok
  obtain ⟨methods, hmethods, hok⟩ := bind_eq_ok_iff.mp hok
  obtain ⟨accessors, haccessors, hok⟩ := bind_eq_ok_iff.mp hok
  cases hok
  refine ⟨isName_of_identifier hname, fun accessor hmem => ?_⟩
  obtain ⟨⟨column, method⟩, hpair, hok⟩ := exists_of_mem_mapM_ok haccessors hmem
  obtain ⟨hcolumn, hmethod⟩ := List.of_mem_zip hpair
  obtain ⟨_, -, hidentifier⟩ := exists_of_mem_mapM_ok hmethods hmethod
  exact legible_accessor htable hcolumn (isName_of_identifier hidentifier) hok

theorem legible_sequence {trait : SequenceTrait} (hok : SequenceTrait.of table = .ok trait) :
    trait.Legible := by
  obtain ⟨tableType, htableType, hok⟩ := bind_eq_ok_iff.mp hok
  obtain ⟨method, hmethod, hok⟩ := bind_eq_ok_iff.mp hok
  cases hok
  exact ⟨isName_append_ending (by decide), isName_of_identifier hmethod,
    isName_of_identifier htableType⟩

end Tables

/-! ### Records -/

section Records

variable {resolver : Resolver} {key : Key} {table : Table} {column : Column}

theorem readsType_storedType (htable : table.Legible) (hmem : column ∈ table.columns) :
    ReadsType column.storedType := by
  unfold Column.storedType
  cases hreference : column.reference with
  | none => exact (htable.type hmem hreference).reads
  | some reference =>
      have hrecord := readsType_namedType (isName_recordName reference.table.entity)
      dsimp only
      split
      · exact readsType_optionOf hrecord
      · exact hrecord

theorem readsBack_readType (htable : table.Legible) (hmem : column ∈ table.columns) :
    ReadsBack column.readType := by
  unfold Column.readType
  cases hreference : column.reference with
  | none => exact htable.type hmem hreference
  | some reference => exact ⟨readsType_namedType (isName_recordName reference.table.entity), rfl⟩

theorem legible_getter (htable : table.Legible) (hmem : column ∈ table.columns) :
    (Getter.of column).Legible := by
  obtain ⟨hread, hplain⟩ := readsBack_readType htable hmem
  exact ⟨htable.property column hmem, fun _ => readsType_storedType htable hmem, hread, hplain⟩

theorem isName_keyAccess {reference : Reference} {access : KeyAccess}
    (hok : rebuild resolver [] key = .ok table) (hunit : resolver.unit.Legible)
    (hnamed : resolver.unit.Named) (hmem : column ∈ table.columns)
    (hreference : column.reference = some reference)
    (haccess : keyAccess reference = .ok access) : isName access.method = true := by
  have hrefers := refersWell_of_rebuild hok hmem hreference
  obtain ⟨keyColumn, hkeyColumn, -⟩ := hrefers.only
  have hmethod := keyMethod_of_keyAccess hkeyColumn haccess
  unfold keyMethod at hmethod
  split at hmethod
  · rw [← Except.ok.inj hmethod]
    exact isName_property hunit hnamed hrefers.rebuilt (List.mem_of_getElem? hkeyColumn)
  · exact isName_of_identifier hmethod

theorem legible_keyHelper {reference : Reference} {helper : KeyHelper}
    (hunit : resolver.unit.Legible) (hnamed : resolver.unit.Named)
    (hok : rebuild resolver [] key = .ok table) (hmem : column ∈ table.columns) (hreference : column.reference = some reference)
    (hhelper : KeyHelper.of table column reference = .ok helper) : helper.Legible := by
  obtain ⟨hmethod, hproperty, -, access, haccess, hkey, htype⟩ := KeyHelper.of_eq_ok hhelper
  refine ⟨isName_of_identifier hmethod, hproperty ▸ isName_property hunit hnamed hok hmem,
    hkey ▸ isName_keyAccess hok hunit hnamed hmem hreference haccess, ?_, ?_⟩
  · rw [htype, type_of_keyAccess hok hmem hreference haccess]
    exact (readsBack_bound hunit hok hmem).reads
  · rw [htype, type_of_keyAccess hok hmem hreference haccess]
    exact (readsBack_bound hunit hok hmem).plain

/-- The reference that a key helper reads through. -/
theorem exists_column_of_mem_keyHelpers {type : RecordType} {helper : KeyHelper}
    (htype : RecordType.of table = .ok type) (hmem : helper ∈ type.keyHelpers) :
    ∃ column ∈ table.columns, ∃ reference, column.reference = some reference ∧
      KeyHelper.of table column reference = .ok helper := by
  obtain ⟨tableType, -, htype⟩ := bind_eq_ok_iff.mp htype
  obtain ⟨keyHelpers, hkeyHelpers, htype⟩ := bind_eq_ok_iff.mp htype
  cases htype
  obtain ⟨⟨column, reference⟩, hpair, hhelper⟩ := exists_of_mem_mapM_ok hkeyHelpers hmem
  obtain ⟨own, hcolumn, hreference⟩ := List.mem_filterMap.mp hpair
  obtain ⟨_, hreference, heq⟩ := Option.map_eq_some_iff.mp hreference
  cases heq
  exact ⟨column, hcolumn, reference, hreference, hhelper⟩

theorem legible_recordType {type : RecordType} (hunit : resolver.unit.Legible)
    (hnamed : resolver.unit.Named) (hok : rebuild resolver [] key = .ok table)
    (htype : RecordType.of table = .ok type) : type.Legible := by
  have htable := legible_of_rebuild hunit hnamed hok
  have hkeyHelpers : ∀ helper ∈ type.keyHelpers, helper.Legible := fun helper hmem => by
    obtain ⟨column, hcolumn, reference, hreference, hhelper⟩ :=
      exists_column_of_mem_keyHelpers htype hmem
    exact legible_keyHelper hunit hnamed hok hcolumn hreference hhelper
  obtain ⟨tableType, htableType, htype⟩ := bind_eq_ok_iff.mp htype
  obtain ⟨keyHelpers, -, htype⟩ := bind_eq_ok_iff.mp htype
  cases htype
  refine ⟨isName_recordName _, isName_of_identifier htableType,
    List.forall_mem_map.mpr fun column hmem => legible_getter htable hmem,
    List.forall_mem_map.mpr fun column hmem => ?_, hkeyHelpers⟩
  exact ⟨isName_front_append (by decide), readsType_storedType htable (List.mem_of_mem_filter hmem)⟩

end Records

/-! ### Constructors -/

section Constructors

variable {table : Table} {container : String} {constructor : Constructor}

theorem readsOutput_record (entity : String) :
    ReadsOutput (Signature.outputOf (recordType entity)) :=
  readsOutput_named (isPathWord_of_isName (isName_recordName entity))

theorem readsSignature_constructor (htable : table.Legible) :
    ReadsSignature (constructorSignature table) := by
  refine ⟨htable.entity, List.forall_mem_map.mpr fun column hmem =>
    readsInput_inputOf (htable.property column hmem) (readsType_storedType htable hmem), ?_,
    readsOutput_record table.entity⟩
  rw [List.all_eq_true]
  intro input hmem
  obtain ⟨column, -, rfl⟩ := List.mem_map.mp (List.mem_of_mem_drop hmem)
  rfl

/-- A parameter of the implementation that a constructor is derived to. -/
theorem legible_parameter (htable : table.Legible) {parameter : ImplementationParameter}
    (hok : Constructor.of table container = .ok constructor)
    (hmem : parameter ∈ constructor.pair.implementation.parameters) :
    isName parameter.name = true ∧ ReadsType parameter.type := by
  obtain ⟨-, hparameters, -⟩ := derive?_eq_some (of_eq_ok hok).1
  rw [hparameters] at hmem
  obtain ⟨own, hown, rfl⟩ := List.mem_map.mp hmem
  obtain ⟨column, hcolumn, rfl⟩ := mem_parameters_constructorSignature hown
  refine ⟨htable.property column hcolumn, ?_⟩
  have hstored := readsType_storedType htable hcolumn
  unfold ImplementationParameter.of
  dsimp only
  split
  · exact hstored
  · exact readsType_optionOf hstored

theorem isName_implementation_flag (hok : Constructor.of table container = .ok constructor)
    {flag : String} (hmem : flag ∈ constructor.pair.implementation.flags) : isName flag = true := by
  obtain ⟨-, -, -, hflags⟩ := derive?_eq_some (of_eq_ok hok).1
  exact isName_flag (hflags ▸ hmem)

theorem readsSignature_implementation (htable : table.Legible)
    (hok : Constructor.of table container = .ok constructor) :
    ReadsSignature constructor.implementationSignature := by
  refine ⟨?_, List.forall_mem_append.mpr ⟨List.forall_mem_map.mpr fun parameter hmem => ?_,
    List.forall_mem_map.mpr fun flag hmem => ?_⟩, ?_, ?_⟩
  · rw [Constructor.implementationSignature, name_of_derive? (of_eq_ok hok).1]
    exact isName_front_append (by decide)
  · obtain ⟨hname, htype⟩ := legible_parameter htable hok hmem
    exact readsInput_inputOf hname htype
  · exact readsInput_inputOf (isName_implementation_flag hok hmem) (readsType_namedType (by decide))
  · rw [List.all_eq_true]
    intro input hmem
    rcases List.mem_append.mp (List.mem_of_mem_drop hmem) with hmem | hmem
    · obtain ⟨parameter, -, rfl⟩ := List.mem_map.mp hmem
      rfl
    · obtain ⟨flag, -, rfl⟩ := List.mem_map.mp hmem
      rfl
  · rw [Constructor.implementationSignature, signature_of_ok hok]
    exact readsOutput_record table.entity

theorem legible_constructor (htable : table.Legible)
    (hok : Constructor.of table container = .ok constructor) : constructor.Legible := by
  refine ⟨?_, readsSignature_implementation htable hok, isName_recordName _, fun assignment hmem => ?_⟩
  · rw [signature_of_ok hok]
    exact readsSignature_constructor htable
  · rw [(of_eq_ok hok).2] at hmem
    obtain ⟨⟨parameter, index⟩, hparameter, rfl⟩ := List.mem_map.mp hmem
    refine ⟨?_, (legible_parameter htable hok (List.fst_mem_of_mem_zipIdx hparameter)).1⟩
    cases hflag : constructor.pair.implementation.flags[(FlagEncoding.locate index).1]? with
    | none => simp only [hflag, Option.getD_none]; decide
    | some flag =>
        simp only [hflag, Option.getD_some]
        exact isName_implementation_flag hok (List.mem_of_getElem? hflag)

end Constructors

/-! ### Conversions -/

section Conversions

variable {resolver : Resolver} {key : Key} {table : Table} {declaration : Declaration}
  {conversion : Conversion} {allowReflection : Bool}

theorem legible_conversion (hunit : resolver.unit.Legible) (hnamed : resolver.unit.Named)
    (hok : rebuild resolver [] key = .ok table) (hstruct : table.kind = .struct)
    (hdeclared : resolver.unit.get? table.key = some declaration)
    (hconversion : Conversion.of table declaration allowReflection = .ok conversion) :
    conversion.Legible := by
  have htable := legible_of_rebuild hunit hnamed hok
  obtain ⟨owner, howner⟩ := exists_describes hok
  obtain rfl : owner = declaration := Option.some.inj (howner.found.symm.trans hdeclared)
  have hname : ∀ property ∈ owner.properties, isName property.name = true := by
    intro property hmem
    have hkind := howner.kind
    rw [hstruct] at hkind
    unfold entityKind at hkind
    split at hkind
    · next isUnit properties hshape =>
        rw [Declaration.properties, hshape] at hmem
        exact hunit.fields owner howner.declared _ _ hshape property hmem
    all_goals cases hkind
  obtain ⟨hmoved, hdefaulted⟩ := conversion_eq_ok hconversion
  have hfield : ∀ field ∈ conversion.moved, ∃ property ∈ owner.properties,
      field = ⟨property.name, property.type⟩ := fun field hmem => by
    obtain ⟨property, hproperty, -, heq⟩ := (mem_moved_iff hconversion).mp hmem
    exact ⟨property, hproperty, heq⟩
  refine ⟨?_, ?_, fun field hmem => ?_, fun _ field hmem => ?_, fun names hnames name hmem => ?_⟩
  · obtain ⟨tableType, -, hconversion⟩ := bind_eq_ok_iff.mp hconversion
    cases hconversion
    exact htable.entity
  · obtain ⟨tableType, htableType, hconversion⟩ := bind_eq_ok_iff.mp hconversion
    cases hconversion
    exact isName_of_identifier htableType
  · obtain ⟨property, hproperty, rfl⟩ := hfield field hmem
    exact hname property hproperty
  · obtain ⟨property, hproperty, rfl⟩ := hfield field hmem
    exact (hunit.properties owner howner.declared property hproperty).1.reads
  · rw [hdefaulted] at hnames
    split at hnames
    · cases hnames
      obtain ⟨property, hproperty, rfl⟩ := List.mem_map.mp hmem
      exact hname property (List.mem_of_mem_filter hproperty)
    · cases hnames

end Conversions

/-! ### The code of a unit -/

section Codes

variable {unit : SourceUnit} {options : Options} {naming : Naming.Registry} {container : String}
  {code : Code}

theorem mem_of_mem_insertSorted {text other : String} {texts : List String}
    (hmem : other ∈ Code.insertSorted text texts) : other = text ∨ other ∈ texts := by
  induction texts with
  | nil => exact .inl (List.mem_singleton.mp hmem)
  | cons first rest ih =>
      unfold Code.insertSorted at hmem
      split at hmem
      · exact .inr hmem
      split at hmem
      · exact List.mem_cons.mp hmem
      rcases List.mem_cons.mp hmem with rfl | hmem
      · exact .inr List.mem_cons_self
      · exact (ih hmem).imp_right (List.mem_cons_of_mem _)

theorem exists_of_mem_importedModules {module : String} (hmem : module ∈ code.importedModules) :
    ∃ entry ∈ code.tables, module = entry.table.key.module := by
  have hsorted : ∀ modules : List String, module ∈ modules.foldr Code.insertSorted [] →
      module ∈ modules := by
    intro modules hmem
    induction modules with
    | nil => cases hmem
    | cons first rest ih =>
        rcases mem_of_mem_insertSorted hmem with rfl | hmem
        · exact List.mem_cons_self
        · exact List.mem_cons_of_mem _ (ih hmem)
  obtain ⟨entry, hentry, rfl⟩ := List.mem_map.mp (List.mem_of_mem_filter (hsorted _ hmem))
  exact ⟨entry, hentry, rfl⟩

theorem legible_entityCode {resolver : Resolver} {config : Config} {key : Key} {table : Table}
    {entity : EntityCode} (hunit : resolver.unit.Legible) (hnamed : resolver.unit.Named)
    (hok : rebuild resolver [] key = .ok table)
    (hentity : EntityCode.of resolver.unit config container table = .ok entity) :
    entity.Legible := by
  cases hkind : table.kind with
  | interface =>
      obtain ⟨type, constructor, rfl, htype, hconstructor⟩ := entityCode_interface hkind hentity
      exact ⟨legible_recordType hunit hnamed hok htype,
        legible_constructor (legible_of_rebuild hunit hnamed hok) hconstructor⟩
  | struct =>
      obtain ⟨own, rfl, hown⟩ := entityCode_struct hkind hentity
      intro conversion hmem
      obtain rfl : own = some conversion := hmem
      cases hfound : resolver.unit.get? table.key with
      | none =>
          rw [hfound] at hown
          cases hown
      | some declaration =>
          rw [hfound, Option.mapM_some] at hown
          obtain ⟨built, hbuilt, hown⟩ := bind_eq_ok_iff.mp hown
          cases hown
          exact legible_conversion hunit hnamed hok hkind hfound hbuilt

/-- What a resolver rebuilds of a declaration, and the code that is generated for it. -/
def Codes (resolver : Resolver) (container : String) (owner : Declaration) (entry : TableCode) : Prop :=
  ∃ table, rebuild resolver [] owner.key = .ok table ∧
    TableCode.of resolver.unit resolver.config container table = .ok entry

/-- Every declaration of a table has code, and all code is that of a declaration. -/
theorem codes_of_generate (hcode : generate unit options naming container = .ok code) :
    ∃ resolver, resolver.unit = unit ∧
      (∀ entry ∈ code.tables, ∃ owner ∈ unit.tables, Codes resolver container owner entry) ∧
      ∀ owner ∈ unit.tables, ∃ entry ∈ code.tables, Codes resolver container owner entry := by
  obtain ⟨resolver, tables, hcreate, htables, hcode⟩ := exists_tables_of_generate hcode
  obtain rfl := unit_of_create hcreate
  have hcodes := mapM_eq_ok_iff.mpr (ofTables_eq_ok hcode).2
  refine ⟨resolver, rfl, fun entry hmem => ?_, fun owner hmem => ?_⟩
  · obtain ⟨table, htable, hok⟩ := exists_of_mem_mapM_ok hcodes hmem
    obtain ⟨owner, howner, hrebuild⟩ := exists_of_mem_mapM_ok htables htable
    exact ⟨owner, howner, table, hrebuild, hok⟩
  · obtain ⟨table, htable, hrebuild⟩ := exists_mem_of_mapM_ok htables hmem
    obtain ⟨entry, hentry, hok⟩ := exists_mem_of_mapM_ok hcodes htable
    exact ⟨entry, hentry, table, hrebuild, hok⟩

/-- A unit that can be read gives code that can be read. -/
theorem legible_of_generate (hunit : unit.Legible) (hnamed : unit.Named)
    (hcode : generate unit options naming container = .ok code) : code.Legible := by
  obtain ⟨resolver, rfl, hcodes, -⟩ := codes_of_generate hcode
  refine ⟨fun module hmem => ?_, fun entry hmem => ?_⟩
  · obtain ⟨entry, hentry, rfl⟩ := exists_of_mem_importedModules hmem
    obtain ⟨owner, -, table, hok, hentry⟩ := hcodes entry hentry
    rw [(tableCode_eq_ok hentry).1]
    exact (legible_of_rebuild hunit hnamed hok).module
  · obtain ⟨owner, -, table, hok, hentry⟩ := hcodes entry hmem
    obtain ⟨-, htableType, hsequence, hentity⟩ := tableCode_eq_ok hentry
    exact ⟨legible_tableType (legible_of_rebuild hunit hnamed hok) htableType,
      legible_sequence hsequence, legible_entityCode hunit hnamed hok hentity⟩

end Codes

end EntityTables.Generated
