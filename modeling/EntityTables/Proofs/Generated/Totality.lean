import EntityTables.Generated.Code
import EntityTables.Proofs.Generated.Construction
import EntityTables.Proofs.Schema.Closure
import EntityTables.Proofs.Schema.Failure
import EntityTables.Proofs.Text.Plural
import EntityTables.Proofs.Unit.Names

/-!
# What generation relies on

Some steps of generation have no answer outside of what they expect: a name has to be an identifier,
a parameter needs a word of flags, a reference needs its key among the columns of its target, and a
plural cuts a name before its last character. All of that holds for every unit that is made of
texts, but for one name: an interface with a raw name gets no implementation.
-/

namespace EntityTables.Generated

open EntityTables.Syntax EntityTables.Schema EntityTables.Text
open EntityTables.Call (FlagEncoding Pair VirtualFunction isRaw withoutRaw implementationName?)

/-! ### Names of implementations -/

theorem isIdentifier_append {front name : String} (hfront : isIdentifier front = true)
    (hname : name.toList.all isIdentContinue = true) : isIdentifier (front ++ name) = true := by
  unfold isIdentifier at hfront ⊢
  rw [String.toList_append]
  cases hchars : front.toList with
  | nil =>
      rw [hchars] at hfront
      cases hfront
  | cons c rest =>
      rw [hchars, isIdentifierChars, Bool.and_eq_true] at hfront
      rw [List.cons_append, isIdentifierChars, List.all_append, hfront.1, hfront.2, hname]
      rfl

theorem isIdentifier_of_isWord {name : String} (hword : isWord name = true)
    (hraw : isRaw name = false) : isIdentifier name = true := by
  rw [isWord, withoutRaw, hraw] at hword
  exact hword

theorem isIdentifier_implementationName {name implementation : String} (hword : isWord name = true)
    (hname : implementationName? name = some implementation) :
    isIdentifier implementation = true := by
  unfold implementationName? at hname
  split at hname
  · cases hname
  · next hraw =>
      cases hname
      refine isIdentifier_append (by decide) (all_of_isIdentifierChars ?_)
      exact isIdentifier_of_isWord hword (Bool.eq_false_iff.mpr hraw)

theorem isIdentifier_of_mem_flagNames {encoding : FlagEncoding} {flag : String}
    (hflag : flag ∈ encoding.flagNames) : isIdentifier flag = true := by
  unfold FlagEncoding.flagNames at hflag
  split at hflag
  · rw [List.mem_singleton.mp hflag]
    decide
  · obtain ⟨index, -, rfl⟩ := List.mem_map.mp hflag
    refine isIdentifier_append (by decide) (List.all_eq_true.mpr fun c hc => ?_)
    rw [Nat.toString_eq_repr, Nat.toList_repr] at hc
    exact isIdentContinue_of_isDigit (Nat.isDigit_of_mem_toDigits (by decide) (by decide) hc)

/-- What the making of a constructor relies on: its names are identifiers, and every parameter of
its implementation has a word of flags. -/
structure Constructor.Reliable (constructor : Constructor) : Prop where
  name : isIdentifier constructor.pair.implementation.name = true
  flags : ∀ flag ∈ constructor.pair.implementation.flags, isIdentifier flag = true
  words : ∀ position < constructor.pair.implementation.parameters.length,
    (FlagEncoding.locate position).1 < constructor.pair.implementation.flags.length

theorem Constructor.reliable {table : Table} {container : String} {constructor : Constructor}
    (hentity : isWord table.entity = true)
    (hok : Constructor.of table container = .ok constructor) : constructor.Reliable := by
  have hpair := (of_eq_ok hok).1
  obtain ⟨-, hparameters, hencoding, hflags⟩ := Call.derive?_eq_some hpair
  refine ⟨?_, fun flag hflag => ?_, fun position hposition => ?_⟩
  · obtain ⟨implementation, hname, hpair⟩ := Option.map_eq_some_iff.mp hpair
    rw [← hpair]
    exact isIdentifier_implementationName hentity hname
  · rw [hflags] at hflag
    exact isIdentifier_of_mem_flagNames hflag
  · rw [hparameters, List.length_map] at hposition
    rw [hflags, FlagEncoding.length_flagNames]
    exact FlagEncoding.div_lt_wordCount (hencoding.symm ▸ hposition)

/-! ### Errors of generated code -/

/-- Whether an error is that of a name which is no identifier. -/
def isNameError : Error → Bool
  | .invalidIdentifier .. => true
  | _ => false

section Errors

variable {table : Table} {container : String} {error : Error}

theorem raises_optionMapM {α β : Type} {kind : Error → Bool} {step : α → Except Error β}
    (hstep : ∀ a, Raises kind (step a)) (item : Option α) : Raises kind (item.mapM step) := by
  cases item with
  | none => exact raises_ok _
  | some a => exact (hstep a).bind fun _ => raises_ok _

theorem raises_identifier (table : Table) (name : String) :
    Raises isNameError (identifier table name) := by
  unfold identifier
  split
  · exact raises_ok _
  · exact raises_error rfl

theorem raises_keyAccess (reference : Reference) : Raises isNameError (keyAccess reference) := by
  fun_induction keyAccess reference with
  | case1 reference hnone => exact raises_ok _
  | case2 reference key hkey hplain => exact raises_ok _
  | case3 reference key hkey inner hinner ih =>
      exact (raises_identifier _ _).bind fun _ => ih.bind fun _ => raises_ok _

theorem raises_recordType (table : Table) : Raises isNameError (RecordType.of table) := by
  have hhelper : ∀ item : Column × Reference,
      Raises isNameError (KeyHelper.of table item.1 item.2) := fun item =>
    (raises_identifier _ _).bind fun _ => (raises_keyAccess _).bind fun _ => raises_ok _
  exact (raises_identifier _ _).bind fun _ => (raises_mapM hhelper _).bind fun _ => raises_ok _

theorem raises_tableType (table : Table) : Raises isNameError (TableType.of table) := by
  have hkey : ∀ reference, Raises isNameError (ForeignKey.of reference) := fun reference =>
    (raises_identifier _ _).bind fun _ => raises_ok _
  have haccessor : ∀ item : Column × String,
      Raises isNameError (ColumnAccessor.of item.1 item.2) := fun item =>
    (raises_optionMapM hkey _).bind fun _ => raises_ok _
  have hnames := raises_mapM fun column : Column => raises_identifier table column.propertyName
  exact (raises_identifier _ _).bind fun _ => (hnames _).bind fun _ =>
    (raises_mapM haccessor _).bind fun _ => raises_ok _

theorem raises_sequence (table : Table) : Raises isNameError (SequenceTrait.of table) :=
  (raises_identifier _ _).bind fun _ => (raises_identifier _ _).bind fun _ => raises_ok _

theorem raises_conversion (table : Table) (declaration : Declaration) (allowReflection : Bool) :
    Raises isNameError (Conversion.of table declaration allowReflection) :=
  (raises_identifier _ _).bind fun _ => raises_ok _

/-- A constructor fails for a raw name alone. -/
theorem constructor_eq_error_iff : Constructor.of table container = .error error ↔
    isRaw table.entity = true ∧ error = .rawFunctionName table.entity := by
  have hderive : Pair.derive? (.ofSignature container (constructorSignature table)) = none ↔
      isRaw table.entity = true := by
    rw [Pair.derive?, Option.map_eq_none_iff]
    change (if isRaw table.entity = true then none else some _) = none ↔ _
    simp
  unfold Constructor.of
  dsimp only
  split
  · next pair hpair => simp [← hderive, hpair]
  · next hnone => simp [← hderive, hnone, eq_comm]

/-- Generated code fails for a name that is no identifier, or for an interface with a raw name. -/
theorem tableCode_eq_error {unit : SourceUnit} {config : Config}
    (herror : TableCode.of unit config container table = .error error) :
    isNameError error = true ∨ table.kind = .interface ∧ isRaw table.entity = true ∧
      error = .rawFunctionName table.entity := by
  simp only [TableCode.of, bind_eq_error_iff] at herror
  rcases herror with htype | ⟨_, -, hsequence | ⟨_, -, hentity | ⟨_, -, hpure⟩⟩⟩
  · exact Or.inl (raises_tableType table error htype)
  · exact Or.inl (raises_sequence table error hsequence)
  · unfold EntityCode.of at hentity
    split at hentity
    · next hkind =>
        simp only [bind_eq_error_iff] at hentity
        rcases hentity with hrecord | ⟨_, -, hconstructor | ⟨_, -, hpure⟩⟩
        · exact Or.inl (raises_recordType table error hrecord)
        · exact Or.inr ⟨hkind, constructor_eq_error_iff.mp hconstructor⟩
        · cases hpure
    · have hconversion := raises_optionMapM
        (fun declaration => raises_conversion table declaration config.allowReflection)
        (unit.indexed? table.key)
      exact Or.inl ((hconversion.bind fun _ => raises_ok _) error hentity)
  · cases hpure

end Errors

/-! ### Errors of resolution -/

section Resolution

variable {resolver : Resolver} {stack : List Declaration} {key : Key} {entity : String}

theorem rebuild_ne_rawFunctionName :
    rebuild resolver stack key ≠ .error (.rawFunctionName entity) := by
  intro herror
  induction stack, key using rebuild.induct resolver with
  | case1 stack key hmem =>
      rw [rebuild_of_mem hmem] at herror
      cases herror
  | case2 stack key hmem hnone =>
      rw [rebuild_of_get?_eq_none hmem hnone] at herror
      cases herror
  | case3 stack key hmem declaration hfound ih =>
      rw [rebuild_of_get?_eq_some hmem hfound] at herror
      rcases buildTable_eq_error_cases hfound herror with
        hcolumn | hkind | ⟨property, -, -, hmarkers⟩ | ⟨target, -, htarget⟩
      · cases hcolumn
      · unfold entityKind at hkind
        split at hkind <;> cases hkind
      · unfold checkMarkers at hmarkers
        split at hmarkers
        · cases hmarkers
        · split at hmarkers <;> cases hmarkers
      · exact ih target htarget

theorem create_ne_rawFunctionName {unit : SourceUnit} {options : Options}
    {registry : Naming.Registry} :
    Resolver.create unit options registry ≠ .error (.rawFunctionName entity) := by
  have hconfig : ∀ {α : Type} (result : Except ConfigError α),
      result.mapError Error.config ≠ .error (.rawFunctionName entity) := by
    intro α result herror
    cases result with
    | error error => cases herror
    | ok a => cases herror
  intro herror
  simp only [Resolver.create, bind_eq_error_iff] at herror
  rcases herror with hdatabase | ⟨_, -, hcoding | ⟨_, -, hpure⟩⟩
  · exact hconfig _ hdatabase
  · exact hconfig _ hcoding
  · cases hpure

/-- The declaration of a rebuilt table gives it its name and its kind. -/
theorem exists_declaration_of_rebuild {table : Table}
    (hok : rebuild resolver stack key = .ok table) :
    ∃ declaration ∈ resolver.unit.tables, declaration.name = table.entity ∧
      entityKind declaration = .ok table.kind := by
  obtain ⟨-, declaration, hfound, hbuild⟩ := rebuild_eq_ok_iff.mp hok
  obtain ⟨marker, kind, _, hmarker, hkind, -, rfl⟩ := (buildTable_eq_ok_iff _).mp hbuild
  refine ⟨declaration, List.mem_filter.mpr ⟨List.mem_of_find?_eq_some hfound, ?_⟩, rfl, hkind⟩
  rw [Declaration.isTable, hmarker]
  rfl

end Resolution

/-! ### Whole units -/

section Units

variable {unit : SourceUnit} {options : Options} {registry : Naming.Registry} {container : String}

theorem unit_of_create {resolver : Resolver}
    (hok : Resolver.create unit options registry = .ok resolver) : resolver.unit = unit := by
  simp only [Resolver.create, bind_eq_ok_iff] at hok
  obtain ⟨_, -, _, -, hpure⟩ := hok
  cases hpure
  rfl

/-- Generation fails for a raw name only where an interface has it. -/
theorem rawFunctionName_of_generate {entity : String}
    (herror : generate unit options registry container = .error (.rawFunctionName entity)) :
    isRaw entity = true ∧ ∃ declaration ∈ unit.tables, declaration.name = entity ∧
      entityKind declaration = .ok .interface := by
  simp only [generate, bind_eq_error_iff, resolveAll_empty] at herror
  rcases herror with hcreate | ⟨resolver, hcreate, htables | ⟨tables, htables, hcode⟩⟩
  · exact absurd hcreate create_ne_rawFunctionName
  · obtain ⟨declaration, -, hdeclaration⟩ := exists_of_mapM_error htables
    exact absurd hdeclaration rebuild_ne_rawFunctionName
  · rcases bind_eq_error_iff.mp hcode with hcode | ⟨_, -, hpure⟩
    · obtain ⟨table, hmem, htable⟩ := exists_of_mapM_error hcode
      obtain ⟨declaration, hdeclaration, hrebuild⟩ := exists_of_mem_mapM_ok htables hmem
      obtain ⟨owner, howner, hentity, hkind⟩ := exists_declaration_of_rebuild hrebuild
      rw [unit_of_create hcreate] at howner
      rcases tableCode_eq_error htable with hname | ⟨hinterface, hraw, heq⟩
      · cases hname
      · cases heq
        exact ⟨hraw, owner, howner, hentity, hinterface ▸ hkind⟩
    · cases hpure

/-- A resolved table of a unit that is made of texts is named by a word. -/
theorem isWord_entity_of_rebuild {texts : List (String × String)} {resolver : Resolver} {key : Key}
    {table : Table} (hunit : SourceUnit.empty.addTexts texts = .ok resolver.unit)
    (hok : rebuild resolver [] key = .ok table) : isWord table.entity = true := by
  obtain ⟨declaration, hmem, hname, -⟩ := exists_declaration_of_rebuild hok
  rw [← hname]
  exact SourceUnit.isWord_name_of_addTexts hunit (List.mem_of_mem_filter hmem)

/-- The key of a reference is among the columns of its target, at whatever depth. -/
theorem primaryKey_lt_of_occurs {resolver : Resolver} {key : Key} {table : Table}
    (hok : rebuild resolver [] key = .ok table) {column : Column} (hoccurs : Occurs column table)
    {reference : Reference} (hreference : column.reference = some reference) :
    reference.primaryKey < reference.table.columns.length := by
  obtain ⟨owner, howner, hmem⟩ := hoccurs.exists_rebuilt ((key_of_rebuild hok).symm ▸ hok)
  obtain ⟨keyColumn, hkeyColumn, -⟩ := (refersWell_of_rebuild howner hmem hreference).only
  exact (List.getElem?_eq_some_iff.mp hkeyColumn).1

end Units

/-- **Generation gets stuck at raw names only.** Generation of a unit that is made of texts has no
answer only where an interface has a raw name, which takes no prefix. All else that it relies on
holds: implementations and flags are named by identifiers, there is a word of flags for every
parameter, a reference at whatever depth has its key among the columns of its target, and what a
plural drops from a name is a character of one byte. -/
theorem generate_reliable {texts : List (String × String)} {unit : SourceUnit}
    (hunit : SourceUnit.empty.addTexts texts = .ok unit) (options : Options)
    (registry : Naming.Registry) (container : String) :
    (∀ entity, generate unit options registry container = .error (.rawFunctionName entity) →
        isRaw entity = true ∧ ∃ declaration ∈ unit.tables, declaration.name = entity ∧
          entityKind declaration = .ok .interface) ∧
      (∀ resolver, Resolver.create unit options registry = .ok resolver → ∀ key table,
        ((resolveTable resolver key).run .empty).1 = .ok table →
          (∀ constructor, Constructor.of table container = .ok constructor →
            constructor.Reliable) ∧
          ∀ column, Occurs column table → ∀ reference, column.reference = some reference →
            reference.primaryKey < reference.table.columns.length) ∧
      ∀ name, endsInAny (lowercase name.toList) ["y"] = true →
        ∃ last, name = String.ofList name.toList.dropLast ++ last ∧ last.utf8ByteSize = 1 := by
  refine ⟨fun entity => rawFunctionName_of_generate, fun resolver hcreate key table htable => ?_,
    fun name => eq_append_byte_of_endsIn_y⟩
  rw [resolveTable_empty] at htable
  rw [← unit_of_create hcreate] at hunit
  refine ⟨fun constructor hconstructor => ?_, fun column hoccurs reference hreference => ?_⟩
  · exact Constructor.reliable (isWord_entity_of_rebuild hunit htable) hconstructor
  · exact primaryKey_lt_of_occurs htable hoccurs hreference

section Instances

/-- Visits refer to the badge that was given out for them. -/
def visitText : String :=
  "#[table] trait Badge: Entity { #[primary_key] fn id(&self) -> i32; }" ++
    "#[table] trait Visit: Entity { #[references] fn badge(&self) -> Badge; }"

/-- The table of visits, with its constructor. -/
def visitCode : Except Error (Table × Constructor) := do
  let unit ← SourceUnit.empty.addTexts [("crate", visitText)]
  let resolver ← Resolver.create unit .none .empty
  let table ← ((resolveTable resolver ⟨"crate::Visit"⟩).run .empty).1
  return (table, ← Constructor.of table "crate")

theorem generate_reliable_visit : ∃ unit resolver table constructor,
    SourceUnit.empty.addTexts [("crate", visitText)] = .ok unit ∧
      Resolver.create unit .none .empty = .ok resolver ∧
      ((resolveTable resolver ⟨"crate::Visit"⟩).run .empty).1 = .ok table ∧
      Constructor.of table "crate" = .ok constructor ∧ constructor.Reliable ∧
      table.columns.any (·.isReference) ∧ ∀ column ∈ table.columns, ∀ reference,
        column.reference = some reference →
          reference.primaryKey < reference.table.columns.length := by
  have hcode : visitCode.toOption.map (fun code => code.1.columns.any (·.isReference)) =
      some true := by decide +kernel
  obtain ⟨⟨table, constructor⟩, hok, hreference⟩ := exists_ok_of_toOption hcode
  simp only [visitCode, bind_eq_ok_iff] at hok
  obtain ⟨unit, hunit, resolver, hcreate, _, htable, _, hconstructor, hpure⟩ := hok
  cases hpure
  obtain ⟨hreliable, hkeys⟩ :=
    (generate_reliable hunit .none .empty "crate").2.1 resolver hcreate _ table htable
  exact ⟨unit, resolver, table, constructor, hunit, hcreate, htable, hconstructor,
    hreliable constructor hconstructor, hreference, fun column hmem => hkeys column (.here hmem)⟩

/-- An interface with a raw name. -/
def rawNamedText : String :=
  "#[table] pub trait r#type: Entity { #[primary_key] fn id(&self) -> i32; }"

/-- Whether generation gets stuck at a raw name. -/
def isStuckAt (entity : String) : Except Error Code → Bool
  | .error (.rawFunctionName name) => name == entity
  | _ => false

/-- The name of an interface may be raw, and generation gets stuck there. -/
theorem generate_rawNamed : ∃ unit, SourceUnit.empty.addTexts [("crate", rawNamedText)] = .ok unit ∧
    generate unit .none .empty "crate::generated" = .error (.rawFunctionName "r#type") := by
  have hstuck : (SourceUnit.empty.addTexts [("crate", rawNamedText)]).toOption.map (fun unit =>
      isStuckAt "r#type" (generate unit .none .empty "crate::generated")) = some true := by
    decide +kernel
  obtain ⟨unit, hunit, hstuck⟩ := exists_ok_of_toOption hstuck
  refine ⟨unit, hunit, ?_⟩
  unfold isStuckAt at hstuck
  split at hstuck
  · next name hname => rw [hname, beq_iff_eq.mp hstuck]
  · cases hstuck

end Instances

end EntityTables.Generated
