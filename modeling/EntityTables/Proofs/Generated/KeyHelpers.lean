import EntityTables.Proofs.Generated.Built

/-!
# Keys behind references

A helper of a record type reads a key through a reference: it calls a getter of the record that is
referred to, or a helper of that record if the key there is a reference again. The types of helpers
are found by following the references of columns, and their values by calls from record to record
when the code runs. Both end at the same property, and the value is there if every record on the way
is.
-/

namespace EntityTables.Generated

open EntityTables.Syntax EntityTables.Schema EntityTables.Call

variable {α : Type}

/-! ### Chains of records -/

/-- The key that a column leads to, from record to record: the value of a plain column, and for a
reference the key that the record which it holds leads to. -/
inductive Leads : Column → Properties α → Value α → Prop
  | plain {column : Column} {record : Properties α} {key : Value α}
      (hplain : column.reference = none) (hvalue : record.value? column.property = some key) :
      Leads column record key
  | through {column keyColumn : Column} {reference : Reference} {record content : Properties α}
      {value key : Value α} (hreference : column.reference = some reference)
      (hkeyColumn : reference.keyColumn? = some keyColumn)
      (hvalue : record.value? column.property = some value)
      (hcontent : value.heldRecord? = some content) (hleads : Leads keyColumn content key) :
      Leads column record key

section Leads

variable {column : Column}

theorem leads_plain_iff (hplain : column.reference = none) {record : Properties α} {key : Value α} :
    Leads column record key ↔ record.value? column.property = some key := by
  refine ⟨fun hleads => ?_, .plain hplain⟩
  cases hleads with
  | plain _ hvalue => exact hvalue
  | through hreference => cases hplain.symm.trans hreference

theorem leads_through_iff {reference : Reference} {keyColumn : Column}
    (hreference : column.reference = some reference)
    (hkeyColumn : reference.keyColumn? = some keyColumn) {record : Properties α} {key : Value α} :
    Leads column record key ↔
      ∃ content, (record.value? column.property).bind Value.heldRecord? = some content ∧
        Leads keyColumn content key := by
  constructor
  · intro hleads
    cases hleads with
    | plain hplain => cases hplain.symm.trans hreference
    | through hother hotherColumn hvalue hcontent hleads =>
        cases hother.symm.trans hreference
        cases hotherColumn.symm.trans hkeyColumn
        exact ⟨_, Option.bind_eq_some_iff.mpr ⟨_, hvalue, hcontent⟩, hleads⟩
  · rintro ⟨content, hcontent, hleads⟩
    obtain ⟨value, hvalue, hcontent⟩ := Option.bind_eq_some_iff.mp hcontent
    exact .through hreference hkeyColumn hvalue hcontent hleads

end Leads

/-! ### Methods that read keys -/

/-- The method that reads the value behind a column: the getter of a plain one, and for a reference
the helper that is named after its accessor. -/
def keyMethod (table : Table) (column : Column) : Except Error String :=
  match column.reference with
  | none => .ok column.property
  | some _ => identifier table column.propertyName

theorem keyAccess_eq {reference : Reference} {keyColumn : Column}
    (hkeyColumn : reference.keyColumn? = some keyColumn) :
    keyAccess reference =
      match keyColumn.reference with
      | none => .ok ⟨keyColumn.property, keyColumn.propertyType⟩
      | some inner => do
        let method ← identifier reference.table keyColumn.propertyName
        let access ← keyAccess inner
        return ⟨method, access.type⟩ := by
  rw [keyAccess]
  split
  · next hnone => cases hnone.symm.trans hkeyColumn
  · next found hfound =>
      obtain rfl := Option.some.inj (hfound.symm.trans hkeyColumn)
      split
      · next hplain => rw [hplain]; rfl
      · next inner hinner => rw [hinner]

theorem keyMethod_of_keyAccess {reference : Reference} {keyColumn : Column} {access : KeyAccess}
    (hkeyColumn : reference.keyColumn? = some keyColumn) (hok : keyAccess reference = .ok access) :
    keyMethod reference.table keyColumn = .ok access.method := by
  rw [keyAccess_eq hkeyColumn] at hok
  unfold keyMethod
  split at hok
  · cases hok
    rfl
  · obtain ⟨method, hmethod, hok⟩ := bind_eq_ok_iff.mp hok
    obtain ⟨_, -, hok⟩ := bind_eq_ok_iff.mp hok
    cases hok
    exact hmethod

section Resolved

variable {resolver : Resolver} {key : Key} {table : Table} {column : Column}
  {reference : Reference}

/-- The type of a key is that of the property at the end of the chain. -/
theorem type_of_keyAccess (hok : rebuild resolver [] key = .ok table)
    (hcolumn : column ∈ table.columns) (hreference : column.reference = some reference)
    {access : KeyAccess} (haccess : keyAccess reference = .ok access) :
    access.type = column.bound.propertyType := by
  induction column using Column.bound.induct generalizing key table reference access with
  | case1 column hnone => cases hnone.symm.trans hreference
  | case2 column other hother hnone =>
      obtain ⟨keyColumn, hkeyColumn, -⟩ := (refersWell_of_rebuild hok hcolumn hother).only
      cases hnone.symm.trans hkeyColumn
  | case3 column other hother keyColumn hkeyColumn ih =>
      obtain rfl := Option.some.inj (hother.symm.trans hreference)
      have hrefers := refersWell_of_rebuild hok hcolumn hother
      rw [keyAccess_eq hkeyColumn] at haccess
      rw [bound_of_keyColumn hother hkeyColumn]
      split at haccess
      · next hplain =>
          cases haccess
          rw [bound_of_plain hplain]
      · next inner hinner =>
          obtain ⟨_, -, haccess⟩ := bind_eq_ok_iff.mp haccess
          obtain ⟨behind, hbehind, haccess⟩ := bind_eq_ok_iff.mp haccess
          cases haccess
          have htype := ih hrefers.rebuilt (List.mem_of_getElem? hkeyColumn) hinner hbehind
          exact htype

end Resolved

section Types

variable {table : Table} {type : RecordType} {column : Column} {reference : Reference}

/-- Every reference of a table has a helper in its record type. -/
theorem exists_keyHelper (htype : RecordType.of table = .ok type) (hcolumn : column ∈ table.columns)
    (hreference : column.reference = some reference) :
    ∃ helper ∈ type.keyHelpers, KeyHelper.of table column reference = .ok helper := by
  obtain ⟨tableType, -, htype⟩ := bind_eq_ok_iff.mp htype
  obtain ⟨keyHelpers, hhelpers, htype⟩ := bind_eq_ok_iff.mp htype
  cases htype
  have hmem : (column, reference) ∈ table.columns.filterMap fun column =>
      column.reference.map fun reference => (column, reference) :=
    List.mem_filterMap.mpr ⟨column, hcolumn, by rw [hreference]; rfl⟩
  obtain ⟨helper, hhelper, hok⟩ := exists_mem_of_mapM_ok hhelpers hmem
  exact ⟨helper, hhelper, hok⟩

/-- A helper is named after the accessor of its column, and calls the method that reads the key of
the record which the column holds. -/
theorem KeyHelper.of_eq_ok {helper : KeyHelper}
    (hok : KeyHelper.of table column reference = .ok helper) :
    identifier table column.propertyName = .ok helper.method ∧ helper.property = column.property ∧
      helper.target = reference.table.entity ∧
      ∃ access, keyAccess reference = .ok access ∧ helper.key = access.method ∧
        helper.keyType = access.type := by
  obtain ⟨method, hmethod, hok⟩ := bind_eq_ok_iff.mp hok
  obtain ⟨access, haccess, hok⟩ := bind_eq_ok_iff.mp hok
  cases hok
  exact ⟨hmethod, rfl, rfl, access, haccess, rfl, rfl⟩

end Types

/-! ### Reading a key -/

section Reading

variable {generated : Program α} {type : RecordType} {container : String} {resolver : Resolver}
  {tables : List Table} {table : Table} {column : Column}

/-- All tables of a unit, where the record types of its interfaces are part of a program. -/
structure Linkage (resolver : Resolver) (tables : List Table) (generated : Program α) : Prop where
  rebuilt : (resolver.unit.tables.mapM fun declaration => rebuild resolver [] declaration.key) =
    .ok tables
  running : ∀ table ∈ tables, table.kind = .interface → ∃ type, Running generated table type

theorem Linkage.rebuild_of_mem (hlinkage : Linkage resolver tables generated)
    (htable : table ∈ tables) :
    rebuild resolver [] table.key = .ok table := by
  obtain ⟨declaration, -, hdeclaration⟩ := exists_of_mem_mapM_ok hlinkage.rebuilt htable
  rwa [key_of_rebuild hdeclaration]

/-- The table behind a reference has a record type as well. -/
theorem Linkage.exists_target (hlinkage : Linkage resolver tables generated)
    (htable : table ∈ tables) (hcolumn : column ∈ table.columns) {reference : Reference}
    (hreference : column.reference = some reference) :
    reference.table ∈ tables ∧ ∃ target, Running generated reference.table target := by
  have hrefers := refersWell_of_rebuild (hlinkage.rebuild_of_mem htable) hcolumn hreference
  have hmem := List.mem_of_find?_eq_some (find?_of_mapM_rebuild hlinkage.rebuilt hrefers)
  exact ⟨hmem, hlinkage.running _ hmem hrefers.interface⟩

/-- From some depth on, a method of a record answers with a value or nothing. -/
def Answers (generated : Program α) (type : RecordType) (method : String) (record : Properties α)
    (valueType : Node) (held : Option (Value α)) : Prop :=
  ∃ bound, ∀ depth, bound ≤ depth →
    generated.call? depth (.own type.selfType method) [.value type.selfType (.record record)] =
      some (.ofOption valueType held)

/-- What the getter of a reference shows is the record that the reference holds. -/
theorem read_reference {key : Key} {record : Properties α}
    (hbuilt : Built generated container table record) (hrunning : Running generated table type)
    (hok : rebuild resolver [] key = .ok table) (hcolumn : column ∈ table.columns)
    {reference : Reference} (hreference : column.reference = some reference) :
    (Getter.of column).read record =
      ((record.value? column.property).bind Value.heldRecord?).map .record := by
  obtain ⟨hfits, hread⟩ := hbuilt.fits_and_reads hrunning hok hcolumn
  rw [hread]
  cases hvalue : record.value? column.property with
  | none => rfl
  | some value => exact (hfits value hvalue).shown?_eq hreference

/-- The method of a column answers with the key that the column leads to. The induction follows the chain:
what a reference holds is a record that was made for its target, whose key column comes next. -/
theorem exists_answers (hlinkage : Linkage resolver tables generated) (htable : table ∈ tables)
    (hrunning : Running generated table type) (hcolumn : column ∈ table.columns) {method : String}
    (hmethod : keyMethod table column = .ok method) {record : Properties α}
    (hbuilt : Built generated container table record) :
    ∃ held, (∀ key, held = some key ↔ Leads column record key) ∧
      Answers generated type method record column.bound.propertyType held := by
  have hok := hlinkage.rebuild_of_mem htable
  induction column using Column.bound.induct generalizing table type method record with
  | case1 column hplain =>
      obtain ⟨-, hread⟩ := hbuilt.fits_and_reads hrunning hok hcolumn
      have hshown : shown? (α := α) column = some := by
        funext value
        simp [shown?, Column.isReference, hplain]
      rw [hshown, Option.bind_fun_some] at hread
      rw [keyMethod, hplain] at hmethod
      cases hmethod
      refine ⟨record.value? column.property, fun key => (leads_plain_iff hplain).symm, 1,
        fun depth hdepth => ?_⟩
      obtain ⟨depth, rfl⟩ := Nat.exists_eq_add_of_le' hdepth
      have htype : column.readType = column.bound.propertyType := by
        rw [Column.readType, hplain, bound_of_plain hplain]
      rw [hrunning.call_getter hcolumn, hread, htype]
  | case2 column reference hreference hnone =>
      obtain ⟨keyColumn, hkeyColumn, -⟩ := (refersWell_of_rebuild hok hcolumn hreference).only
      cases hnone.symm.trans hkeyColumn
  | case3 column reference hreference keyColumn hkeyColumn ih =>
      obtain ⟨helper, hhelper, hof⟩ := exists_keyHelper hrunning.generatedFor hcolumn hreference
      obtain ⟨hname, hproperty, hentity, access, haccess, hkey, -⟩ := KeyHelper.of_eq_ok hof
      rw [keyMethod, hreference] at hmethod
      obtain rfl : helper.method = method := Except.ok.inj (hname.symm.trans hmethod)
      obtain ⟨hmem, target, htarget⟩ := hlinkage.exists_target htable hcolumn hreference
      have hread := read_reference hbuilt hrunning hok hcolumn hreference
      have hself : column.readType = target.selfType := by
        rw [Column.readType, hreference, RecordType.selfType,
          (getters_of_recordType htarget.generatedFor).2.1]
        rfl
      have hget : ∀ depth, generated.call? (depth + 1) (.own type.selfType helper.property)
          [.value type.selfType (.record record)] = some (.ofOption target.selfType
            (((record.value? column.property).bind Value.heldRecord?).map .record)) := by
        intro depth
        rw [hproperty, hrunning.call_getter hcolumn, hread, hself]
      have hasks := fun depth => hrunning.call_helper hhelper (hget depth)
      simp only [leads_through_iff hreference hkeyColumn, bound_of_keyColumn hreference hkeyColumn]
      cases hcontent : (record.value? column.property).bind Value.heldRecord? with
      | none =>
          refine ⟨none, by simp, 2, fun depth hdepth => ?_⟩
          obtain ⟨depth, rfl⟩ := Nat.exists_eq_add_of_le' hdepth
          rw [hasks, hcontent]
          rfl
      | some content =>
          obtain ⟨value, hvalue, hholds⟩ := Option.bind_eq_some_iff.mp hcontent
          have hfits := (hbuilt.fits_and_reads hrunning hok hcolumn).1 value hvalue
          obtain ⟨held, hleads, bound, hshows⟩ := ih hmem htarget
            (List.mem_of_getElem? hkeyColumn)
            (hkey ▸ keyMethod_of_keyAccess hkeyColumn haccess) (hfits.built hreference hholds)
            (hlinkage.rebuild_of_mem hmem)
          refine ⟨held, by simpa using hleads, bound + 2, fun depth hdepth => ?_⟩
          obtain ⟨depth, rfl⟩ := Nat.exists_eq_add_of_le' hdepth
          rw [show depth + (bound + 2) = depth + bound + 1 + 1 by omega, hasks, hcontent]
          exact hshows _ (by omega)

end Reading

/-! ### Generated code -/

section Generated

variable {unit : SourceUnit} {options : Options} {naming : Naming.Registry} {config : Config}
  {container : String} {code : Code}

/-- The methods of each record type have different names, as a compiler wants them. -/
def Code.MethodsApart (code : Code) : Prop :=
  ∀ type ∈ code.recordTypes, (methodNames code.items type.selfType).Nodup

instance (code : Code) : Decidable code.MethodsApart :=
  inferInstanceAs (Decidable (∀ type ∈ code.recordTypes, _))

/-- Where the methods of each record type have different names, the record types are part of the
program of the generated code. -/
theorem exists_linkage (hcode : generate unit options naming container = .ok code)
    (hmethods : code.MethodsApart) {generated : Program α} (hitems : generated.items = code.items) :
    ∃ resolver tables config, Linkage resolver tables generated ∧
      ∀ entry ∈ code.tables, entry.table ∈ tables ∧ TableType.of entry.table = .ok entry.tableType ∧
        EntityCode.of unit config container entry.table = .ok entry.entity := by
  obtain ⟨resolver, tables, -, htables, hcode⟩ := exists_tables_of_generate hcode
  have hcodes := mapM_eq_ok_iff.mpr (ofTables_eq_ok hcode).2
  refine ⟨resolver, tables, resolver.config, ⟨htables, fun table hmem hinterface => ?_⟩,
    fun entry hmem => ?_⟩
  · obtain ⟨entry, hentry, hok⟩ := exists_mem_of_mapM_ok hcodes hmem
    obtain ⟨-, htableType, -, hentity⟩ := tableCode_eq_ok hok
    obtain ⟨type, constructor, hrecord, htype, -⟩ := entityCode_interface hinterface hentity
    exact ⟨type, running_of_mem hitems hentry hrecord htype htableType
      (hmethods type (mem_recordTypes hentry hrecord))⟩
  · obtain ⟨table, htable, hok⟩ := exists_of_mem_mapM_ok hcodes hmem
    obtain ⟨rfl, htableType, -, hentity⟩ := tableCode_eq_ok hok
    exact ⟨htable, htableType, hentity⟩

/-- **Keys are read through any chain of references.** If the methods of each generated record type
have different names, every reference of an interface has a helper, which is named after the accessor
of the column and declares an optional key of the type of the property that the column is bound to.
When the code runs, a call of it on a record that the code has made returns a key if and only if
every record along the chain is set and the property at its end is set to that key, and nothing
otherwise. -/
theorem read_keyHelper (hcode : generate unit options naming container = .ok code)
    (hmethods : code.MethodsApart) {entry : TableCode} (hentry : entry ∈ code.tables)
    (hinterface : entry.table.kind = .interface)
    {column : Column} (hcolumn : column ∈ entry.table.columns) {reference : Reference}
    (hreference : column.reference = some reference) {generated : Program α}
    (hitems : generated.items = code.items) :
    ∃ type constructor, entry.entity = .record type constructor ∧
      ∃ helper function, identifier entry.table column.propertyName = .ok helper ∧
        functionNamed? (ownMembers generated.items type.selfType) helper = some function ∧
        function.signature.output =
          Signature.outputOf (optionalReference column.bound.propertyType) ∧
        ∀ record : Properties α, Built generated container entry.table record →
          ∃ held, (∀ key, held = some key ↔ Leads column record key) ∧
            Answers generated type helper record column.bound.propertyType held := by
  obtain ⟨resolver, tables, config, hlinkage, hgenerated⟩ := exists_linkage hcode hmethods hitems
  obtain ⟨hmem, htableType, hentity⟩ := hgenerated entry hentry
  obtain ⟨type, constructor, hrecord, htype, -⟩ := entityCode_interface hinterface hentity
  have hrunning : Running generated entry.table type := running_of_mem hitems hentry hrecord htype
    htableType (hmethods type (mem_recordTypes hentry hrecord))
  obtain ⟨helper, hhelper, hok⟩ := exists_keyHelper htype hcolumn hreference
  obtain ⟨hmethod, -, -, access, haccess, -, hkeyType⟩ := KeyHelper.of_eq_ok hok
  have hkeyMethod : keyMethod entry.table column = .ok helper.method := by
    rw [keyMethod, hreference]
    exact hmethod
  have hfunction : helper.function ∈ methodsOf generated.items type.selfType := by
    refine hrunning.sublist_methodsOf.subset ?_
    rw [RecordType.functions_members]
    exact List.mem_append_right _ (List.mem_map_of_mem hhelper)
  refine ⟨type, constructor, hrecord, helper.method, helper.function, hmethod,
    functionNamed?_of_mem hrunning.names hfunction, ?_,
    fun record hbuilt => exists_answers hlinkage hmem hrunning hcolumn hkeyMethod hbuilt⟩
  rw [← type_of_keyAccess (hlinkage.rebuild_of_mem hmem) hcolumn hreference haccess, ← hkeyType]
  rfl

end Generated

section Instance

/-- A visit may have a badge, the key of a badge is the person who holds it, and all that can be
changed. -/
def guestUnit : SourceUnit where
  declarations := [visitorTable "Visit"
      [⟨"badge", optionOf (namedType "Badge"), none, false, some ⟨none, none⟩, true, true⟩],
    visitorTable "Badge"
      [⟨"holder", namedType "Person", none, true, some ⟨none, none⟩, true, true⟩],
    visitorTable "Person" [⟨"id", namedType "i32", none, true, none, true, true⟩]]
  constructors := []
  sqlTypeImpls := []
  config := none

/-- Strategies that take all names as they are, and mark those of references. -/
def guestNaming : Naming.Registry where
  strategies := [
    ("coding", .coding ⟨.shared, fun name => name, fun name => name, fun _ property => property,
      fun _ property _ => property ++ "_key"⟩),
    ("database", .database ⟨.shared, fun name => name, fun _ property => property,
      fun _ property _ => property ++ "_key"⟩)]

def guestOptions : Options := { Options.none with
  databaseNaming := some "database", codingNaming := some "coding" }

def personColumn : Column := { idColumn with mutable := true }

def personTable : Table := visitorTableOf "Person" [personColumn]

def holderColumn : Column :=
  { memberColumn "holder" (namedType "Person") (namedType "i32") "IntSqlType" true false with
    name := "holder_key"
    propertyName := "holder_key"
    mutable := true
    reference := some ⟨personTable, 0⟩ }

def badgeTable : Table := visitorTableOf "Badge" [holderColumn]

def badgeColumn : Column :=
  { memberColumn "badge" (optionOf (namedType "Badge")) (namedType "i32") "IntSqlType" false true
    with
    name := "badge_key"
    propertyName := "badge_key"
    mutable := true
    reference := some ⟨badgeTable, 0⟩ }

def visitTable : Table := visitorTableOf "Visit" [badgeColumn]

def guestResolver : Resolver where
  unit := guestUnit
  config := { Config.standard with databaseNaming := "database", codingNaming := "coding" }
  database := ⟨fun name => name, fun _ property => property,
      fun _ property _ => property ++ "_key"⟩
  coding := ⟨fun name => name, fun name => name, fun _ property => property,
      fun _ property _ => property ++ "_key"⟩

theorem create_guest : Resolver.create guestUnit guestOptions guestNaming = .ok guestResolver := rfl

theorem rebuild_guest :
    rebuild guestResolver [] (.within "crate" "Visit") = .ok visitTable ∧
      rebuild guestResolver [] (.within "crate" "Badge") = .ok badgeTable ∧
      rebuild guestResolver [] (.within "crate" "Person") = .ok personTable := by
  refine ⟨?_, ?_, ?_⟩ <;> cbv

/-- The code of guests has the code of each of their tables, which runs. -/
theorem exists_running_guest {code : Code}
    (hcode : generate guestUnit guestOptions guestNaming "crate" = .ok code)
    (hmethods : code.MethodsApart) {declaration : Declaration}
    (hdeclared : declaration ∈ guestUnit.tables) {table : Table}
    (hrebuild : rebuild guestResolver [] declaration.key = .ok table)
    (hinterface : table.kind = .interface) :
    ∃ entry ∈ code.tables, entry.table = table ∧ ∃ type constructor,
      entry.entity = .record type constructor ∧ Constructor.of table "crate" = .ok constructor ∧
      Running (literalProgram "" code.items) table type := by
  obtain ⟨resolver, tables, hcreate, htables, hcode⟩ := exists_tables_of_generate hcode
  rw [create_guest, Except.ok.injEq] at hcreate
  subst hcreate
  have hcodes := mapM_eq_ok_iff.mpr (ofTables_eq_ok hcode).2
  obtain ⟨own, hmem, hown⟩ := exists_mem_of_mapM_ok htables hdeclared
  obtain rfl : own = table := Except.ok.inj (hown.symm.trans hrebuild)
  obtain ⟨entry, hentry, hok⟩ := exists_mem_of_mapM_ok hcodes hmem
  obtain ⟨hsame, htableType, -, hentity⟩ := tableCode_eq_ok hok
  obtain ⟨type, constructor, hrecord, htype, hconstructor⟩ :=
    entityCode_interface hinterface hentity
  exact ⟨entry, hentry, hsame, type, constructor, hrecord, hconstructor,
    running_of_mem rfl hentry hrecord htype htableType
      (hmethods type (mem_recordTypes hentry hrecord))⟩

/-- The record of a value that is written to the only column of a table. -/
theorem exists_guest {generated : Program String} {table : Table} {type : RecordType}
    (hrunning : Running generated table type) {constructor : Constructor}
    (hconstructor : Constructor.of table "crate" = .ok constructor) (column : Column)
    {value : Value String} (hcolumns : table.columns = [column]) (hmutable : column.mutable = true)
    (hfits : Fits generated "crate" column value) :
    ∃ record, Built generated "crate" table record ∧
      record.value? column.property = some value := by
  have hmem : column ∈ table.columns := hcolumns ▸ List.mem_singleton_self column
  have hwrites : ∀ write ∈ [(column, value)], write.1 ∈ table.columns ∧ write.1.mutable = true ∧
      Fits generated "crate" write.1 write.2 :=
    List.forall_mem_singleton.mpr ⟨hmem, hmutable, hfits⟩
  obtain ⟨record, hbuilt, hvalues⟩ := exists_built hrunning hconstructor hwrites
  refine ⟨record, hbuilt, ?_⟩
  rw [hvalues column hmem, List.map_singleton, List.reverse_singleton, List.lookup_cons,
    beq_self_eq_true]

/-- The key of a visit is the person who holds the badge. -/
theorem read_keyHelper_visit : ∃ code entry type constructor record,
    generate guestUnit guestOptions guestNaming "crate" = .ok code ∧ entry ∈ code.tables ∧
      entry.entity = .record type constructor ∧
      let generated := literalProgram "" code.items
      Built generated "crate" entry.table record ∧
      Answers generated type "badge_key" record (namedType "i32") (some (.plain "7")) := by
  have hgenerated : (generate guestUnit guestOptions guestNaming "crate").toOption.map
      (fun code => decide code.MethodsApart) = some true := by decide +kernel
  obtain ⟨code, hcode, hdecided⟩ := exists_ok_of_toOption hgenerated
  have hmethods : code.MethodsApart := of_decide_eq_true hdecided
  obtain ⟨hvisit, hbadge, hperson⟩ := rebuild_guest
  obtain ⟨_, _, _, _, _, _, hpersonOf, hpersonRuns⟩ := exists_running_guest hcode hmethods
    (List.mem_of_getElem? (rfl : guestUnit.tables[2]? = some _)) hperson rfl
  obtain ⟨_, _, _, _, _, _, hbadgeOf, hbadgeRuns⟩ := exists_running_guest hcode hmethods
    (List.mem_of_getElem? (rfl : guestUnit.tables[1]? = some _)) hbadge rfl
  obtain ⟨entry, hentry, htable, type, constructor, hentity, hvisitOf, hvisitRuns⟩ :=
    exists_running_guest hcode hmethods
      (List.mem_of_getElem? (rfl : guestUnit.tables[0]? = some _)) hvisit rfl
  obtain ⟨person, hpersonMade, hid⟩ :=
    exists_guest hpersonRuns hpersonOf personColumn rfl rfl (.plain rfl : Fits _ _ _ (.plain "7"))
  obtain ⟨badge, hbadgeMade, hholder⟩ :=
    exists_guest hbadgeRuns hbadgeOf holderColumn rfl rfl (.record rfl rfl hpersonMade)
  obtain ⟨visit, hvisitMade, hgiven⟩ :=
    exists_guest hvisitRuns hvisitOf badgeColumn rfl rfl (.present rfl rfl hbadgeMade)
  obtain ⟨own, _, hown, helper, _, hmethod, -, -, hshows⟩ :=
    @read_keyHelper String _ _ _ _ _ hcode hmethods entry hentry (htable ▸ rfl) badgeColumn
      (htable ▸ List.mem_cons_self) _ rfl (literalProgram "" code.items) rfl
  obtain ⟨rfl, -⟩ := EntityCode.record.inj (hown.symm.trans hentity)
  rw [htable] at hmethod hshows
  have hname : (identifier visitTable badgeColumn.propertyName).toOption = some "badge_key" := by
    decide +kernel
  rw [hmethod] at hname
  obtain rfl : helper = "badge_key" := Option.some.inj hname
  obtain ⟨held, hleads, hshown⟩ := hshows visit hvisitMade
  have hkey : held = some (.plain "7") := (hleads (.plain "7")).mpr
    (.through rfl rfl hgiven rfl (.through rfl rfl hholder rfl (.plain rfl hid)))
  have htype : badgeColumn.bound.propertyType = namedType "i32" := by
    rw [bound_of_keyColumn (rfl : badgeColumn.reference = some ⟨badgeTable, 0⟩)
        (rfl : _ = some holderColumn),
      bound_of_keyColumn (rfl : holderColumn.reference = some ⟨personTable, 0⟩)
        (rfl : _ = some personColumn), bound_of_plain rfl]
    rfl
  exact ⟨code, entry, own, constructor, visit, hcode, hentry, hentity, htable ▸ hvisitMade,
    hkey ▸ htype ▸ hshown⟩

end Instance

end EntityTables.Generated
