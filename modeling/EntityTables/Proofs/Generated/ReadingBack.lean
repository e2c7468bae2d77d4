import EntityTables.Proofs.Generated.EntityProgram

/-!
# Reading back from records

What runs is the code that is generated for an interface. Records begin empty or as an
implementation makes them, setters write to them, and getters show what was stored last.
-/

namespace EntityTables.Generated

open EntityTables.Syntax EntityTables.Schema EntityTables.Call

variable {α : Type}

/-! ### Records of running code -/

/-- Runs the function that an item declares. -/
def Program.runItem? (generated : Program α) (depth : Nat) (item : Node)
    (arguments : List (Datum α)) : Option (Datum α) :=
  (functionOf? item).bind fun function =>
    (function.run (generated.surroundings (generated.call? depth) (namedType "Self"))
      arguments).map (·.1)

/-- Generated code makes a record in the way that an origin says: by `new`, or by the item that is
generated as the implementation. -/
def Origin.Begins {constructor : Constructor} (generated : Program α) (depth : Nat)
    (type : RecordType) : Origin α constructor → Properties α → Prop
  | .new, record =>
    generated.call? depth (.own type.selfType "new") [] = some (.value type.selfType (.record record))
  | .call actuals, record => ∃ passed, actuals.PassedAs generated.word? passed ∧
    generated.runItem? depth constructor.implementationItem passed =
      some (.value type.selfType (.record record))

/-- Calls the setters of columns one after the other. -/
def Program.write? (generated : Program α) (depth : Nat) (type : RecordType)
    (writes : List (Column × Value α)) (record : Properties α) : Option (Properties α) :=
  writes.foldlM (fun record write =>
    generated.change? depth type.selfType (Setter.of write.1).method record write.2) record

/-- All code for a column stores its property in one type: the implementation, the setter, which
there is if the property may change, and the getter. -/
structure StoredAlike (generated : Program α) (type : RecordType) (constructor : Constructor)
    (column : Column) : Prop where
  made : ∀ (origin : Origin α constructor) (depth : Nat) (record : Properties α),
    origin.Begins generated (depth + 2) type record → ∀ stored,
      record.typed? column.property = some stored → stored.type = column.storedType
  settable : (generated.method? type.selfType selfByMutable (Setter.of column).method).isSome =
    column.mutable
  set : column.mutable = true → ∀ depth record value,
    generated.change? depth type.selfType (Setter.of column).method record value =
      some (record.set column.property column.storedType value)
  read : ∀ depth record, generated.show? depth type.selfType column.property record =
    some (.ofOption column.readType
      ((record.get? column.storedType column.property).bind (shown? column)))

section Running

variable {table : Table} {container : String} {type : RecordType} {constructor : Constructor}
  {column : Column} {generated : Program α} {tableName : String}

/-- A setter has a name of its own, and there is one if the column may change. -/
theorem find?_method (htype : RecordType.of table = .ok type)
    (hdistinct : (table.columns.map fun column => withoutRaw column.property).Nodup)
    (hcolumn : column ∈ table.columns) :
    type.setters.find? (·.method == (Setter.of column).method) =
      if column.mutable then some (.of column) else none := by
  have hsame : ∀ other ∈ table.columns, (Setter.of other).method = (Setter.of column).method →
      other = column := fun other hother hmethod =>
    List.inj_on_of_nodup_map hdistinct hother hcolumn (String.append_right_inj _ |>.mp hmethod)
  obtain ⟨-, -, -, hsetters⟩ := getters_of_recordType htype
  rw [hsetters]
  cases hmutable : column.mutable with
  | false =>
      rw [if_neg Bool.false_ne_true, List.find?_eq_none]
      intro setter hsetter hmethod
      obtain ⟨other, hother, rfl⟩ := List.mem_map.mp hsetter
      obtain ⟨hmem, hchanges⟩ := List.mem_filter.mp hother
      rw [hsame other hmem (beq_iff_eq.mp hmethod), hmutable] at hchanges
      cases hchanges
  | true =>
      rw [if_pos rfl]
      refine find?_key_of_mem Setter.method ?_
        (List.mem_map_of_mem (List.mem_filter.mpr ⟨hcolumn, hmutable⟩))
      have hproperties : ((table.columns.filter (·.mutable)).map fun column =>
          withoutRaw column.property).Nodup := hdistinct.sublist (List.filter_sublist.map _)
      have hnames := hproperties.map fun _ _ => (String.append_right_inj "set_").mp
      rwa [List.map_map] at hnames ⊢

/-- A setter that runs writes to the property of its column. -/
theorem change?_of_mem (htype : RecordType.of table = .ok type)
    (hdistinct : (table.columns.map fun column => withoutRaw column.property).Nodup)
    (hitems : generated.items = (EntityCode.record type constructor).items)
    (hcolumn : column ∈ table.columns) (depth : Nat) (record : Properties α) (value : Value α) :
    generated.change? depth type.selfType (Setter.of column).method record value =
      type.write? record (column.property, value) := by
  have hnames := nodup_properties hdistinct
  have hsetter : type.setter? column.property =
      if column.mutable then some (.of column) else none := by
    cases hmutable : column.mutable with
    | true => exact (setter?_eq_some_iff htype hnames).mpr ⟨column, hcolumn, hmutable, rfl, rfl⟩
    | false =>
        refine Option.eq_none_iff_forall_ne_some.mpr fun setter hfound => ?_
        obtain ⟨other, hother, hchanges, hproperty, -⟩ :=
          (setter?_eq_some_iff htype hnames).mp hfound
        rw [List.inj_on_of_nodup_map hnames hother hcolumn hproperty, hmutable] at hchanges
        cases hchanges
  rw [change?_entity hitems, find?_method htype hdistinct hcolumn, RecordType.write?, hsetter]

theorem write?_eq (htype : RecordType.of table = .ok type)
    (hdistinct : (table.columns.map fun column => withoutRaw column.property).Nodup)
    (hitems : generated.items = (EntityCode.record type constructor).items) (depth : Nat)
    {writes : List (Column × Value α)} (hwrites : ∀ write ∈ writes, write.1 ∈ table.columns)
    (record : Properties α) :
    generated.write? depth type writes record =
      (writes.map fun write => (write.1.property, write.2)).foldlM type.write? record := by
  induction writes generalizing record with
  | nil => rfl
  | cons write rest ih =>
      obtain ⟨hfirst, hrest⟩ := List.forall_mem_cons.mp hwrites
      rw [Program.write?, List.foldlM_cons, List.map_cons, List.foldlM_cons,
        change?_of_mem htype hdistinct hitems hfirst]
      congr 1
      funext next
      exact ih hrest next

/-- The item of an implementation makes what its assignments make. -/
theorem runItem?_implementation (hok : Constructor.of table container = .ok constructor)
    (htype : RecordType.of table = .ok type)
    (hdistinct : (table.columns.map fun column => withoutRaw column.property).Nodup) {depth : Nat}
    (hnew : generated.call? depth (.own type.selfType "new") [] =
      some (.value type.selfType (.record (.empty tableName))))
    {actuals : Actuals α constructor.pair.implementation} {passed : List (Datum α)}
    (hpassed : actuals.PassedAs generated.word? passed) :
    generated.runItem? depth constructor.implementationItem passed =
      (constructor.run tableName actuals.arguments actuals.words).map fun content =>
        .value type.selfType (.record content) := by
  have hself : type.selfType = recordType constructor.entity := by
    rw [RecordType.selfType, (getters_of_recordType htype).2.1, entity_of_ok hok, recordType]
  rw [Program.runItem?, functionOf?_implementationItem hok, Option.bind_some,
    run_function hok hdistinct rfl hself hnew hpassed]

/-- What running code makes a record begin with is what its origin says. -/
theorem run?_of_begins (hok : Constructor.of table container = .ok constructor)
    (htype : RecordType.of table = .ok type)
    (hdistinct : (table.columns.map fun column => withoutRaw column.property).Nodup) {depth : Nat}
    (hnew : generated.call? depth (.own type.selfType "new") [] =
      some (.value type.selfType (.record (.empty tableName))))
    {origin : Origin α constructor} {record : Properties α}
    (hbegins : origin.Begins generated depth type record) :
    origin.run? tableName = some record := by
  cases origin with
  | new =>
      rw [Origin.Begins, hnew] at hbegins
      cases hbegins
      rfl
  | call actuals =>
      obtain ⟨passed, hpassed, hcall⟩ := hbegins
      rw [runItem?_implementation hok htype hdistinct hnew hpassed] at hcall
      obtain ⟨content, hrun, heq⟩ := Option.map_eq_some_iff.mp hcall
      cases heq
      exact hrun

/-- A record begins as its origin says, if that is no implementation with captured names. -/
theorem exists_begins (hok : Constructor.of table container = .ok constructor)
    (htype : RecordType.of table = .ok type) {depth : Nat}
    (hnew : generated.call? depth (.own type.selfType "new") [] =
      some (.value type.selfType (.record (.empty tableName)))) :
    (Origin.new : Origin α constructor).Begins generated depth type (.empty tableName) ∧
      (PropertiesApart table constructor.pair.implementation.flags →
        ∀ actuals : Actuals α constructor.pair.implementation, actuals.Wraps →
          ∃ record, (Origin.call actuals).Begins generated depth type record) := by
  refine ⟨hnew, fun hapart actuals hwraps => ?_⟩
  obtain ⟨record, hrecord⟩ := Option.isSome_iff_exists.mp
    (@isSome_run α table container constructor tableName actuals hok hapart hwraps)
  have hpassed : actuals.PassedAs generated.word?
      (actuals.arguments.map .passing ++ actuals.words.map .word) :=
    ⟨_, rfl, List.forall₂_map_left_iff.mpr (List.forall₂_same.mpr fun _ _ => rfl)⟩
  refine ⟨record, _, hpassed, ?_⟩
  rw [runItem?_implementation hok htype hapart.distinct hnew hpassed, hrecord]
  rfl

theorem storedAlike_of_mem (hok : Constructor.of table container = .ok constructor)
    (htype : RecordType.of table = .ok type)
    (hdistinct : (table.columns.map fun column => withoutRaw column.property).Nodup)
    (hitems : generated.items = (EntityCode.record type constructor).items)
    (hnamed : generated.constant (namedType type.tableType) "TABLE_NAME" = some (.text tableName))
    (hcolumn : column ∈ table.columns)
    (hnullable : column.storedType.stripOption.2 = column.nullable) :
    StoredAlike generated type constructor column where
  made := by
    intro origin depth record hbegins stored hstored
    have htyped := typed?_of_stored htype hok hdistinct hcolumn hnullable
      (run?_of_begins hok htype hdistinct
        (call_new hitems (tableType_ne_self htype) hnamed depth) hbegins) (List.foldlM_nil)
    rw [hstored] at htyped
    obtain ⟨value, -, rfl⟩ := Option.map_eq_some_iff.mp htyped.symm
    rfl
  settable := by
    rw [Program.method?, ownMembers_entity hitems, RecordType.find?_byMutable,
      find?_method htype hdistinct hcolumn]
    cases column.mutable <;> rfl
  set := by
    intro hmutable depth record value
    rw [change?_entity hitems, find?_method htype hdistinct hcolumn, hmutable]
    rfl
  read := by
    intro depth record
    rw [show?_entity hitems (getter?_of_mem htype (nodup_properties hdistinct) hcolumn),
      Getter.read_eq]

end Running

/-- **Getters read what was stored last.** The code that is generated for a resolved interface
stores the property of a column in one type throughout. When it runs, whatever a record begins with
and whatever is written to it then, a getter shows the value that was stored last in its own
property, and nothing if none was. -/
theorem read_written {resolver : Resolver} {key : Key} {table : Table}
    (hresolved : ((resolveTable resolver key).run .empty).1 = .ok table) {container : String}
    {type : RecordType} (htype : RecordType.of table = .ok type) {constructor : Constructor}
    (hconstructor : Constructor.of table container = .ok constructor)
    (hdistinct : (table.columns.map fun column => withoutRaw column.property).Nodup)
    {generated : Program α} (hitems : generated.items = (EntityCode.record type constructor).items)
    {tableName : String}
    (hnamed : generated.constant (namedType type.tableType) "TABLE_NAME" = some (.text tableName)) :
    (∀ column ∈ table.columns, StoredAlike generated type constructor column) ∧
      (∀ depth, (Origin.new : Origin α constructor).Begins generated (depth + 2) type
        (.empty tableName)) ∧
      (PropertiesApart table constructor.pair.implementation.flags →
        ∀ actuals : Actuals α constructor.pair.implementation, actuals.Wraps → ∀ depth,
          ∃ record, (Origin.call actuals).Begins generated (depth + 2) type record) ∧
      ∀ (origin : Origin α constructor) (depth : Nat) (start : Properties α),
        origin.Begins generated (depth + 2) type start → ∀ writes : List (Column × Value α),
          (∀ write ∈ writes, write.1 ∈ table.columns) →
          ((generated.write? (depth + 2) type writes start).isSome ↔
            ∀ write ∈ writes, write.1.mutable = true) ∧
          ∀ record, generated.write? (depth + 2) type writes start = some record →
            ∀ column ∈ table.columns,
              generated.show? (depth + 2) type.selfType column.property record =
                some (.ofOption column.readType
                  ((lastStored? origin (writes.map fun write => (write.1.property, write.2))
                    column).bind (shown? column))) := by
  have hnames := nodup_properties hdistinct
  have hnew := call_new hitems (tableType_ne_self htype) hnamed
  refine ⟨fun column hcolumn => storedAlike_of_mem hconstructor htype hdistinct hitems hnamed hcolumn
      (nullable_of_resolved hresolved hcolumn),
    fun depth => (exists_begins hconstructor htype (hnew depth)).1,
    fun hapart actuals hwraps depth =>
      (exists_begins hconstructor htype (hnew depth)).2 hapart actuals hwraps,
    fun origin depth start hbegins writes hwrites => ⟨?_, fun record hrecord column hcolumn => ?_⟩⟩
  · rw [write?_eq htype hdistinct hitems _ hwrites, isSome_foldlM_write?_iff htype hnames,
      List.forall_mem_map]
    refine forall₂_congr fun write hmem => ⟨?_, fun hmutable =>
      ⟨write.1, hwrites write hmem, hmutable, rfl⟩⟩
    rintro ⟨other, hother, hmutable, hproperty⟩
    rwa [← List.inj_on_of_nodup_map hnames hother (hwrites write hmem) hproperty]
  · rw [write?_eq htype hdistinct hitems _ hwrites] at hrecord
    have hstart := run?_of_begins hconstructor htype hdistinct (hnew depth) hbegins
    rw [show?_entity hitems (getter?_of_mem htype hnames hcolumn),
      Getter.read_of (typed?_of_stored htype hconstructor hdistinct hcolumn
        (nullable_of_resolved hresolved hcolumn) hstart hrecord)]

section Instance

/-- Seats may be given to a guest, and may have a note. -/
def seatUnit : SourceUnit where
  declarations := [visitorTable "Seat" [keyProperty "id",
      ⟨"guest", optionOf (namedType "Person"), none, false, some ⟨none, none⟩, true, true⟩,
      ⟨"note", optionOf (namedType "String"), none, false, none, true, true⟩],
    visitorTable "Person" [keyProperty "id"]]
  constructors := []
  sqlTypeImpls := []
  config := none

/-- The table of a visitor's declaration. -/
def visitorTableOf (name : String) (columns : List Column) : Table where
  key := .within "crate" name
  entity := name
  kind := .interface
  name := name
  aliasName := none
  catalog := none
  schema := none
  typeName := name
  sequenceName := name
  ignoredProperties := []
  columns

def idColumn : Column :=
  memberColumn "id" (namedType "i32") (namedType "i32") "IntSqlType" true false

def guestColumn : Column :=
  { memberColumn "guest" (optionOf (namedType "Person")) (namedType "i32") "IntSqlType" false
      true with
    mutable := true
    reference := some ⟨visitorTableOf "Person" [idColumn], 0⟩ }

def noteColumn : Column :=
  { memberColumn "note" (optionOf (namedType "String")) (namedType "String") "VarcharSqlType" false
      true with
    mutable := true }

def seatTable : Table := visitorTableOf "Seat" [idColumn, guestColumn, noteColumn]

theorem seat_resolved : ((resolveTable (literalResolver seatUnit)
    (.within "crate" "Seat")).run .empty).1 = .ok seatTable := by
  rw [resolveTable_empty]
  cbv

def seatPair : Pair :=
  (Pair.derive? (.ofSignature "crate" (constructorSignature seatTable))).getD default

def seatConstructor : Constructor :=
  ⟨"Seat", constructorSignature seatTable, seatPair, assignmentsOf seatPair⟩

/-- A seat that is given to a person and has no note. -/
def seatActuals : Actuals String seatConstructor.pair.implementation where
  arguments := [.present (.plain "7"), .present (.record (.empty "Person")), .absent]
  words := [7]
  length_arguments := rfl
  length_words := rfl

/-- The guest of a seat is read until the seat is free again; that it has no note is a value. -/
theorem read_written_seat : ∃ type start record,
    RecordType.of seatTable = .ok type ∧
      let generated := literalProgram "Seat" (EntityCode.record type seatConstructor).items
      let person := recordType "Person"
      (Origin.call seatActuals).Begins generated 2 type start ∧
      generated.write? 2 type [(guestColumn, .absent)] start = some record ∧
      generated.show? 2 type.selfType "guest" start =
        some (.something (.value person (.record (.empty "Person")))) ∧
      generated.show? 2 type.selfType "guest" record = some .nothing ∧
      generated.show? 2 type.selfType "id" record =
        some (.something (.value (namedType "i32") (.plain "7"))) ∧
      generated.show? 2 type.selfType "note" record =
        some (.something (.value (optionOf (namedType "String")) .absent)) := by
  have hgenerated : (RecordType.of seatTable).toOption.map (fun _ => ()) = some () := by
    decide +kernel
  obtain ⟨type, htype, -⟩ := exists_ok_of_toOption hgenerated
  obtain ⟨-, -, hsome, hreads⟩ := @read_written String _ _ _ seat_resolved "crate" type htype
    seatConstructor rfl (by decide)
    (literalProgram "Seat" (EntityCode.record type seatConstructor).items) rfl "Seat" rfl
  have hwraps : seatActuals.Wraps := by
    intro position parameter argument hparameter hwrapped hargument
    match position with
    | 0 => cases hargument; rfl
    | 1 => cases hargument; rfl
    | 2 => cases hargument; rfl
    | position + 3 => cases hargument
  obtain ⟨start, hstart⟩ := hsome ⟨by decide, by decide, by decide⟩ seatActuals hwraps 0
  have hfirst := hreads (.call seatActuals) 0 start hstart
  have hmem : guestColumn ∈ seatTable.columns := List.mem_cons_of_mem _ List.mem_cons_self
  have hguest : ∀ write ∈ [(guestColumn, (Value.absent : Value String))],
      write.1 ∈ seatTable.columns := List.forall_mem_singleton.mpr hmem
  obtain ⟨record, hrecord⟩ := Option.isSome_iff_exists.mp
    ((hfirst [(guestColumn, .absent)] hguest).1.mpr (List.forall_mem_singleton.mpr rfl))
  have hbefore := (hfirst [] (by simp)).2 start rfl
  have hafter := (hfirst [(guestColumn, .absent)] hguest).2 record hrecord
  simp only [seatTable, visitorTableOf, List.forall_mem_cons] at hbefore hafter
  exact ⟨type, start, record, htype, hstart, hrecord, hbefore.2.1, hafter.2.1, hafter.1,
    hafter.2.2.1⟩

end Instance

end EntityTables.Generated
