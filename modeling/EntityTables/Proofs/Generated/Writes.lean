import EntityTables.Proofs.Generated.Passing
import EntityTables.Proofs.Schema.Closure
import Mathlib.Data.List.Permutation

/-!
# Reading what was written

Constructors and setters store the properties of a record, and getters read them. Each of the three
writes down by itself in which type a property is kept, and a value that is kept in another type
reads like one that was never stored. All of them arrive at the type of the column, so what a getter
reads is what was stored last in its own property.
-/

namespace EntityTables.Generated

open EntityTables.Syntax EntityTables.Schema EntityTables.Call

variable {α : Type}

/-! ### Writes -/

/-- A call of the setter of a property; there is one if the property may change. -/
def RecordType.write? (type : RecordType) (record : Properties α) (write : String × Value α) :
    Option (Properties α) :=
  (type.setter? write.1).map fun setter => setter.store record write.2

/-- How a record begins: without any property, or with what a constructor stores. -/
inductive Origin (α : Type) (constructor : Constructor)
  | new
  | call (actuals : Actuals α constructor.pair.implementation)

namespace Origin

variable {constructor : Constructor}

def run? (tableName : String) : Origin α constructor → Option (Properties α)
  | .new => some (.empty tableName)
  | .call actuals => constructor.run tableName actuals.arguments actuals.words

/-- The value that a record begins with in a column, if it begins with one. -/
def stored? (column : Column) : Origin α constructor → Option (Value α)
  | .new => none
  | .call actuals => constructor.passed? actuals column

end Origin

/-- The value of a column after some writes: the last of them, or the one that it began with. -/
def lastStored? {constructor : Constructor} (origin : Origin α constructor)
    (writes : List (String × Value α)) (column : Column) : Option (Value α) :=
  (writes.reverse.lookup column.property).or (origin.stored? column)

/-- What has a key of its own is found under it. -/
theorem find?_key_of_mem {β κ : Type} [BEq κ] [LawfulBEq κ] {items : List β} (key : β → κ)
    (hkeys : (items.map key).Nodup) {item : β} (hmem : item ∈ items) :
    items.find? (fun other => key other == key item) = some item := by
  obtain ⟨found, hfound⟩ : ∃ found, items.find? (fun other => key other == key item) =
      some found := by
    rw [← Option.isSome_iff_exists, List.find?_isSome]
    exact ⟨item, hmem, beq_self_eq_true _⟩
  have hsame : key found = key item := beq_iff_eq.mp (List.find?_some hfound :)
  rw [hfound, List.inj_on_of_nodup_map hkeys (List.mem_of_find?_eq_some hfound) hmem hsame]

section Written

variable {table : Table} {container : String} {type : RecordType} {constructor : Constructor}
  {tableName : String} {column : Column}

theorem nodup_properties
    (hdistinct : (table.columns.map fun column => withoutRaw column.property).Nodup) :
    (table.columns.map (·.property)).Nodup := by
  refine List.Nodup.of_map withoutRaw ?_
  rwa [List.map_map]

/-- The parts of a record type that belong to the columns of its table. -/
theorem getters_of_recordType (htype : RecordType.of table = .ok type) :
    type.entity = table.entity ∧ type.name = recordName table.entity ∧
      type.getters = table.columns.map .of ∧
      type.setters = (table.columns.filter (·.mutable)).map .of := by
  obtain ⟨tableType, -, htype⟩ := bind_eq_ok_iff.mp htype
  obtain ⟨keyHelpers, -, htype⟩ := bind_eq_ok_iff.mp htype
  cases htype
  exact ⟨rfl, rfl, rfl, rfl⟩

theorem getter?_of_mem (htype : RecordType.of table = .ok type)
    (hnames : (table.columns.map (·.property)).Nodup) (hcolumn : column ∈ table.columns) :
    type.getter? column.property = some (.of column) := by
  obtain ⟨-, -, hgetters, -⟩ := getters_of_recordType htype
  rw [RecordType.getter?, hgetters]
  refine find?_key_of_mem Getter.property ?_ (List.mem_map_of_mem (f := Getter.of) hcolumn)
  rwa [List.map_map]

theorem setter?_eq_some_iff (htype : RecordType.of table = .ok type)
    (hnames : (table.columns.map (·.property)).Nodup) {property : String} {setter : Setter} :
    type.setter? property = some setter ↔
      ∃ column ∈ table.columns, column.mutable = true ∧ column.property = property ∧
        setter = .of column := by
  obtain ⟨-, -, -, hsetters⟩ := getters_of_recordType htype
  rw [RecordType.setter?, hsetters]
  constructor
  · intro hfound
    obtain ⟨column, hmem, rfl⟩ := List.mem_map.mp (List.mem_of_find?_eq_some hfound)
    obtain ⟨hcolumn, hmutable⟩ := List.mem_filter.mp hmem
    exact ⟨column, hcolumn, hmutable, beq_iff_eq.mp (List.find?_some hfound :), rfl⟩
  · rintro ⟨column, hcolumn, hmutable, rfl, rfl⟩
    refine find?_key_of_mem Setter.property ?_
      (List.mem_map_of_mem (f := Setter.of) (List.mem_filter.mpr ⟨hcolumn, hmutable⟩))
    rw [List.map_map]
    exact hnames.sublist (List.filter_sublist.map _)

/-- Writes succeed if their properties may change. -/
theorem isSome_foldlM_write?_iff (htype : RecordType.of table = .ok type)
    (hnames : (table.columns.map (·.property)).Nodup) {writes : List (String × Value α)}
    (start : Properties α) : (writes.foldlM type.write? start).isSome ↔
      ∀ write ∈ writes, ∃ column ∈ table.columns,
        column.mutable = true ∧ column.property = write.1 := by
  have hsetter : ∀ property, (type.setter? property).isSome ↔ ∃ column ∈ table.columns,
      column.mutable = true ∧ column.property = property := by
    intro property
    rw [Option.isSome_iff_exists]
    constructor
    · rintro ⟨setter, hsetter⟩
      obtain ⟨column, hcolumn, hmutable, hproperty, -⟩ :=
        (setter?_eq_some_iff htype hnames).mp hsetter
      exact ⟨column, hcolumn, hmutable, hproperty⟩
    · rintro ⟨column, hcolumn, hmutable, hproperty⟩
      exact ⟨_, (setter?_eq_some_iff htype hnames).mpr
        ⟨column, hcolumn, hmutable, hproperty, rfl⟩⟩
  induction writes generalizing start with
  | nil => simp
  | cons write rest ih =>
      rw [List.foldlM_cons, List.forall_mem_cons, ← hsetter, RecordType.write?]
      cases type.setter? write.1 with
      | none => simp
      | some setter => simpa using ih (setter.store start write.2)

/-- After writes a column holds the last value that was written to it, in its own type. -/
theorem typed?_of_writes (htype : RecordType.of table = .ok type)
    (hnames : (table.columns.map (·.property)).Nodup) (hcolumn : column ∈ table.columns)
    {writes : List (String × Value α)} {start record : Properties α}
    (hwrites : writes.foldlM type.write? start = some record) :
    record.typed? column.property =
      ((writes.reverse.lookup column.property).map (Typed.mk column.storedType)).or
        (start.typed? column.property) := by
  induction writes generalizing start with
  | nil =>
      cases hwrites
      rfl
  | cons write rest ih =>
      rw [List.foldlM_cons] at hwrites
      obtain ⟨next, hnext, hrest⟩ := Option.bind_eq_some_iff.mp hwrites
      obtain ⟨setter, hsetter, rfl⟩ := Option.map_eq_some_iff.mp hnext
      obtain ⟨other, hother, -, hproperty, rfl⟩ := (setter?_eq_some_iff htype hnames).mp hsetter
      obtain ⟨property, value⟩ := write
      obtain rfl : other.property = property := hproperty
      rw [ih hrest, Setter.store, EntityRecord.typed?_set, List.reverse_cons, List.lookup_append,
        List.lookup_cons, List.lookup_nil, Option.map_or]
      by_cases hsame : other.property = column.property
      · obtain rfl := List.inj_on_of_nodup_map hnames hother hcolumn hsame
        cases rest.reverse.lookup other.property <;> simp [Setter.of]
      · have hne : (column.property == other.property) = false := beq_false_of_ne (Ne.symm hsame)
        simp [Setter.of, hsame, hne]

/-- A column holds what was stored last in it, in its own type. -/
theorem typed?_of_stored (htype : RecordType.of table = .ok type)
    (hconstructor : Constructor.of table container = .ok constructor)
    (hdistinct : (table.columns.map fun column => withoutRaw column.property).Nodup)
    (hcolumn : column ∈ table.columns)
    (hnullable : column.storedType.stripOption.2 = column.nullable)
    {origin : Origin α constructor} {writes : List (String × Value α)}
    {start record : Properties α} (hstart : origin.run? tableName = some start)
    (hwrites : writes.foldlM type.write? start = some record) :
    record.typed? column.property =
      (lastStored? origin writes column).map (Typed.mk column.storedType) := by
  rw [typed?_of_writes htype (nodup_properties hdistinct) hcolumn hwrites, lastStored?,
    Option.map_or]
  congr 1
  cases origin with
  | new =>
      cases hstart
      rfl
  | call actuals => exact typed?_of_run hconstructor hdistinct hcolumn hnullable hstart

end Written

/-! ### Reads -/

/-- What is shown of the value of a column: of a nullable reference the record that it holds, if it
holds one, and of any other column the value itself. -/
def shown? (column : Column) (value : Value α) : Option (Value α) :=
  if column.isReference && column.nullable then value.content? else some value

theorem Getter.read_eq (column : Column) (record : Properties α) :
    (Getter.of column).read record =
      (record.get? column.storedType column.property).bind (shown? column) := by
  rw [Getter.read, Getter.of]
  cases record.get? column.storedType column.property with
  | none => rfl
  | some value =>
      rw [Option.bind_some, shown?]
      cases column.isReference && column.nullable with
      | false => rfl
      | true => cases value <;> rfl

theorem Getter.read_of {column : Column} {record : Properties α} {value : Option (Value α)}
    (hvalue : record.typed? column.property = value.map (Typed.mk column.storedType)) :
    (Getter.of column).read record = value.bind (shown? column) := by
  have hget : record.get? column.storedType column.property = value := by
    rw [EntityRecord.typed?] at hvalue
    rw [EntityRecord.get?, hvalue]
    cases value with
    | none => rfl
    | some value => simp
  rw [read_eq, hget]

/-- The type as which a getter reads what is stored: one that reads through an optional record
writes the option down by itself. -/
def Getter.downcastType (getter : Getter) : Node :=
  if getter.readsThrough then optionOf getter.readType else getter.storedType

theorem Getter.downcastType_of (column : Column) :
    (Getter.of column).downcastType = column.storedType := by
  rw [downcastType, Getter.of, Column.isReference, Column.readType, Column.storedType]
  cases column.reference with
  | none => rfl
  | some reference => cases column.nullable <;> rfl

end EntityTables.Generated
