import EntityTables.Proofs.Generated.RecordProgram

/-!
# Records that generated code makes

When generated code runs, constructors and setters make records out of records: what is stored in a
reference was made for its target before. So all that a record holds fits its column, at whatever
depth.
-/

namespace EntityTables.Generated

open EntityTables.Syntax EntityTables.Schema EntityTables.Call

variable {α : Type}

/-- The record that a value holds, perhaps as an optional one. -/
def Value.heldRecord? : Value α → Option (Properties α)
  | .record content => some content
  | .present (.record content) => some content
  | _ => none

mutual

/-- A record that running code makes for a table: it begins without properties or with what the
implementation of the constructor stores, and setters write to it. All that is stored in a column
fits it. -/
inductive Built (generated : Program α) (container : String) : Table → Properties α → Prop
  | made {table : Table} {type : RecordType} {constructor : Constructor} {depth : Nat}
      {origin : Origin α constructor} {writes : List (Column × Value α)}
      {start record : Properties α} (htype : RecordType.of table = .ok type)
      (hconstructor : Constructor.of table container = .ok constructor)
      (hstart : origin.Begins generated (depth + 2) type start)
      (hcolumns : ∀ write ∈ writes, write.1 ∈ table.columns ∧ write.1.mutable = true)
      (hrecord : generated.write? (depth + 2) type writes start = some record)
      (hfits : ∀ column ∈ table.columns, ∀ value,
        origin.stored? column = some value ∨ (column, value) ∈ writes →
          Fits generated container column value) :
      Built generated container table record

/-- A value of the type of a column: any value for a plain one, and for a reference a record that is
made for its target, inside an option if the column is nullable. -/
inductive Fits (generated : Program α) (container : String) : Column → Value α → Prop
  | plain {column : Column} {value : Value α} (hplain : column.reference = none) :
      Fits generated container column value
  | record {column : Column} {reference : Reference} {content : Properties α}
      (hreference : column.reference = some reference) (hnullable : column.nullable = false)
      (hbuilt : Built generated container reference.table content) :
      Fits generated container column (.record content)
  | absent {column : Column} {reference : Reference}
      (hreference : column.reference = some reference) (hnullable : column.nullable = true) :
      Fits generated container column .absent
  | present {column : Column} {reference : Reference} {content : Properties α}
      (hreference : column.reference = some reference) (hnullable : column.nullable = true)
      (hbuilt : Built generated container reference.table content) :
      Fits generated container column (.present (.record content))

end

section Shown

variable {generated : Program α} {container : String} {column : Column} {reference : Reference}
  {value : Value α}

/-- What is shown of a reference is the record that it holds. -/
theorem Fits.shown?_eq (hfits : Fits generated container column value)
    (hreference : column.reference = some reference) :
    shown? column value = value.heldRecord?.map .record := by
  have hreferring : column.isReference = true := by rw [Column.isReference, hreference]; rfl
  cases hfits with
  | plain hplain => cases hplain.symm.trans hreference
  | record _ hnullable => simp [shown?, hreferring, hnullable, Value.heldRecord?]
  | absent _ hnullable =>
      simp [shown?, hreferring, hnullable, Value.content?, Value.heldRecord?]
  | present _ hnullable =>
      simp [shown?, hreferring, hnullable, Value.content?, Value.heldRecord?]

theorem Fits.built (hfits : Fits generated container column value)
    (hreference : column.reference = some reference) {content : Properties α}
    (hcontent : value.heldRecord? = some content) :
    Built generated container reference.table content := by
  cases hfits with
  | plain hplain => cases hplain.symm.trans hreference
  | record hother _ hbuilt =>
      cases hother.symm.trans hreference
      cases hcontent
      exact hbuilt
  | absent => cases hcontent
  | present hother _ hbuilt =>
      cases hother.symm.trans hreference
      cases hcontent
      exact hbuilt

end Shown

section Written

variable {generated : Program α} {container : String} {table : Table} {type : RecordType}
  {column : Column} {reference : Reference}

/-- Setters that run write to the properties of their columns. -/
theorem Running.write?_eq (hrunning : Running generated table type) (depth : Nat)
    {writes : List (Column × Value α)}
    (hcolumns : ∀ write ∈ writes, write.1 ∈ table.columns ∧ write.1.mutable = true)
    (record : Properties α) :
    generated.write? depth type writes record =
      (writes.map fun write => (write.1.property, write.2)).foldlM type.write? record := by
  have hnames := nodup_properties hrunning.distinct
  induction writes generalizing record with
  | nil => rfl
  | cons write rest ih =>
      obtain ⟨⟨hcolumn, hmutable⟩, hrest⟩ := List.forall_mem_cons.mp hcolumns
      have hsetter : type.setter? write.1.property = some (.of write.1) :=
        (setter?_eq_some_iff hrunning.generatedFor hnames).mpr
          ⟨write.1, hcolumn, hmutable, rfl, rfl⟩
      rw [Program.write?, List.foldlM_cons, List.map_cons, List.foldlM_cons,
        hrunning.change?_eq hcolumn hmutable, RecordType.write?, hsetter]
      exact ih hrest _

/-- What a record that is made holds in a column fits the column, and its getter shows it. -/
theorem Built.fits_and_reads {resolver : Resolver} {key : Key} {record : Properties α}
    (hbuilt : Built generated container table record) (hrunning : Running generated table type)
    (hok : rebuild resolver [] key = .ok table) (hcolumn : column ∈ table.columns) :
    (∀ value, record.value? column.property = some value →
        Fits generated container column value) ∧
      (Getter.of column).read record =
        (record.value? column.property).bind (shown? column) := by
  have hresolved : ((resolveTable resolver key).run .empty).1 = .ok table := by
    rwa [resolveTable_empty]
  have hdistinct := hrunning.distinct
  obtain ⟨tableName, hnew⟩ := hrunning.starts
  cases hbuilt with
  | @made _ own constructor depth origin writes start _ htype hconstructor hstart hcolumns hrecord
      hfits =>
      obtain rfl : own = type := Except.ok.inj (htype.symm.trans hrunning.generatedFor)
      rw [hrunning.write?_eq _ hcolumns] at hrecord
      have htyped := typed?_of_stored htype hconstructor hdistinct hcolumn
        (nullable_of_resolved hresolved hcolumn)
        (run?_of_begins hconstructor htype hdistinct (hnew depth) hstart) hrecord
      rw [EntityRecord.value?_of_typed? htyped]
      refine ⟨fun value hstored => hfits column hcolumn value ?_, Getter.read_of htyped⟩
      rcases Option.or_eq_some_iff.mp hstored with hwritten | ⟨-, horigin⟩
      · obtain ⟨front, rest, hwrites, -⟩ := List.lookup_eq_some_iff.mp hwritten
        have hmem : (column.property, value) ∈
            writes.map fun write => (write.1.property, write.2) :=
          List.mem_reverse.mp (hwrites ▸ List.mem_append_right _ List.mem_cons_self)
        obtain ⟨⟨other, held⟩, hwrite, heq⟩ := List.mem_map.mp hmem
        obtain ⟨hproperty, rfl⟩ := Prod.mk.injEq _ _ _ _ ▸ heq
        rw [← List.inj_on_of_nodup_map (nodup_properties hdistinct) (hcolumns _ hwrite).1 hcolumn
          hproperty]
        exact Or.inr hwrite
      · exact Or.inl horigin

/-- A record can be made of values that fit columns which may change. -/
theorem exists_built (hrunning : Running generated table type) {constructor : Constructor}
    (hconstructor : Constructor.of table container = .ok constructor)
    {writes : List (Column × Value α)} (hwrites : ∀ write ∈ writes, write.1 ∈ table.columns ∧
      write.1.mutable = true ∧ Fits generated container write.1 write.2) :
    ∃ record, Built generated container table record ∧ ∀ column ∈ table.columns,
      record.value? column.property =
        (writes.map fun write => (write.1.property, write.2)).reverse.lookup column.property := by
  have hnames := nodup_properties hrunning.distinct
  obtain ⟨tableName, hnew⟩ := hrunning.starts
  have hcolumns : ∀ write ∈ writes, write.1 ∈ table.columns ∧ write.1.mutable = true :=
    fun write hmem => ⟨(hwrites write hmem).1, (hwrites write hmem).2.1⟩
  have hsome : ((writes.map fun write => (write.1.property, write.2)).foldlM type.write?
      (EntityRecord.empty tableName)).isSome := by
    rw [isSome_foldlM_write?_iff hrunning.generatedFor hnames, List.forall_mem_map]
    exact fun write hmem => ⟨write.1, (hcolumns write hmem).1, (hcolumns write hmem).2, rfl⟩
  obtain ⟨record, hrecord⟩ := Option.isSome_iff_exists.mp hsome
  have hstart : (Origin.new : Origin α constructor).Begins generated (0 + 2) type
      (.empty tableName) := hnew 0
  refine ⟨record, .made hrunning.generatedFor hconstructor hstart hcolumns
    ((hrunning.write?_eq _ hcolumns _).trans hrecord) fun column hcolumn value hstored => ?_,
    fun column hcolumn => ?_⟩
  · rcases hstored with horigin | hmem
    · cases horigin
    · exact (hwrites _ hmem).2.2
  · have htyped := typed?_of_writes hrunning.generatedFor hnames hcolumn hrecord
    rw [EntityRecord.typed?_empty, Option.or_none] at htyped
    exact EntityRecord.value?_of_typed? htyped

end Written

end EntityTables.Generated
