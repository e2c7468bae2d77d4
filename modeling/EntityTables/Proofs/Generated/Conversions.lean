import EntityTables.Proofs.Generated.Totality
import EntityTables.Proofs.Generated.Writes
import EntityTables.Proofs.Schema.Columns

/-!
# Conversions of structs

A struct moves the fields that are columns into a record and takes them back from it, each under its
name and with its type. Taking removes a field from the record, which changes nothing for the fields
after it, because their names differ. So a record that a struct was moved into gives it back, but
for the fields that are no columns, and a record gives none only if a column is missing in it.
-/

namespace EntityTables.Generated

open EntityTables.Syntax EntityTables.Schema

variable {α : Type}

theorem apart_of_nodup {field : MovedField} {rest : List MovedField}
    (hnames : ((field :: rest).map (·.name)).Nodup) :
    (∀ other ∈ rest, other.name ≠ field.name) ∧ (rest.map (·.name)).Nodup := by
  obtain ⟨hfresh, hrest⟩ := List.nodup_cons.mp hnames
  exact ⟨fun other hmem heq => hfresh (List.mem_map.mpr ⟨other, hmem, heq⟩), hrest⟩

/-! ### Moving fields into a record -/

/-- What a property is set to by fields that move into a record. -/
def movedTyped? (moved : List MovedField) (fields : Fields α) (property : String) :
    Option (Typed Node (Value α)) :=
  (moved.find? (·.name == property)).bind fun field =>
    (fields.lookup field.name).map (Typed.mk field.type)

/-- Fields that are all given move into a record, and nothing else is set in it. -/
theorem exists_foldlM_set {moved : List MovedField} {fields : Fields α}
    (hnames : (moved.map (·.name)).Nodup)
    (hgiven : ∀ field ∈ moved, (fields.lookup field.name).isSome) (start : Properties α) :
    ∃ record, moved.foldlM (fun record field =>
        (fields.lookup field.name).map (record.set field.name field.type)) start = some record ∧
      record.table = start.table ∧ ∀ property, record.typed? property =
        (movedTyped? moved fields property).or (start.typed? property) := by
  induction moved generalizing start with
  | nil => exact ⟨start, rfl, rfl, fun _ => rfl⟩
  | cons field rest ih =>
      obtain ⟨hfresh, hrest⟩ := apart_of_nodup hnames
      obtain ⟨value, hvalue⟩ := Option.isSome_iff_exists.mp (hgiven field List.mem_cons_self)
      obtain ⟨record, hrecord, htable, htyped⟩ := ih hrest
        (fun other hmem => hgiven other (List.mem_cons_of_mem _ hmem))
        (start.set field.name field.type value)
      refine ⟨record, ?_, htable, fun property => ?_⟩
      · rw [List.foldlM_cons, hvalue]
        exact hrecord
      · rw [htyped, EntityRecord.typed?_set, movedTyped?, movedTyped?, List.find?_cons]
        by_cases hsame : field.name = property
        · subst hsame
          have hlater : rest.find? (·.name == field.name) = none :=
            List.find?_eq_none.mpr fun other hmem hother =>
              hfresh other hmem (beq_iff_eq.mp hother)
          simp [hlater, hvalue]
        · have hskip : (field.name == property) = false := beq_false_of_ne hsame
          simp [hsame, hskip]

/-! ### Taking fields from a record -/

theorem takeFields_congr {moved : List MovedField} (hnames : (moved.map (·.name)).Nodup)
    {first second : Properties α} (hsame : ∀ field ∈ moved,
      first.get? field.type field.name = second.get? field.type field.name) :
    takeFields first moved = takeFields second moved := by
  induction moved generalizing first second with
  | nil => rfl
  | cons field rest ih =>
      obtain ⟨hfresh, hrest⟩ := apart_of_nodup hnames
      have hfield := hsame field List.mem_cons_self
      cases hget : second.get? field.type field.name with
      | none =>
          rw [takeFields, takeFields, EntityRecord.take_of_get?_eq_none hget,
            EntityRecord.take_of_get?_eq_none (hfield.trans hget)]
      | some value =>
          rw [takeFields, takeFields, EntityRecord.take_of_get? hget,
            EntityRecord.take_of_get? (hfield.trans hget)]
          dsimp only
          refine congrArg _ (ih hrest fun other hmem => ?_)
          have hne := hfresh other hmem
          rw [EntityRecord.get?_erase_of_ne hne, EntityRecord.get?_erase_of_ne hne]
          exact hsame other (List.mem_cons_of_mem _ hmem)

/-- Every field is taken as if the record were still whole. -/
theorem takeFields_cons {field : MovedField} {rest : List MovedField}
    (hnames : ((field :: rest).map (·.name)).Nodup) (record : Properties α) :
    takeFields record (field :: rest) =
      (record.get? field.type field.name).bind fun value =>
        (takeFields record rest).map ((field.name, value) :: ·) := by
  obtain ⟨hfresh, hrest⟩ := apart_of_nodup hnames
  rw [takeFields]
  cases hget : record.get? field.type field.name with
  | none =>
      rw [EntityRecord.take_of_get?_eq_none hget]
      rfl
  | some value =>
      rw [EntityRecord.take_of_get? hget]
      exact congrArg (Option.map ((field.name, value) :: ·)) (takeFields_congr hrest
        fun other hmem => EntityRecord.get?_erase_of_ne (hfresh other hmem))

/-- Fields are taken unless one of them is missing or has another type. -/
theorem takeFields_eq_none_iff {moved : List MovedField} (hnames : (moved.map (·.name)).Nodup)
    {record : Properties α} : takeFields record moved = none ↔
      ∃ field ∈ moved, record.get? field.type field.name = none := by
  induction moved with
  | nil => simp [takeFields]
  | cons field rest ih =>
      have hrest := ih (List.nodup_cons.mp hnames).2
      rw [takeFields_cons hnames, List.exists_mem_cons_iff, ← hrest]
      cases record.get? field.type field.name <;> simp

/-- Each field that is taken has the value that the record keeps under its name. -/
theorem takeFields_eq_some {moved : List MovedField} (hnames : (moved.map (·.name)).Nodup)
    {record : Properties α} {taken : Fields α} (htaken : takeFields record moved = some taken) :
    taken.map (·.1) = moved.map (·.name) ∧ ∀ field ∈ moved,
      taken.lookup field.name = record.get? field.type field.name := by
  induction moved generalizing taken with
  | nil =>
      cases htaken
      exact ⟨rfl, fun _ hmem => absurd hmem List.not_mem_nil⟩
  | cons field rest ih =>
      obtain ⟨hfresh, hrest⟩ := apart_of_nodup hnames
      rw [takeFields_cons hnames] at htaken
      obtain ⟨value, hvalue, htaken⟩ := Option.bind_eq_some_iff.mp htaken
      obtain ⟨others, hothers, rfl⟩ := Option.map_eq_some_iff.mp htaken
      obtain ⟨hkeys, hlookup⟩ := ih hrest hothers
      refine ⟨by rw [List.map_cons, List.map_cons, hkeys], fun other hmem => ?_⟩
      rcases List.mem_cons.mp hmem with rfl | hmem
      · rw [List.lookup_cons, beq_self_eq_true, hvalue]
      · rw [List.lookup_cons, beq_false_of_ne (hfresh other hmem)]
        exact hlookup other hmem

/-! ### The fields of a struct -/

/-- A value of a struct: one value for each of its fields, in any order. -/
def IsValueOf (declaration : Declaration) (fields : Fields α) : Prop :=
  (fields.map (·.1)).Perm (declaration.properties.map (·.name))

/-- A field that the table of its struct has a column for. -/
def IsColumnField (table : Table) (field : Property) : Prop :=
  ∃ column ∈ table.columns, column.property = field.name

theorem isColumnField_iff {table : Table} {field : Property} :
    IsColumnField table field ↔ (table.columnFor? field.name).isSome := by
  rw [TableOf.columnFor?, List.find?_isSome]
  simp [IsColumnField]

instance (table : Table) : DecidablePred (IsColumnField table) :=
  fun _ => decidable_of_iff _ isColumnField_iff.symm

section Fields

variable {table : Table} {declaration : Declaration} {allowReflection : Bool}
  {conversion : Conversion} {field : Property}

/-- A table has columns for the eligible fields of its struct. -/
theorem isColumnField_iff_eligible {resolver : Resolver} {key : Key}
    (hok : rebuild resolver [] key = .ok table)
    (hdeclared : resolver.unit.get? key = some declaration)
    (hnames : (declaration.properties.map (·.name)).Nodup)
    (hfield : field ∈ declaration.properties) :
    IsColumnField table field ↔ field.Eligible declaration := by
  obtain ⟨kind, resolve, hcolumns, -⟩ := exists_mapM_of_rebuild hdeclared hok
  have heligible : field ∈ eligibleProperties declaration ↔ field.Eligible declaration := by
    rw [eligibleProperties_eq]
    simp [hfield]
  rw [← heligible]
  constructor
  · rintro ⟨column, hcolumn, hname⟩
    obtain ⟨property, hproperty, hbuilt⟩ := exists_of_mem_mapM_ok hcolumns hcolumn
    have hmem := mem_eligibleProperties_of_mem_ordered hproperty
    rwa [← List.inj_on_of_nodup_map hnames (List.mem_of_mem_filter hmem) hfield
      ((of_columnOf hbuilt).name.symm.trans hname)]
  · intro hmem
    have hordered : field ∈ orderedProperties resolver.unit declaration :=
      mem_orderedProperties_of_mem_eligible (hnames.sublist (List.filter_sublist.map _)) hmem
    obtain ⟨column, hcolumn, hbuilt⟩ := exists_mem_of_mapM_ok hcolumns hordered
    exact ⟨column, hcolumn, (of_columnOf hbuilt).name⟩

/-- The fields that are columns move, and the others take their default, if that is allowed for
those that hold a value. -/
theorem conversion_eq_ok (hok : Conversion.of table declaration allowReflection = .ok conversion) :
    conversion.moved = (declaration.properties.filter (IsColumnField table)).map
        (fun field => ⟨field.name, field.type⟩) ∧
      conversion.defaulted =
        if allowReflection = true ∨ ∀ field ∈ declaration.properties,
            IsColumnField table field ∨ field.backed = false
        then some ((declaration.properties.filter (¬IsColumnField table ·)).map (·.name))
        else none := by
  obtain ⟨tableType, -, hok⟩ := bind_eq_ok_iff.mp hok
  have hcolumns : (fun field : Property => (table.columnFor? field.name).isSome) =
      fun field => decide (IsColumnField table field) := by
    funext field
    rw [Bool.eq_iff_iff, decide_eq_true_iff, isColumnField_iff]
  simp only [List.partition_eq_filter_filter, hcolumns] at hok
  cases hok
  refine ⟨rfl, if_congr ?_ ?_ rfl⟩
  · rw [Bool.or_eq_true, List.all_eq_true]
    refine or_congr_right (forall_congr' fun field => ?_)
    rw [List.mem_filter, Function.comp_apply, Bool.not_eq_true', Bool.not_eq_true',
      decide_eq_false_iff_not, and_imp]
    exact imp_congr_right fun _ => or_iff_not_imp_left.symm
  · refine congrArg (some ∘ List.map Property.name) (List.filter_congr fun field _ => ?_)
    exact decide_not.symm

/-- Fields that move have different names if all fields do. -/
theorem nodup_moved (hok : Conversion.of table declaration allowReflection = .ok conversion)
    (hnames : (declaration.properties.map (·.name)).Nodup) :
    (conversion.moved.map (·.name)).Nodup := by
  rw [(conversion_eq_ok hok).1, List.map_map]
  exact hnames.sublist (List.filter_sublist.map _)

theorem mem_moved_iff (hok : Conversion.of table declaration allowReflection = .ok conversion)
    {moved : MovedField} : moved ∈ conversion.moved ↔
      ∃ field ∈ declaration.properties, IsColumnField table field ∧
        moved = ⟨field.name, field.type⟩ := by
  rw [(conversion_eq_ok hok).1]
  simp [and_assoc, eq_comm]

/-- Every field is in a value of its struct. -/
theorem IsValueOf.exists_lookup {fields : Fields α} (hvalue : IsValueOf declaration fields)
    (hfield : field ∈ declaration.properties) :
    ∃ value, fields.lookup field.name = some value := by
  have hmem : field.name ∈ fields.map (·.1) := hvalue.mem_iff.mpr (List.mem_map_of_mem hfield)
  obtain ⟨entry, hentry, hname⟩ := List.mem_map.mp hmem
  rw [← Option.isSome_iff_exists, List.lookup_isSome_iff]
  exact ⟨entry, hentry, beq_iff_eq.mpr hname.symm⟩

/-- A struct moves exactly its columns into a record, each with its type. -/
theorem exists_intoRecord (hok : Conversion.of table declaration allowReflection = .ok conversion)
    (hnames : (declaration.properties.map (·.name)).Nodup) {fields : Fields α}
    (hvalue : IsValueOf declaration fields) (tableName : String) :
    ∃ record, conversion.intoRecord tableName fields = some record ∧ record.table = tableName ∧
      (∀ property, record.contains property = true ↔
        ∃ field ∈ declaration.properties, IsColumnField table field ∧ field.name = property) ∧
      ∀ field ∈ declaration.properties, IsColumnField table field →
        ∃ value, fields.lookup field.name = some value ∧
          record.typed? field.name = some ⟨field.type, value⟩ := by
  have hmoved := nodup_moved hok hnames
  obtain ⟨record, hrecord, htable, htyped⟩ := exists_foldlM_set hmoved
    (fun moved hmem => by
      obtain ⟨field, hfield, -, rfl⟩ := (mem_moved_iff hok).mp hmem
      exact Option.isSome_iff_exists.mpr (hvalue.exists_lookup hfield))
    (EntityRecord.empty tableName : Properties α)
  have hcolumn : ∀ field ∈ declaration.properties, IsColumnField table field →
      ∃ value, fields.lookup field.name = some value ∧
        record.typed? field.name = some ⟨field.type, value⟩ := by
    intro field hfield hcolumn
    obtain ⟨value, hlookup⟩ := hvalue.exists_lookup hfield
    have hfound := find?_key_of_mem MovedField.name hmoved
      ((mem_moved_iff hok).mpr ⟨field, hfield, hcolumn, rfl⟩)
    refine ⟨value, hlookup, ?_⟩
    rw [htyped, movedTyped?, hfound, Option.bind_some, hlookup]
    rfl
  refine ⟨record, hrecord, htable, fun property => ⟨fun hcontains => ?_, ?_⟩, hcolumn⟩
  · rw [EntityRecord.contains_eq_isSome, htyped, EntityRecord.typed?_empty, Option.or_none,
      Option.isSome_iff_exists] at hcontains
    obtain ⟨typed, htyped⟩ := hcontains
    obtain ⟨moved, hfound, -⟩ := Option.bind_eq_some_iff.mp htyped
    obtain ⟨field, hfield, hcolumn, rfl⟩ :=
      (mem_moved_iff hok).mp (List.mem_of_find?_eq_some hfound)
    exact ⟨field, hfield, hcolumn, beq_iff_eq.mp (List.find?_some hfound :)⟩
  · rintro ⟨field, hfield, hisColumn, rfl⟩
    obtain ⟨value, -, hset⟩ := hcolumn field hfield hisColumn
    rw [EntityRecord.contains_eq_isSome, hset]
    rfl

/-- A record gives no struct if a column is missing or has another type. -/
theorem fromRecord?_eq_none_iff
    (hok : Conversion.of table declaration allowReflection = .ok conversion)
    (hnames : (declaration.properties.map (·.name)).Nodup) (hsome : conversion.defaulted.isSome)
    (fill : String → Value α) (record : Properties α) :
    conversion.fromRecord? fill record = none ↔
      ∃ field ∈ declaration.properties, IsColumnField table field ∧
        ∀ value, record.typed? field.name ≠ some ⟨field.type, value⟩ := by
  obtain ⟨defaulted, hdefaulted⟩ := Option.isSome_iff_exists.mp hsome
  have htaken : conversion.fromRecord? fill record = none ↔
      takeFields record conversion.moved = none := by
    rw [Conversion.fromRecord?, hdefaulted]
    cases takeFields record conversion.moved <;> simp
  rw [htaken, takeFields_eq_none_iff (nodup_moved hok hnames)]
  constructor
  · rintro ⟨moved, hmem, hnone⟩
    obtain ⟨field, hfield, hcolumn, rfl⟩ := (mem_moved_iff hok).mp hmem
    exact ⟨field, hfield, hcolumn, EntityRecord.get?_eq_none_iff.mp hnone⟩
  · rintro ⟨field, hfield, hcolumn, hnone⟩
    exact ⟨_, (mem_moved_iff hok).mpr ⟨field, hfield, hcolumn, rfl⟩,
      EntityRecord.get?_eq_none_iff.mpr hnone⟩

/-- What is taken from a record has no field but columns. -/
theorem lookup_taken_of_not_column
    (hok : Conversion.of table declaration allowReflection = .ok conversion)
    (hnames : (declaration.properties.map (·.name)).Nodup) {taken : Fields α}
    (hkeys : taken.map (·.1) = conversion.moved.map (·.name))
    (hfield : field ∈ declaration.properties) (hcolumn : ¬IsColumnField table field) :
    taken.lookup field.name = none := by
  rw [List.lookup_eq_none_iff]
  intro entry hentry
  rw [bne_iff_ne]
  intro hsame
  have hkey : entry.1 ∈ conversion.moved.map (·.name) := hkeys ▸ List.mem_map_of_mem hentry
  obtain ⟨moved, hmoved, hname⟩ := List.mem_map.mp hkey
  obtain ⟨other, hmem, hisColumn, rfl⟩ := (mem_moved_iff hok).mp hmoved
  obtain rfl := List.inj_on_of_nodup_map hnames hmem hfield (hname.trans hsame.symm)
  exact hcolumn hisColumn

/-- A struct that comes from a record has what was taken and defaults in the other fields. -/
theorem exists_taken (hok : Conversion.of table declaration allowReflection = .ok conversion)
    {fill : String → Value α} {record : Properties α} {back : Fields α}
    (hback : conversion.fromRecord? fill record = some back) :
    ∃ taken, takeFields record conversion.moved = some taken ∧
      back = taken ++ ((declaration.properties.filter (¬IsColumnField table ·)).map (·.name)).map
        fun name => (name, fill name) := by
  obtain ⟨defaulted, hdefaulted, hback⟩ := Option.bind_eq_some_iff.mp hback
  obtain ⟨taken, htaken, hback⟩ := Option.bind_eq_some_iff.mp hback
  cases hback
  rw [(conversion_eq_ok hok).2] at hdefaulted
  split at hdefaulted
  · cases hdefaulted
    exact ⟨taken, htaken, rfl⟩
  · cases hdefaulted

/-- The struct that a record gives has the values of the record in its columns and defaults in the
other fields. -/
theorem fromRecord?_eq_some
    (hok : Conversion.of table declaration allowReflection = .ok conversion)
    (hnames : (declaration.properties.map (·.name)).Nodup) {fill : String → Value α}
    {record : Properties α} {back : Fields α}
    (hback : conversion.fromRecord? fill record = some back) :
    IsValueOf declaration back ∧ ∀ field ∈ declaration.properties, back.lookup field.name =
      if IsColumnField table field then record.get? field.type field.name
      else some (fill field.name) := by
  obtain ⟨taken, htaken, rfl⟩ := exists_taken hok hback
  obtain ⟨hkeys, hlookup⟩ := takeFields_eq_some (nodup_moved hok hnames) htaken
  refine ⟨?_, fun field hfield => ?_⟩
  · have hsplit := (List.filter_append_perm (IsColumnField table) declaration.properties).map
      Property.name
    rw [List.map_append] at hsplit
    rw [IsValueOf, List.map_append, hkeys, (conversion_eq_ok hok).1, List.map_map, List.map_map]
    simpa [Function.comp_def] using hsplit
  · rw [List.lookup_append]
    by_cases hcolumn : IsColumnField table field
    · have hmem := (mem_moved_iff hok).mpr ⟨field, hfield, hcolumn, rfl⟩
      rw [if_pos hcolumn, hlookup _ hmem]
      cases hget : record.get? field.type field.name with
      | some value => rfl
      | none =>
          have hnone := (takeFields_eq_none_iff (nodup_moved hok hnames)).mpr ⟨_, hmem, hget⟩
          cases hnone.symm.trans htaken
    · have hother : field.name ∈
          (declaration.properties.filter (¬IsColumnField table ·)).map (·.name) :=
        List.mem_map_of_mem (List.mem_filter.mpr ⟨hfield, decide_eq_true hcolumn⟩)
      rw [if_neg hcolumn, lookup_taken_of_not_column hok hnames hkeys hfield hcolumn,
        Option.none_or, List.lookup_graph fill hother]

/-- A record that holds the columns of a value gives the value back, but for the other fields. -/
theorem exists_fromRecord? (hok : Conversion.of table declaration allowReflection = .ok conversion)
    (hnames : (declaration.properties.map (·.name)).Nodup) (hsome : conversion.defaulted.isSome)
    {fields : Fields α} {record : Properties α}
    (htyped : ∀ field ∈ declaration.properties, IsColumnField table field →
      ∃ value, fields.lookup field.name = some value ∧
        record.typed? field.name = some ⟨field.type, value⟩) (fill : String → Value α) :
    ∃ back, conversion.fromRecord? fill record = some back ∧ IsValueOf declaration back ∧
      ∀ field ∈ declaration.properties, back.lookup field.name =
        if IsColumnField table field then fields.lookup field.name
        else some (fill field.name) := by
  cases hback : conversion.fromRecord? fill record with
  | none =>
      obtain ⟨field, hfield, hcolumn, hmissing⟩ :=
        (fromRecord?_eq_none_iff hok hnames hsome fill record).mp hback
      obtain ⟨value, -, hset⟩ := htyped field hfield hcolumn
      exact absurd hset (hmissing value)
  | some back =>
      obtain ⟨hisValue, hlookup⟩ := fromRecord?_eq_some hok hnames hback
      refine ⟨back, rfl, hisValue, fun field hfield => ?_⟩
      rw [hlookup field hfield]
      by_cases hcolumn : IsColumnField table field
      · obtain ⟨value, hgiven, hset⟩ := htyped field hfield hcolumn
        rw [if_pos hcolumn, if_pos hcolumn, hgiven, EntityRecord.get?_eq_some_iff.mpr hset]
      · rw [if_neg hcolumn, if_neg hcolumn]

end Fields

end EntityTables.Generated
