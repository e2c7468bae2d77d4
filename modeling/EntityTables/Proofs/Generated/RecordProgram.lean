import EntityTables.Proofs.Generated.ItemNames
import EntityTables.Proofs.Generated.ReadingBack
import EntityTables.Proofs.Generated.TableProgram

/-!
# Running record types

The methods of a record type in a program that has more types: its getters, its setters and its key
helpers are found by their names if these differ, whatever else the program has.
-/

namespace EntityTables.Generated

open EntityTables.Syntax EntityTables.Schema EntityTables.Call

variable {α : Type}

/-- The record type of a table is part of a program: its methods have different names, and a new
record is empty. -/
structure Running (generated : Program α) (table : Table) (type : RecordType) : Prop where
  generatedFor : RecordType.of table = .ok type
  names : (methodNames generated.items type.selfType).Nodup
  members : type.members.Sublist (ownMembers generated.items type.selfType)
  starts : ∃ tableName, ∀ depth, generated.call? (depth + 2) (.own type.selfType "new") [] =
    some (.value type.selfType (.record (.empty tableName)))

namespace Running

variable {generated : Program α} {table : Table} {type : RecordType} {column : Column}

theorem sublist_methodsOf (hrunning : Running generated table type) :
    (type.members.filterMap functionOf?).Sublist (methodsOf generated.items type.selfType) :=
  hrunning.members.filterMap functionOf?

/-- The properties of the columns differ, since getters are named after them. -/
theorem distinct (hrunning : Running generated table type) :
    (table.columns.map fun column => withoutRaw column.property).Nodup := by
  have hgetters : (type.getters.map Getter.function).Sublist
      (type.members.filterMap functionOf?) := by
    rw [RecordType.functions_members]
    exact (List.sublist_append_right _ _).trans
      ((List.sublist_append_left _ _).trans (List.sublist_append_left _ _))
  have hnames := hrunning.names.sublist ((hgetters.trans hrunning.sublist_methodsOf).map
    fun function : Function => withoutRaw function.signature.name)
  rwa [(getters_of_recordType hrunning.generatedFor).2.2.1, List.map_map, List.map_map] at hnames

theorem call_getter (hrunning : Running generated table type) (hcolumn : column ∈ table.columns)
    (depth : Nat) (content : Properties α) :
    generated.call? (depth + 1) (.own type.selfType column.property)
        [.value type.selfType (.record content)] =
      some (.ofOption column.readType ((Getter.of column).read content)) := by
  have hmem : (Getter.of column).function ∈ type.members.filterMap functionOf? := by
    rw [RecordType.functions_members, (getters_of_recordType hrunning.generatedFor).2.2.1]
    simp only [List.mem_append]
    exact Or.inl (Or.inl (Or.inr (List.mem_map_of_mem (List.mem_map_of_mem hcolumn))))
  have hcall := @call_of_mem α _ _ generated hrunning.names (hrunning.sublist_methodsOf.subset hmem) depth
    [.value type.selfType (.record content)]
  rw [run_getterFunction] at hcall
  exact hcall

theorem change?_eq (hrunning : Running generated table type) (hcolumn : column ∈ table.columns)
    (hmutable : column.mutable = true) (depth : Nat) (content : Properties α) (value : Value α) :
    generated.change? depth type.selfType (Setter.of column).method content value =
      some (content.set column.property column.storedType value) := by
  have hmem : (Setter.of column).function ∈ type.members.filterMap functionOf? := by
    rw [RecordType.functions_members, (getters_of_recordType hrunning.generatedFor).2.2.2]
    simp only [List.mem_append]
    exact Or.inl (Or.inr (List.mem_map_of_mem
      (List.mem_map_of_mem (List.mem_filter.mpr ⟨hcolumn, hmutable⟩))))
  have hfound := @method?_of_mem α _ _ generated hrunning.names (hrunning.sublist_methodsOf.subset hmem)
    selfByMutable rfl
  have hname : (Setter.of column).function.signature.name = (Setter.of column).method := rfl
  rw [hname] at hfound
  rw [Program.change?, hfound]
  simp only [Option.bind_eq_bind, Option.bind_some, Datum.passing, run_setterFunction]
  rfl

/-- A key helper asks the record that its getter shows. -/
theorem call_helper (hrunning : Running generated table type) {helper : KeyHelper}
    (hhelper : helper ∈ type.keyHelpers) {target : RecordType} {content : Properties α}
    {held : Option (Properties α)} {depth : Nat}
    (hget : generated.call? depth (.own type.selfType helper.property)
      [.value type.selfType (.record content)] =
        some (.ofOption target.selfType (held.map .record))) :
    generated.call? (depth + 1) (.own type.selfType helper.method)
        [.value type.selfType (.record content)] =
      held.elim (some .nothing) fun inner =>
        generated.call? depth (.own target.selfType helper.key)
          [.value target.selfType (.record inner)] := by
  have hmem : helper.function ∈ type.members.filterMap functionOf? := by
    rw [RecordType.functions_members]
    exact List.mem_append_right _ (List.mem_map_of_mem hhelper)
  have hcall := @call_of_mem α _ _ generated hrunning.names (hrunning.sublist_methodsOf.subset hmem) depth
    [.value type.selfType (.record content)]
  have hrun := @run_helperFunction α (generated.surroundings (generated.call? depth) type.selfType)
    type.selfType content helper target.selfType held rfl rfl hget
  exact hcall.trans hrun

end Running

/-- Where code is generated, the record types whose methods have different names run. -/
theorem running_of_mem {generated : Program α} {code : Code} (hitems : generated.items = code.items)
    {entry : TableCode} (hentry : entry ∈ code.tables) {type : RecordType}
    {constructor : Constructor} (hentity : entry.entity = .record type constructor) {table : Table}
    (htype : RecordType.of table = .ok type) (htableType : TableType.of table = .ok entry.tableType)
    (hnames : (methodNames code.items type.selfType).Nodup) : Running generated table type := by
  have hmembers : type.members.Sublist (ownMembers generated.items type.selfType) :=
    hitems ▸ sublist_ownMembers_record (mem_recordTypes hentry hentity)
  have hnew : type.newFunction ∈ methodsOf generated.items type.selfType := by
    refine (hmembers.filterMap functionOf?).subset ?_
    rw [RecordType.functions_members]
    exact List.mem_cons_self
  have hown : entry.tableType.name = type.tableType := by
    obtain ⟨tableType, hname, hmade⟩ := bind_eq_ok_iff.mp htype
    obtain ⟨_, -, hmade⟩ := bind_eq_ok_iff.mp hmade
    cases hmade
    exact Except.ok.inj ((name_of_tableType htableType).symm.trans hname)
  obtain ⟨named, hnamed⟩ : ∃ named, code.tableTypes.find? (·.name == type.tableType) = some named := by
    rw [← Option.isSome_iff_exists, List.find?_isSome]
    exact ⟨_, List.mem_map_of_mem hentry, beq_iff_eq.mpr hown⟩
  rw [← hitems] at hnames
  refine ⟨htype, hnames, hmembers, named.tableName, fun depth => ?_⟩
  have hcall := @call_of_mem α _ _ generated hnames hnew (depth + 1) []
  rw [RecordType.run_newFunction rfl (tableType_ne_self htype)
    (call_tableName hitems hnamed depth)] at hcall
  exact hcall

end EntityTables.Generated
