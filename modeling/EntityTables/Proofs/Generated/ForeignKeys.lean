import EntityTables.Proofs.Database.Statement
import EntityTables.Proofs.Generated.TableProgram
import Mathlib.Data.List.Forall2

/-!
# Foreign keys

The statement of a table names the targets of its foreign keys by what their table types have as the
name of the table, and never with the catalog and the schema, which the statement that creates a
target does name. The column that a foreign key names is the only key column of the target.
-/

namespace EntityTables.Generated

open EntityTables.Syntax EntityTables.Schema

/-! ### Table types and their tables -/

section Described

variable {table : Table} {type : TableType} {column : Column} {accessor : ColumnAccessor}
  {reference : Reference} {method : String}

theorem exists_getElem?_of_forall₂ {α β : Type} {R : α → β → Prop} {items : List α}
    {results : List β} (hrelated : List.Forall₂ R items results) {index : Nat} {item : α}
    (hitem : items[index]? = some item) :
    ∃ result, results[index]? = some result ∧ R item result := by
  induction hrelated generalizing index with
  | nil => simp at hitem
  | cons hhead htail ih =>
      cases index with
      | zero =>
          cases hitem
          exact ⟨_, rfl, hhead⟩
      | succ index => exact ih hitem

/-- What the accessor of a column takes from it. -/
structure Accesses (column : Column) (accessor : ColumnAccessor) : Prop where
  name : accessor.column = column.name
  primaryKey : accessor.primaryKey = column.primaryKey
  reference : column.reference.mapM ForeignKey.of = .ok accessor.reference

theorem accesses_of_ok (hok : ColumnAccessor.of column method = .ok accessor) :
    Accesses column accessor := by
  obtain ⟨reference, hreference, hok⟩ := bind_eq_ok_iff.mp hok
  cases hok
  exact ⟨rfl, rfl, hreference⟩

theorem Accesses.foreignKey {keyColumn : Column} {name : String}
    (haccesses : Accesses column accessor) (hreference : column.reference = some reference)
    (hkeyColumn : reference.keyColumn? = some keyColumn)
    (hname : identifier reference.table reference.table.typeName = .ok name) :
    accessor.reference = some ⟨name, keyColumn.name⟩ := by
  have hmapped := haccesses.reference
  rw [hreference, Option.mapM_some, ForeignKey.of, hname, hkeyColumn] at hmapped
  exact (Except.ok.inj hmapped).symm

theorem accesses_of_zip {columns : List Column} {methods : List String}
    {accessors : List ColumnAccessor} (hlength : columns.length = methods.length)
    (hok : (columns.zip methods).mapM (fun (column, method) => ColumnAccessor.of column method) =
      .ok accessors) : List.Forall₂ Accesses columns accessors := by
  rw [mapM_eq_ok_iff] at hok
  have hcolumns : columns = (columns.zip methods).map Prod.fst :=
    (List.map_fst_zip hlength.le).symm
  rw [hcolumns, List.forall₂_map_left_iff]
  exact hok.imp fun _ _ => accesses_of_ok

/-- What a table type takes from its table. -/
structure Describes (type : TableType) (table : Table) : Prop where
  typeName : identifier table table.typeName = .ok type.name
  tableName : type.tableName = table.name
  catalog : type.catalog = table.catalog
  schema : type.schema = table.schema
  accessors : List.Forall₂ Accesses table.columns type.accessors

theorem describes_of_ok (hok : TableType.of table = .ok type) : Describes type table := by
  obtain ⟨name, hname, hok⟩ := bind_eq_ok_iff.mp hok
  obtain ⟨methods, hmethods, hok⟩ := bind_eq_ok_iff.mp hok
  obtain ⟨accessors, haccessors, hok⟩ := bind_eq_ok_iff.mp hok
  cases hok
  exact ⟨hname, rfl, rfl, rfl,
    accesses_of_zip (mapM_eq_ok_iff.mp hmethods).length_eq haccessors⟩

theorem Describes.qualifiedName (hdescribes : Describes type table) (types : List TableType)
    (sqlText : SqlTypeRef → String) :
    (type.describe types sqlText).qualifiedName = table.qualifiedName := by
  unfold Database.Table.qualifiedName TableOf.qualifiedName
  rw [← hdescribes.tableName, ← hdescribes.catalog, ← hdescribes.schema]
  rfl

theorem info_describe (types : List TableType) (sqlText : SqlTypeRef → String)
    (tableName : String) (accessor : ColumnAccessor) :
    (accessor.describe types sqlText tableName).info =
      { name := accessor.column
        sqlType := sqlText accessor.sqlType
        primaryKey := accessor.primaryKey
        nullable := accessor.nullable
        reference := accessor.reference.map fun key =>
          ⟨((types.find? (·.name == key.tableType)).map (·.tableName)).getD "", key.column⟩ } := by
  obtain ⟨method, column, sqlType, primaryKey, nullable, reference⟩ := accessor
  cases primaryKey <;> cases nullable <;> cases reference <;> rfl

/-- What the table that a table type describes has of a column. -/
structure Shows (column : Column) (info : Database.ColumnInfo) : Prop where
  name : info.name = column.name
  primaryKey : info.primaryKey = column.primaryKey

theorem shows_of_describes (hdescribes : Describes type table) (types : List TableType)
    (sqlText : SqlTypeRef → String) :
    List.Forall₂ Shows table.columns (type.describe types sqlText).columns := by
  rw [TableType.describe, List.forall₂_map_right_iff]
  refine hdescribes.accessors.imp fun column accessor haccesses => ?_
  rw [info_describe]
  exact ⟨haccesses.name, haccesses.primaryKey⟩

/-- The key column of a table is the key column of the table that its type describes. -/
theorem primaryKeys_describe {keyColumn : Column} (hdescribes : Describes type table)
    (hkeys : table.primaryKeys = [keyColumn]) (types : List TableType)
    (sqlText : SqlTypeRef → String) :
    ∃ info, (type.describe types sqlText).primaryKeys = [info] ∧ info.name = keyColumn.name := by
  have hshown : List.Forall₂ Shows table.primaryKeys (type.describe types sqlText).primaryKeys := by
    apply List.rel_filter _ (shows_of_describes hdescribes types sqlText)
    intro column info hshows
    exact iff_of_eq (congrArg (· = true) hshows.primaryKey.symm)
  rw [hkeys] at hshown
  cases hinfos : (type.describe types sqlText).primaryKeys with
  | nil =>
      rw [hinfos] at hshown
      cases hshown
  | cons info rest =>
      rw [hinfos] at hshown
      obtain ⟨hshows, hrest⟩ := List.forall₂_cons.mp hshown
      cases hrest
      exact ⟨info, rfl, hshows.name⟩

end Described

/-- The table that the code of an entry describes, where SQL types have the given texts. -/
def TableCode.described (code : Code) (sqlText : SqlTypeRef → String) (entry : TableCode) :
    Database.Table := entry.tableType.describe code.tableTypes sqlText

/-- Table types have different names, and so have the methods of each, as a compiler wants them. -/
structure TableTypesApart (code : Code) : Prop where
  names : (code.tableTypes.map (·.name)).Nodup
  methods : ∀ type ∈ code.tableTypes, (methodNames code.items type.selfType).Nodup

section Generate

variable {α : Type} {unit : SourceUnit} {options : Options} {naming : Naming.Registry}
  {container : String} {code : Code} {owner : TableCode} {column : Column} {reference : Reference}

/-- The target of a reference has code of its own, and one key column. -/
theorem exists_target_code (hcode : generate unit options naming container = .ok code)
    (howner : owner ∈ code.tables) (hcolumn : column ∈ owner.table.columns)
    (hreference : column.reference = some reference) :
    Describes owner.tableType owner.table ∧ ∃ target ∈ code.tables, target.table = reference.table ∧
      Describes target.tableType target.table ∧
      ∃ keyColumn, reference.keyColumn? = some keyColumn ∧
        reference.table.primaryKeys = [keyColumn] := by
  obtain ⟨resolver, tables, -, htables, hcode⟩ := exists_tables_of_generate hcode
  obtain ⟨codes, hcodes, hpure⟩ := bind_eq_ok_iff.mp hcode
  cases hpure
  obtain ⟨table, htable, hok⟩ := exists_of_mem_mapM_ok hcodes howner
  obtain ⟨rfl, htype, -⟩ := tableCode_eq_ok hok
  obtain ⟨declaration, -, hrebuild⟩ := exists_of_mem_mapM_ok htables htable
  have hrefers := refersWell_of_rebuild hrebuild hcolumn hreference
  obtain ⟨keyColumn, hkey, hkeys, -⟩ := hrefers.only
  have hmem := List.mem_of_find?_eq_some (find?_of_mapM_rebuild htables hrefers)
  obtain ⟨target, htarget, htargetOk⟩ := exists_mem_of_mapM_ok hcodes hmem
  obtain ⟨htargetTable, htargetType, -⟩ := tableCode_eq_ok htargetOk
  refine ⟨describes_of_ok htype, target, htarget, htargetTable, ?_, keyColumn, hkey, hkeys⟩
  exact describes_of_ok (htargetTable ▸ htargetType)

/-- Foreign keys name table types of the same code. -/
theorem refersWithin_of_generate (hcode : generate unit options naming container = .ok code)
    {type : TableType} (htype : type ∈ code.tableTypes) : RefersWithin code type := by
  obtain ⟨owner, howner, rfl⟩ := List.mem_map.mp htype
  intro accessor haccessor foreign hforeign
  obtain ⟨resolver, tables, -, -, hofTables⟩ := exists_tables_of_generate hcode
  obtain ⟨table, -, hok⟩ :=
    exists_of_mem_mapM_ok (mapM_eq_ok_iff.mpr (ofTables_eq_ok hofTables).2) howner
  obtain ⟨rfl, hof, -⟩ := tableCode_eq_ok hok
  obtain ⟨index, hindex⟩ := List.getElem?_of_mem haccessor
  obtain ⟨column, hcolumn, haccesses⟩ :=
    exists_getElem?_of_forall₂ (describes_of_ok hof).accessors.flip hindex
  cases hreference : column.reference with
  | none =>
      have hnone := haccesses.reference
      rw [hreference, Option.mapM_none, hforeign] at hnone
      cases hnone
  | some reference =>
      obtain ⟨-, target, htarget, htable, hdescribes, keyColumn, hkeyColumn, -⟩ :=
        exists_target_code hcode howner (List.mem_of_getElem? hcolumn) hreference
      have hown := haccesses.foreignKey hreference hkeyColumn (htable ▸ hdescribes.typeName)
      obtain rfl := Option.some.inj (hforeign.symm.trans hown)
      exact ⟨ne_self_of_identifier hdescribes.typeName, _, List.mem_map_of_mem htarget, rfl⟩

/-- Where table types are told apart, the code of each describes its table. -/
theorem table?_of_generate (hcode : generate unit options naming container = .ok code)
    (hapart : TableTypesApart code) {generated : Program α} (hitems : generated.items = code.items)
    {sqlText : SqlTypeRef → String}
    (hsql : ∀ sqlType, generated.other (sqlTypeExpr sqlType) = some (.sqlType (sqlText sqlType)))
    (howner : owner ∈ code.tables) (depth : Nat) :
    generated.table? (depth + 3) owner.tableType.selfType = some (owner.described code sqlText) :=
  have htype : owner.tableType ∈ code.tableTypes := List.mem_map_of_mem howner
  table?_eq hitems hsql hapart.names htype (hapart.methods _ htype)
    (refersWithin_of_generate hcode htype) depth

/-- **Foreign keys.** Where code is generated, the accessor of a reference evaluates a column that
refers to the table type of its target and the only key column of it. If the table types and their
methods have different names, as a compiler wants them, the code that runs describes the column with
a clause for that key column, and the clause names the target by its name alone: as the statement
that creates the target does, exactly if it has no catalog and no schema. -/
theorem references_created_table (hcode : generate unit options naming container = .ok code)
    (howner : owner ∈ code.tables) {index : Nat}
    (hcolumn : owner.table.columns[index]? = some column)
    (hreference : column.reference = some reference) {generated : Program α}
    (hitems : generated.items = code.items) {sqlText : SqlTypeRef → String}
    (hsql : ∀ sqlType, generated.other (sqlTypeExpr sqlType) = some (.sqlType (sqlText sqlType))) :
    ∃ target ∈ code.tables, target.table = reference.table ∧
      ∃ keyColumn accessor base, reference.table.primaryKeys = [keyColumn] ∧
        owner.tableType.accessors[index]? = some accessor ∧ accessor.column = column.name ∧
        accessor.code ∈ ownMembers generated.items owner.tableType.selfType ∧
        accessor.value = methodCall base "references"
          [tableNameOf target.tableType.name, textExpr keyColumn.name] ∧
        (TableTypesApart code → ∃ described created key info front rest,
          (∀ depth, generated.table? (depth + 3) owner.tableType.selfType = some described ∧
            generated.table? (depth + 3) target.tableType.selfType = some created) ∧
          created.qualifiedName = reference.table.qualifiedName ∧
          created.primaryKeys = [key] ∧ key.name = keyColumn.name ∧
          described.columns[index]? = some info ∧ info.name = column.name ∧
          info.reference = some ⟨created.name, key.name⟩ ∧
          described.definitionLines[index]? =
            some (front ++ (" REFERENCES " ++ created.name ++ "(" ++ key.name ++ ")")) ∧
          created.createSql = "CREATE TABLE IF NOT EXISTS " ++ created.qualifiedName ++ rest ∧
          (created.name = created.qualifiedName ↔
            created.catalog = none ∧ created.schema = none)) := by
  obtain ⟨hdescribes, target, htarget, htable, htargetDescribes, keyColumn, hkeyColumn, hkeys⟩ :=
    exists_target_code hcode howner (List.mem_of_getElem? hcolumn) hreference
  obtain ⟨accessor, haccessor, haccesses⟩ := exists_getElem?_of_forall₂ hdescribes.accessors hcolumn
  have hforeign : accessor.reference = some ⟨target.tableType.name, keyColumn.name⟩ :=
    haccesses.foreignKey hreference hkeyColumn (htable ▸ htargetDescribes.typeName)
  obtain ⟨base, hvalue⟩ : ∃ base, accessor.value =
      ForeignKey.code ⟨target.tableType.name, keyColumn.name⟩ base := by
    rw [ColumnAccessor.value, hforeign]
    exact ⟨_, rfl⟩
  refine ⟨target, htarget, htable, keyColumn, accessor, base, hkeys, haccessor, haccesses.name,
    hitems ▸ mem_ownMembers_tableType howner (List.mem_of_getElem? haccessor), hvalue,
    fun hapart => ?_⟩
  let described := owner.described code sqlText
  let created := target.described code sqlText
  obtain ⟨key, hkey, hkeyName⟩ : ∃ key, created.primaryKeys = [key] ∧ key.name = keyColumn.name :=
    primaryKeys_describe htargetDescribes (htable ▸ hkeys) code.tableTypes sqlText
  have hinfo : described.columns[index]? =
      some (accessor.describe code.tableTypes sqlText owner.tableType.tableName).info := by
    simp [described, TableCode.described, TableType.describe, haccessor]
  have hbinding :
      (accessor.describe code.tableTypes sqlText owner.tableType.tableName).info.reference =
        some ⟨created.name, key.name⟩ := by
    have hfound : code.tableTypes.find? (·.name == target.tableType.name) = some target.tableType :=
      find?_key_of_mem TableType.name hapart.names (List.mem_map_of_mem htarget)
    rw [info_describe, hforeign, Option.map_some, hfound, hkeyName]
    rfl
  obtain ⟨front, hfront⟩ :=
    Database.ColumnInfo.exists_definition_eq hbinding described.hasCompoundKey
  obtain ⟨rest, hrest⟩ := created.exists_createSql_eq
  refine ⟨described, created, key, _, front, rest,
    fun depth => ⟨table?_of_generate hcode hapart hitems hsql howner depth,
      table?_of_generate hcode hapart hitems hsql htarget depth⟩, ?_, hkey, hkeyName, hinfo, ?_,
    hbinding, ?_, hrest, created.name_eq_qualifiedName_iff⟩
  · rw [← htable]
    exact htargetDescribes.qualifiedName code.tableTypes sqlText
  · rw [info_describe]
    exact haccesses.name
  · rw [← hfront]
    exact Database.Table.getElem?_definitionLines hinfo

end Generate

section Instances

/-- Departments, and employees that refer to them. -/
def departmentsUnit : SourceUnit where
  declarations := [visitorTable "Department" [keyProperty "id"],
    visitorTable "Employee" [keyProperty "id", linkProperty "department" "Department" false]]
  constructors := []
  sqlTypeImpls := []
  config := none

def intText (_ : SqlTypeRef) : String := "int"

/-- Items that run where all SQL types are integers. -/
def intProgram (code : Code) : Program String :=
  { literalProgram "" code.items with other := fun _ => some (.sqlType "int") }

def hrOptions : Options := { Options.none with defaultSchema := some "hr" }

/-- What the code has of a table: the targets of its columns and the lines of its statement. -/
structure Outline where
  key : Key
  targets : List (Option Key)
  qualifiedName : String
  lines : List String
deriving DecidableEq

def TableCode.outline (code : Code) (entry : TableCode) : Outline where
  key := entry.table.key
  targets := entry.table.columns.map fun column => column.reference.map (·.table.key)
  qualifiedName := (entry.described code intText).qualifiedName
  lines := (entry.described code intText).definitionLines

def departmentOutline : Outline :=
  ⟨⟨"crate::Department"⟩, [none], "hr.department", ["    id int PRIMARY KEY"]⟩

def employeeOutline : Outline :=
  ⟨⟨"crate::Employee"⟩, [none, some ⟨"crate::Department"⟩], "hr.employee",
    ["    id int PRIMARY KEY", "    department_id int NOT NULL REFERENCES department(id)"]⟩

/-- The names of table types, each with those of its methods. -/
def Code.typeNames (code : Code) : List (String × List String) :=
  code.tableTypes.map fun type => (type.name, methodNames code.items type.selfType)

theorem tableTypesApart_of_typeNames {code : Code} (hnames : (code.typeNames.map (·.1)).Nodup)
    (hmethods : ∀ entry ∈ code.typeNames, entry.2.Nodup) : TableTypesApart code where
  names := by
    rwa [Code.typeNames, List.map_map] at hnames
  methods type htype := hmethods _ (List.mem_map_of_mem htype)

theorem exists_departments : ∃ code department employee,
    generate departmentsUnit hrOptions .empty "crate::generated" = .ok code ∧
      code.tables = [department, employee] ∧ department.outline code = departmentOutline ∧
      employee.outline code = employeeOutline ∧ TableTypesApart code := by
  have hgenerated :
      (generate departmentsUnit hrOptions .empty "crate::generated").toOption.map (fun code =>
        (code.tables.map (TableCode.outline code), code.typeNames)) =
      some ([departmentOutline, employeeOutline],
        [("Departments", ["id"]), ("Employees", ["id", "department_id"])]) := by
    decide +kernel
  obtain ⟨code, hcode, hparts⟩ := exists_ok_of_toOption hgenerated
  simp only [Prod.mk.injEq] at hparts
  obtain ⟨houtlines, hnames⟩ := hparts
  obtain ⟨department, others, htables, hdepartment, hothers⟩ := List.map_eq_cons_iff.mp houtlines
  obtain ⟨employee, rest, rfl, hemployee, hrest⟩ := List.map_eq_cons_iff.mp hothers
  obtain rfl := List.map_eq_nil_iff.mp hrest
  exact ⟨code, department, employee, hcode, htables, hdepartment, hemployee,
    tableTypesApart_of_typeNames (by rw [hnames]; decide) (by rw [hnames]; decide)⟩

theorem exists_department_reference {code : Code} {employee : TableCode}
    (hemployee : employee.outline code = employeeOutline) : ∃ column reference,
      employee.table.columns[1]? = some column ∧ column.reference = some reference ∧
        reference.table.key = ⟨"crate::Department"⟩ := by
  have htargets := congrArg (·.targets[1]?) hemployee
  simp only [TableCode.outline, List.getElem?_map] at htargets
  obtain ⟨column, hcolumn, hreference⟩ := Option.map_eq_some_iff.mp htargets
  obtain ⟨reference, hreference, hkey⟩ := Option.map_eq_some_iff.mp hreference
  exact ⟨column, reference, hcolumn, hreference, hkey⟩

/-- The clause for departments leaves their schema out. -/
theorem references_created_table_employee : ∃ code employee target described created key info,
    generate departmentsUnit hrOptions .empty "crate::generated" = .ok code ∧
      employee ∈ code.tables ∧ target ∈ code.tables ∧
      target.table.key = ⟨"crate::Department"⟩ ∧
      (intProgram code).table? 3 target.tableType.selfType = some created ∧
      created.primaryKeys = [key] ∧
      (intProgram code).table? 3 employee.tableType.selfType = some described ∧
      described.columns[1]? = some info ∧ info.reference = some ⟨created.name, key.name⟩ := by
  obtain ⟨code, department, employee, hcode, htables, -, hemployee, hapart⟩ := exists_departments
  have hmem : employee ∈ code.tables := by simp [htables]
  obtain ⟨column, reference, hcolumn, hreference, htargetKey⟩ :=
    exists_department_reference hemployee
  obtain ⟨target, htarget, htable, _, _, _, -, -, -, -, -, hdescribed⟩ :=
    @references_created_table String _ _ _ _ code employee column reference hcode hmem 1 hcolumn
      hreference (intProgram code) rfl intText fun _ => rfl
  obtain ⟨described, created, key, info, -, -, hruns, -, hkey, -, hinfo, -, hbinding, -⟩ :=
    hdescribed hapart
  obtain ⟨howner, hcreated⟩ := hruns 0
  exact ⟨code, employee, target, described, created, key, info, hcode, hmem, htarget,
    htable ▸ htargetKey, hcreated, hkey, howner, hinfo, hbinding⟩

/-- Departments are created in the schema, and the clause of employees does not name them so. -/
theorem references_without_schema : ∃ code department employee column reference described created,
    generate departmentsUnit hrOptions .empty "crate::generated" = .ok code ∧
      department ∈ code.tables ∧ employee ∈ code.tables ∧
      employee.table.columns[1]? = some column ∧ column.reference = some reference ∧
      reference.table.key = department.table.key ∧
      (intProgram code).table? 3 department.tableType.selfType = some created ∧
      (intProgram code).table? 3 employee.tableType.selfType = some described ∧
      created.qualifiedName = "hr.department" ∧
      ¬ ∃ front, described.definitionLines[1]? =
        some (front ++ (" REFERENCES " ++ created.qualifiedName ++ "(id)")) := by
  obtain ⟨code, department, employee, hcode, htables, hdepartment, hemployee, hapart⟩ :=
    exists_departments
  have hfirst : department ∈ code.tables := by simp [htables]
  have hsecond : employee ∈ code.tables := by simp [htables]
  have hruns : ∀ owner ∈ code.tables, (intProgram code).table? 3 owner.tableType.selfType =
      some (owner.described code intText) := fun owner howner =>
    @table?_of_generate String _ _ _ _ code owner hcode hapart (intProgram code) rfl intText
      (fun _ => rfl) howner 0
  obtain ⟨column, reference, hcolumn, hreference, hkey⟩ := exists_department_reference hemployee
  have hname : (department.described code intText).qualifiedName = "hr.department" :=
    congrArg (·.qualifiedName) hdepartment
  have hdepartmentKey : department.table.key = ⟨"crate::Department"⟩ :=
    congrArg (·.key) hdepartment
  refine ⟨code, department, employee, column, reference, _, _, hcode, hfirst, hsecond, hcolumn,
    hreference, hkey.trans hdepartmentKey.symm, hruns department hfirst, hruns employee hsecond,
    hname, ?_⟩
  rintro ⟨front, hline⟩
  have hlines : (employee.described code intText).definitionLines[1]? =
      some "    department_id int NOT NULL REFERENCES department(id)" :=
    congrArg (·.lines[1]?) hemployee
  rw [hlines, hname, Option.some.injEq] at hline
  have hsuffix : (" REFERENCES hr.department(id)").toList <:+
      ("    department_id int NOT NULL REFERENCES department(id)").toList := by
    rw [hline, String.toList_append]
    exact List.suffix_append _ _
  revert hsuffix
  decide

end Instances

end EntityTables.Generated
