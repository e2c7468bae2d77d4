import EntityTables.Proofs.Call.Order
import EntityTables.Proofs.Generated.Assignments
import EntityTables.Proofs.Generated.StoredType

/-!
# Constructors and their parameters

A constructor has a parameter for each property of its table, and its implementation has the same in
the same order. A record that is made of supplied values holds them in the properties of these
names, and nothing else.
-/

namespace EntityTables.Generated

open EntityTables.Syntax EntityTables.Schema EntityTables.Call

variable {α : Type}

/-! ### Parameters of a constructor -/

theorem parameter?_inputOf {name : String} {type : Node} {parameter : Parameter}
    (hparameter : Signature.parameter? (Signature.inputOf name type) = some parameter) :
    parameter = ⟨name, type⟩ := by
  have hname : Signature.boundName? (.phrase .identPat [.ident name]) =
      some name ∨ Signature.boundName? (.phrase .identPat [.ident name]) = none := by
    unfold Signature.boundName?
    simp only [List.filterMap_cons, Node.ident, Node.identName?, List.filterMap_nil,
      List.find?_cons]
    split <;> simp
  have hread : Signature.parameter? (Signature.inputOf name type) =
      (Signature.boundName? (.phrase .identPat [.ident name])).map fun name => ⟨name, type⟩ := rfl
  rw [hread] at hparameter
  rcases hname with hname | hname
  · rw [hname, Option.map_some, Option.some.injEq] at hparameter
    exact hparameter.symm
  · rw [hname] at hparameter
    cases hparameter

theorem mem_parameters_constructorSignature {table : Table} {parameter : Parameter}
    (hmem : parameter ∈ (constructorSignature table).parameters) :
    ∃ column ∈ table.columns, parameter = ⟨column.property, column.storedType⟩ := by
  simp only [Signature.parameters, constructorSignature, List.mem_filterMap, List.mem_map] at hmem
  obtain ⟨-, ⟨column, hcolumn, rfl⟩, hparameter⟩ := hmem
  exact ⟨column, hcolumn, parameter?_inputOf hparameter⟩

theorem parameters_sublist (table : Table) :
    ((constructorSignature table).parameters.map (·.name)).Sublist
      (table.columns.map (·.property)) := by
  have hall : ∀ columns : List Column,
      (((columns.map fun column =>
          Signature.inputOf column.property column.storedType).filterMap
        Signature.parameter?).map (·.name)).Sublist (columns.map (·.property)) := by
    intro columns
    induction columns with
    | nil => exact .slnil
    | cons column rest ih =>
        rw [List.map_cons, List.map_cons, List.filterMap_cons]
        cases hparameter : Signature.parameter?
            (Signature.inputOf column.property column.storedType) with
        | none => exact ih.cons _
        | some parameter =>
            rw [parameter?_inputOf hparameter]
            exact ih.cons_cons _
  exact hall table.columns

/-- The constructor of a table, part by part. -/
theorem of_eq_ok {table : Table} {container : String} {constructor : Constructor}
    (hok : Constructor.of table container = .ok constructor) :
    Pair.derive? (.ofSignature container (constructorSignature table)) = some constructor.pair ∧
      constructor.assignments = assignmentsOf constructor.pair := by
  unfold Constructor.of at hok
  cases hpair : Pair.derive? (.ofSignature container (constructorSignature table)) with
  | none => simp [hpair] at hok
  | some pair =>
      simp only [hpair, Except.ok.injEq] at hok
      subst hok
      exact ⟨rfl, rfl⟩

/-- The names of properties differ from each other, from the variable of the record and from the
flags; the mark of a raw identifier makes no difference. -/
structure PropertiesApart (table : Table) (flags : List String) : Prop where
  distinct : (table.columns.map fun column => withoutRaw column.property).Nodup
  notRecord : Frame.recordVariable ∉ table.columns.map fun column => withoutRaw column.property
  notFlag : ∀ flag ∈ flags, flag ∉ table.columns.map fun column => withoutRaw column.property

section Names

variable {table : Table} {container : String} {constructor : Constructor}

theorem parameters_name (hok : Constructor.of table container = .ok constructor) :
    constructor.pair.virtual.parameters = (constructorSignature table).parameters ∧
      constructor.pair.implementation.parameters.map (·.name) =
        (constructorSignature table).parameters.map (·.name) := by
  obtain ⟨hvirtual, hparameters, -⟩ := derive?_eq_some (of_eq_ok hok).1
  refine ⟨by rw [hvirtual]; rfl, ?_⟩
  rw [hparameters, List.map_map]
  rfl

theorem names_sublist (hok : Constructor.of table container = .ok constructor) :
    ((constructor.pair.implementation.parameters.map (·.name)).map withoutRaw).Sublist
      (table.columns.map fun column => withoutRaw column.property) := by
  have hsublist := (parameters_sublist table).map withoutRaw
  have hcolumns : (table.columns.map (·.property)).map withoutRaw =
      table.columns.map fun column => withoutRaw column.property := by
    rw [List.map_map]
    rfl
  rwa [← (parameters_name hok).2, hcolumns] at hsublist

theorem PropertiesApart.distinctLocals (hok : Constructor.of table container = .ok constructor)
    (hapart : PropertiesApart table constructor.pair.implementation.flags) :
    constructor.pair.virtual.DistinctLocals := by
  have hsublist := (parameters_sublist table).map withoutRaw
  rw [List.map_map, List.map_map] at hsublist
  unfold VirtualFunction.DistinctLocals
  rw [(parameters_name hok).1]
  exact hapart.distinct.sublist hsublist

theorem PropertiesApart.nodup_variableNames
    (hok : Constructor.of table container = .ok constructor)
    (hapart : PropertiesApart table constructor.pair.implementation.flags) :
    (variableNames (constructor.pair.implementation.parameters.map (·.name))
      constructor.pair.implementation.flags).Nodup := by
  have hnames := names_sublist hok
  obtain ⟨-, -, -, hflags⟩ := derive?_eq_some (of_eq_ok hok).1
  refine List.nodup_cons.mpr ⟨fun hmem => ?_, ?_⟩
  · rcases List.mem_append.mp hmem with hmem | hmem
    · exact hapart.notRecord (hnames.mem hmem)
    · rw [hflags] at hmem
      obtain ⟨rest, hrest⟩ := FlagEncoding.mem_flagNames hmem
      have hchars := congrArg String.toList hrest
      simp [Frame.recordVariable] at hchars
  · refine List.Nodup.append (hapart.distinct.sublist hnames) ?_ fun name hname hflag => ?_
    · rw [hflags]
      exact FlagEncoding.nodup_flagNames
    · exact hapart.notFlag name hflag (hnames.mem hname)

end Names

/-! ### What the record holds -/

/-- The value that a call supplies for a parameter of a name, given the values of its arguments. -/
def suppliedValue? {V : Type} (function : VirtualFunction) (arguments : List Argument)
    (values : List V) (name : String) : Option V :=
  (function.position? name).bind (slotOf? ((targets function arguments).zip values))

theorem map_value_suppliedTyped? (parameters : List ImplementationParameter)
    (supplied : List (Nat × Value α)) (property : String) :
    (suppliedTyped? parameters 0 supplied property).map (·.value) =
      (parameters.findIdx? (·.name == property)).bind (slotOf? supplied) := by
  rw [suppliedTyped?, List.findIdx?_eq_fst_find?_zipIdx]
  cases parameters.zipIdx.find? fun entry => entry.1.name == property with
  | none => rfl
  | some entry => simp [Option.map_map, Function.comp_def]

section Constructed

variable {table : Table} {container : String} {constructor : Constructor} {tableName : String}

theorem value?_constructed (hok : Constructor.of table container = .ok constructor)
    (hapart : PropertiesApart table constructor.pair.implementation.flags)
    (arguments : List Argument) (values : List (Value α)) (property : String) :
    (constructed constructor.pair.implementation.parameters tableName
        ((targets constructor.pair.virtual arguments).zip values)).value? property =
      suppliedValue? constructor.pair.virtual arguments values property := by
  have hnames : (constructor.pair.implementation.parameters.map (·.name)).Nodup :=
    List.Nodup.of_map withoutRaw (hapart.distinct.sublist (names_sublist hok))
  obtain ⟨-, hparameters, -⟩ := derive?_eq_some (of_eq_ok hok).1
  have hposition : constructor.pair.virtual.position? property =
      constructor.pair.implementation.parameters.findIdx? (·.name == property) := by
    rw [VirtualFunction.position?, hparameters, List.findIdx?_map, (parameters_name hok).1]
    rfl
  rw [EntityRecord.value?, constructed, typed?_foldl_storeSupplied hnames,
    EntityRecord.typed?_empty, Option.or_none, map_value_suppliedTyped?, suppliedValue?, hposition]

/-- What a record holds belongs to a column. -/
theorem type_of_typed?_constructed (hok : Constructor.of table container = .ok constructor)
    (hapart : PropertiesApart table constructor.pair.implementation.flags)
    {supplied : List (Nat × Value α)} {property : String} {entry : Typed Node (Value α)}
    (hentry : (constructed constructor.pair.implementation.parameters tableName
      supplied).typed? property = some entry) :
    ∃ column ∈ table.columns, column.property = property ∧ entry.type =
      (ImplementationParameter.of ⟨column.property, column.storedType⟩).storedType := by
  have hnames : (constructor.pair.implementation.parameters.map (·.name)).Nodup :=
    List.Nodup.of_map withoutRaw (hapart.distinct.sublist (names_sublist hok))
  obtain ⟨-, hparameters, -⟩ := derive?_eq_some (of_eq_ok hok).1
  rw [constructed, typed?_foldl_storeSupplied hnames, EntityRecord.typed?_empty, Option.or_none,
    suppliedTyped?, Option.bind_eq_some_iff] at hentry
  obtain ⟨⟨parameter, position⟩, hfound, hslot⟩ := hentry
  obtain ⟨value, -, rfl⟩ := Option.map_eq_some_iff.mp hslot
  have hmem : parameter ∈ constructor.pair.implementation.parameters :=
    List.fst_mem_of_mem_zipIdx (List.mem_of_find?_eq_some hfound)
  rw [hparameters] at hmem
  obtain ⟨own, hown, rfl⟩ := List.mem_map.mp hmem
  obtain ⟨column, hcolumn, rfl⟩ := mem_parameters_constructorSignature hown
  exact ⟨column, hcolumn, by simpa [ImplementationParameter.of] using List.find?_some hfound, rfl⟩

/-- An optional type is the one in which the record keeps the value. -/
theorem get?_constructed (hok : Constructor.of table container = .ok constructor)
    (hapart : PropertiesApart table constructor.pair.implementation.flags)
    {supplied : List (Nat × Value α)} {column : Column} (hcolumn : column ∈ table.columns)
    (hoptional : column.storedType.stripOption.2 = true) :
    (constructed constructor.pair.implementation.parameters tableName supplied).get?
        column.storedType column.property =
      (constructed constructor.pair.implementation.parameters tableName supplied).value?
        column.property := by
  cases hentry : (constructed constructor.pair.implementation.parameters tableName
      supplied).typed? column.property with
  | none =>
      rw [EntityRecord.value?, hentry]
      rw [EntityRecord.typed?] at hentry
      simp [EntityRecord.get?, hentry]
  | some entry =>
      obtain ⟨other, hother, hproperty, htype⟩ := type_of_typed?_constructed hok hapart hentry
      have hsame : other = column :=
        List.inj_on_of_nodup_map hapart.distinct hother hcolumn (by rw [hproperty])
      subst hsame
      have hstored : entry.type = other.storedType := by
        rw [htype]
        simp [ImplementationParameter.of, ImplementationParameter.storedType, hoptional]
      rw [EntityRecord.value?, hentry]
      rw [EntityRecord.typed?] at hentry
      simp [EntityRecord.get?, hentry, hstored]

end Constructed

/-! ### A constructor with an optional property -/

/-- A getter of a property. -/
def getter (name : String) (type : Node) (primaryKey : Bool) : Property :=
  ⟨name, type, none, primaryKey, none, false, true⟩

/-- Members have a key, a name, and a mentor unless they have none. -/
def memberUnit : SourceUnit where
  declarations := [{
    key := .within "crate" "Member"
    name := "Member"
    table := some ⟨none, none, none, none, none, none, []⟩
    shape := .interface true [getter "id" (namedType "i32") true,
      getter "name" (namedType "String") false,
      getter "mentor" (optionOf (namedType "String")) false] }]
  constructors := []
  sqlTypeImpls := []
  config := none

/-- The column of a plain property. -/
def memberColumn (property : String) (type valueType : Node) (sqlType : String)
    (primaryKey nullable : Bool) : Column :=
  ⟨property, type, property, property, primaryKey, ⟨builtInPath sqlType, .fixed, valueType⟩, false,
    nullable, none⟩

/-- The table of members. -/
def memberTable : Table where
  key := .within "crate" "Member"
  entity := "Member"
  kind := .interface
  name := "Member"
  aliasName := none
  catalog := none
  schema := none
  typeName := "Member"
  sequenceName := "Member"
  ignoredProperties := []
  columns := [memberColumn "id" (namedType "i32") (namedType "i32") "IntSqlType" true false,
    memberColumn "name" (namedType "String") (namedType "String") "VarcharSqlType" false false,
    memberColumn "mentor" (optionOf (namedType "String")) (namedType "String") "VarcharSqlType"
      false true]

theorem member_resolved : ((resolveTable (literalResolver memberUnit)
    (.within "crate" "Member")).run .empty).1 = .ok memberTable := by
  rw [resolveTable_empty]
  cbv

/-- The constructor of members with its implementation. -/
def memberPair : Pair :=
  (Pair.derive? (.ofSignature "crate" (constructorSignature memberTable))).getD default

/-- The constructor of members. -/
def memberConstructor : Constructor :=
  ⟨"Member", constructorSignature memberTable, memberPair, assignmentsOf memberPair⟩

end EntityTables.Generated
