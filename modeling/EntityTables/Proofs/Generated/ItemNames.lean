import EntityTables.Proofs.Generated.Totality
import EntityTables.Proofs.Generated.Writes
import EntityTables.Proofs.Unit.Names

/-!
# Names of generated items

All items of a unit are generated into one container, whatever modules the entities are declared in.
Each item is named after its own declaration, and nothing compares the names of different items. So
two items of a kind have the same name exactly if their declarations give them the same, and a
registry, which finds constructors by their names, keeps only the last pair of a name.
-/

namespace EntityTables.Call.Registry

/-! ### The last pair of a place -/

theorem ofPairs_append_singleton (pairs : List Pair) (pair : Pair) :
    ofPairs (pairs ++ [pair]) = (ofPairs pairs).insertPair pair := by
  rw [ofPairs, List.foldl_append]
  rfl

/-- A registry of pairs has the last pair of each place. -/
theorem find?_ofPairs (pairs : List Pair) (key : FunctionKey) :
    (ofPairs pairs).pairs.find? key = pairs.reverse.find? (·.virtual.key = key) := by
  induction pairs using List.reverseRecOn with
  | nil => rfl
  | append_singleton pairs pair ih =>
      rw [ofPairs_append_singleton, insertPair, Keyed.find?_insert, ih, List.reverse_append,
        List.reverse_singleton, List.singleton_append, List.find?_cons]
      split <;> simp_all

theorem sorted_ofPairs (pairs : List Pair) : (ofPairs pairs).pairs.Sorted := by
  induction pairs using List.reverseRecOn with
  | nil => exact .nil
  | append_singleton pairs pair ih =>
      rw [ofPairs_append_singleton]
      exact ih.insert _ _

theorem mem_keys_ofPairs {pairs : List Pair} {key : FunctionKey} :
    key ∈ (ofPairs pairs).pairs.keys ↔ key ∈ pairs.map (·.virtual.key) := by
  have hfound : key ∈ (ofPairs pairs).pairs.keys ↔
      ∃ pair, (ofPairs pairs).pairs.find? key = some pair := by
    rw [Keyed.keys, List.mem_map]
    constructor
    · rintro ⟨⟨own, pair⟩, hmem, rfl⟩
      exact ⟨pair, (Keyed.mem_iff_find? (sorted_ofPairs pairs)).mp hmem⟩
    · rintro ⟨pair, hpair⟩
      exact ⟨_, Keyed.mem_of_find? hpair, rfl⟩
  rw [hfound, find?_ofPairs, ← Option.isSome_iff_exists, List.find?_isSome]
  simp

/-- A registry of pairs has one pair for each of the places. -/
theorem length_ofPairs (pairs : List Pair) :
    (ofPairs pairs).pairs.length = (pairs.map (·.virtual.key)).dedup.length := by
  have hnodup : (ofPairs pairs).pairs.keys.Nodup :=
    List.pairwise_map.mpr ((sorted_ofPairs pairs).imp fun {first second} hlt hsame => by
      rw [hsame] at hlt
      exact irrefl_of (· < ·) second.1 hlt)
  have hperm : (ofPairs pairs).pairs.keys.Perm (pairs.map (·.virtual.key)).dedup :=
    (List.perm_ext_iff_of_nodup hnodup (List.nodup_dedup _)).mpr fun key => by
      rw [mem_keys_ofPairs, List.mem_dedup]
  rw [← hperm.length_eq, Keyed.keys, List.length_map]

end EntityTables.Call.Registry

namespace EntityTables.Generated

open EntityTables.Syntax EntityTables.Schema
open EntityTables.Call (FunctionKey Registry derive?_eq_some isRaw withoutRaw)

/-! ### Names of items -/

/-- The kinds of generated items that a container tells apart by their names. -/
inductive EmittedKind
  | tableType
  | sequence
  | record
  | constructor

/-- The names of the items of a kind, in order. A raw name is the same as the name in it. -/
def Code.names (code : Code) : EmittedKind → List String
  | .tableType => code.tableTypes.map fun type => withoutRaw type.name
  | .sequence => code.tables.map (·.sequence.name)
  | .record => code.recordTypes.map (·.name)
  | .constructor => code.constructors.map (·.signature.name)

/-- A declaration of an interface. -/
def isInterface (owner : Declaration) : Bool :=
  match owner.shape with
  | .interface _ _ => true
  | _ => false

/-- The name that a declaration gives its table type: that of its marker, or its own, converted. -/
def typeStem? (coding : Naming.CodingNaming) (owner : Declaration) : Option String := do
  let marker ← owner.table
  let name ← parseName? ((given? marker.typeName).getD (coding.typeName owner.name))
  return withoutRaw name

namespace EmittedKind

/-- What a declaration gives to the name of its item of a kind, if it has one. -/
def stem? (kind : EmittedKind) (coding : Naming.CodingNaming) (owner : Declaration) :
    Option String :=
  match kind with
  | .tableType | .sequence => typeStem? coding owner
  | .record | .constructor => if isInterface owner then some owner.name else none

/-- What all names of a kind end in. -/
def ending : EmittedKind → String
  | .tableType | .constructor => ""
  | .sequence => "Sequence"
  | .record => "Record"

/-- The name of the item of a kind in the code of a table. -/
def name? (kind : EmittedKind) (code : TableCode) : Option String :=
  match kind with
  | .tableType => some (withoutRaw code.tableType.name)
  | .sequence => some code.sequence.name
  | .record => code.entity.recordType?.map (·.name)
  | .constructor => code.entity.constructor?.map (·.signature.name)

end EmittedKind

theorem Code.names_eq (code : Code) (kind : EmittedKind) :
    code.names kind = code.tables.filterMap kind.name? := by
  cases kind with
  | tableType =>
      rw [Code.names, Code.tableTypes, List.map_map, ← List.filterMap_eq_map]
      rfl
  | sequence =>
      rw [Code.names, ← List.filterMap_eq_map]
      rfl
  | record =>
      rw [Code.names, recordTypes_eq, List.map_filterMap]
      rfl
  | constructor =>
      rw [Code.names, constructors_eq, List.map_filterMap]
      rfl

/-! ### Every item is named after its own declaration -/

section Named

variable {unit : SourceUnit} {config : Config} {container : String} {owner : Declaration}
  {resolver : Resolver}

theorem eq_of_identifier {table : Table} {name identified : String}
    (hok : identifier table name = .ok identified) : parseName? name = some identified := by
  rw [identifier] at hok
  split at hok
  · next found hfound =>
      cases hok
      exact hfound
  · cases hok

theorem isInterface_iff {kind : EntityKind} (hkind : entityKind owner = .ok kind) :
    isInterface owner = true ↔ kind = .interface := by
  rw [isInterface]
  unfold entityKind at hkind
  split at hkind <;> cases hkind <;> simp_all

/-- What the table of a declaration takes from it. -/
structure NamedAfter (coding : Naming.CodingNaming) (owner : Declaration) (table : Table) :
    Prop where
  entity : table.entity = owner.name
  kind : isInterface owner = true ↔ table.kind = .interface
  typeName : ∃ marker, owner.table = some marker ∧
    table.typeName = (given? marker.typeName).getD (coding.typeName owner.name)

theorem namedAfter_of_rebuild {table : Table}
    (hdeclared : resolver.unit.get? owner.key = some owner)
    (hok : rebuild resolver [] owner.key = .ok table) : NamedAfter resolver.coding owner table := by
  obtain ⟨-, declaration, hfound, hbuild⟩ := rebuild_eq_ok_iff.mp hok
  obtain rfl : declaration = owner := Option.some.inj (hfound.symm.trans hdeclared)
  obtain ⟨marker, kind, _, hmarker, hkind, -, rfl⟩ := (buildTable_eq_ok_iff _).mp hbuild
  exact ⟨rfl, isInterface_iff hkind, marker, hmarker, rfl⟩

theorem NamedAfter.typeStem?_eq {coding : Naming.CodingNaming} {table : Table} {name : String}
    (hnamed : NamedAfter coding owner table) (hname : identifier table table.typeName = .ok name) :
    typeStem? coding owner = some (withoutRaw name) := by
  obtain ⟨marker, hmarker, htypeName⟩ := hnamed.typeName
  have hparsed := eq_of_identifier hname
  rw [htypeName] at hparsed
  simp [typeStem?, hmarker, hparsed]

theorem name_of_tableType {table : Table} {type : TableType}
    (hok : TableType.of table = .ok type) : identifier table table.typeName = .ok type.name := by
  obtain ⟨name, hname, hok⟩ := bind_eq_ok_iff.mp hok
  obtain ⟨methods, -, hok⟩ := bind_eq_ok_iff.mp hok
  obtain ⟨accessors, -, hok⟩ := bind_eq_ok_iff.mp hok
  cases hok
  exact hname

theorem name_of_sequence {table : Table} {trait : SequenceTrait}
    (hok : SequenceTrait.of table = .ok trait) : ∃ name,
      identifier table table.typeName = .ok name ∧ trait.name = withoutRaw name ++ "Sequence" := by
  obtain ⟨name, hname, hok⟩ := bind_eq_ok_iff.mp hok
  obtain ⟨method, -, hok⟩ := bind_eq_ok_iff.mp hok
  cases hok
  exact ⟨name, hname, rfl⟩

/-- Raw names have no constructor. -/
theorem withoutRaw_entity {table : Table} {constructor : Constructor}
    (hok : Constructor.of table container = .ok constructor) :
    withoutRaw table.entity = table.entity := by
  obtain ⟨implementation, hname, -⟩ := Option.map_eq_some_iff.mp (of_eq_ok hok).1
  rw [withoutRaw, if_neg]
  intro hraw
  cases hname.symm.trans (if_pos hraw)

/-- An interface names its record and its constructor; a struct has neither. -/
theorem NamedAfter.entity_names {coding : Naming.CodingNaming} {table : Table}
    {entity : EntityCode} (hnamed : NamedAfter coding owner table)
    (hok : EntityCode.of unit config container table = .ok entity) :
    let own := if isInterface owner then some owner.name else none
    entity.recordType?.map (·.name) = own.map (· ++ "Record") ∧
      entity.constructor?.map (·.signature.name) = own := by
  cases hkind : table.kind with
  | interface =>
      obtain ⟨type, constructor, rfl, htype, hconstructor⟩ := entityCode_interface hkind hok
      have hrecord : type.name = table.entity ++ "Record" := by
        rw [(getters_of_recordType htype).2.1, recordName, withoutRaw_entity hconstructor]
      have hname : constructor.signature.name = table.entity := by
        rw [signature_of_ok hconstructor]
        rfl
      rw [if_pos (hnamed.kind.mpr hkind), ← hnamed.entity]
      exact ⟨congrArg some hrecord, congrArg some hname⟩
  | struct =>
      obtain ⟨conversion, rfl, -⟩ := entityCode_struct hkind hok
      rw [if_neg (by simp [hnamed.kind, hkind])]
      exact ⟨rfl, rfl⟩

/-- Each name in the code of a table is what its declaration gives, with the ending of its kind. -/
theorem NamedAfter.name?_eq {coding : Naming.CodingNaming} {table : Table} {tableCode : TableCode}
    (hnamed : NamedAfter coding owner table)
    (hok : TableCode.of unit config container table = .ok tableCode) (kind : EmittedKind) :
    kind.name? tableCode = (kind.stem? coding owner).map (· ++ kind.ending) := by
  obtain ⟨-, htableType, hsequence, hentity⟩ := tableCode_eq_ok hok
  obtain ⟨hrecord, hconstructor⟩ := hnamed.entity_names hentity
  cases kind with
  | tableType =>
      rw [EmittedKind.stem?, hnamed.typeStem?_eq (name_of_tableType htableType)]
      exact congrArg some (String.append_empty).symm
  | sequence =>
      obtain ⟨name, hname, hsequence⟩ := name_of_sequence hsequence
      rw [EmittedKind.stem?, hnamed.typeStem?_eq hname]
      exact congrArg some hsequence
  | record => exact hrecord
  | constructor =>
      refine hconstructor.trans ?_
      rw [EmittedKind.stem?]
      split
      · exact congrArg some (String.append_empty).symm
      · rfl

theorem filterMap_name? {owners : List Declaration} {tables : List Table} {codes : List TableCode}
    (hdeclared : ∀ owner ∈ owners, resolver.unit.get? owner.key = some owner)
    (htables : List.Forall₂ (fun owner table => rebuild resolver [] owner.key = .ok table)
      owners tables)
    (hcodes : List.Forall₂ (fun table code => TableCode.of unit config container table = .ok code)
      tables codes) (kind : EmittedKind) :
    codes.filterMap kind.name? = owners.filterMap fun owner =>
      (kind.stem? resolver.coding owner).map (· ++ kind.ending) := by
  induction htables generalizing codes with
  | nil =>
      cases hcodes
      rfl
  | @cons owner table owners tables hrebuild htables ih =>
      cases hcodes with
      | cons hcode hcodes =>
          have hnamed := namedAfter_of_rebuild (hdeclared owner List.mem_cons_self) hrebuild
          rw [List.filterMap_cons, List.filterMap_cons, hnamed.name?_eq hcode,
            ih (fun other hmem => hdeclared other (List.mem_cons_of_mem _ hmem)) hcodes]

theorem get?_of_distinct (hdistinct : unit.DistinctKeys) (howner : owner ∈ unit.declarations) :
    unit.get? owner.key = some owner := by
  have hfound := find?_key_of_mem Declaration.key hdistinct howner
  rw [← hfound, SourceUnit.get?]
  rfl

/-- The names of a kind are what the declarations give, with the ending of the kind. -/
theorem names_eq_map_stems {code : Code} {options : Options} {naming : Naming.Registry}
    (hdistinct : unit.DistinctKeys) (hcode : generate unit options naming container = .ok code) :
    ∃ resolver, Resolver.create unit options naming = .ok resolver ∧ ∀ kind, code.names kind =
      (unit.tables.filterMap (kind.stem? resolver.coding)).map (· ++ kind.ending) := by
  obtain ⟨resolver, tables, hcreate, htables, hcode⟩ := exists_tables_of_generate hcode
  obtain rfl := unit_of_create hcreate
  rw [mapM_eq_ok_iff] at htables
  refine ⟨resolver, hcreate, fun kind => ?_⟩
  rw [Code.names_eq, List.map_filterMap]
  have hdeclared : ∀ owner ∈ resolver.unit.tables, resolver.unit.get? owner.key = some owner :=
    fun owner howner => get?_of_distinct hdistinct (List.mem_of_mem_filter howner)
  exact filterMap_name? hdeclared htables (ofTables_eq_ok hcode).2 kind

end Named

theorem ending_injective (kind : EmittedKind) :
    Function.Injective fun stem : String => stem ++ kind.ending := by
  intro stem other hsame
  have hchars : stem.toList ++ kind.ending.toList = other.toList ++ kind.ending.toList := by
    rw [← String.toList_append, ← String.toList_append]
    exact congrArg String.toList hsame
  exact String.toList_inj.mp (List.append_cancel_right hchars)

section Pairs

variable {unit : SourceUnit} {options : Options} {naming : Naming.Registry} {container : String}
  {code : Code}

/-- The pairs of generated code are found under the names of the constructors. -/
theorem keys_of_pairs (hcode : generate unit options naming container = .ok code) :
    code.pairs.map (·.virtual.key) = (code.names .constructor).map (FunctionKey.mk container) := by
  obtain ⟨resolver, tables, -, -, hcode⟩ := exists_tables_of_generate hcode
  rw [Code.pairs, Code.names, List.map_map, List.map_map]
  refine List.map_congr_left fun constructor hmem => ?_
  obtain ⟨table, hok⟩ := exists_table_of_mem hcode hmem
  obtain ⟨hvirtual, -⟩ := derive?_eq_some (of_eq_ok hok).1
  rw [Function.comp_apply, Function.comp_apply, hvirtual, signature_of_ok hok]
  rfl

theorem length_pairs (hcode : generate unit options naming container = .ok code) :
    code.registry.pairs.length = (code.names .constructor).dedup.length := by
  have hinjective : Function.Injective (FunctionKey.mk container) := by
    intro name other hsame
    cases hsame
    rfl
  rw [Code.registry, Registry.length_ofPairs, keys_of_pairs hcode,
    List.dedup_map_of_injective hinjective, List.length_map]

end Pairs

/-- **Names of generated items.** The name of an item is what its own declaration gives it, with the
ending of its kind: for a table type and its sequence the type name of the declaration, for a
record and its constructor the name of the interface. So the names of a kind are distinct if and
only if the declarations give distinct ones. The registry has the last of the pairs of each name of
a constructor, and so it has one pair for each interface if and only if these names are distinct. -/
theorem names_nodup_iff {unit : SourceUnit} {options : Options} {naming : Naming.Registry}
    {container : String} {code : Code} (hdistinct : unit.DistinctKeys)
    (hcode : generate unit options naming container = .ok code) :
    ∃ resolver, Resolver.create unit options naming = .ok resolver ∧
      let stems (kind : EmittedKind) := unit.tables.filterMap (kind.stem? resolver.coding)
      (∀ kind, code.names kind = (stems kind).map (· ++ kind.ending) ∧
        ((code.names kind).Nodup ↔ (stems kind).Nodup)) ∧
      code.pairs.map (·.virtual.key) = (code.names .constructor).map (FunctionKey.mk container) ∧
      (∀ key, code.registry.pairs.find? key = code.pairs.reverse.find? (·.virtual.key = key)) ∧
      code.registry.pairs.length = (code.names .constructor).dedup.length ∧
      (code.registry.pairs.length = (unit.tables.filter isInterface).length ↔
        (code.names .constructor).Nodup) := by
  obtain ⟨resolver, hcreate, hnames⟩ := names_eq_map_stems hdistinct hcode
  have hinterfaces :
      (unit.tables.filter isInterface).length = (code.names .constructor).length := by
    rw [hnames, List.length_map, List.length_filterMap_eq_countP, ← List.countP_eq_length_filter]
    refine List.countP_congr fun owner _ => ?_
    rw [EmittedKind.stem?]
    cases isInterface owner <;> simp
  refine ⟨resolver, hcreate, fun kind => ⟨hnames kind, ?_⟩, keys_of_pairs hcode,
    Registry.find?_ofPairs code.pairs, length_pairs hcode, ?_⟩
  · rw [hnames]
    exact List.nodup_map_iff (ending_injective kind)
  · rw [length_pairs hcode, hinterfaces, ← List.dedup_eq_self]
    exact ⟨fun hsame => (List.dedup_sublist _).eq_of_length hsame, congrArg List.length⟩

section Instances

/-- Persons and customers, each in a module of its own. -/
def contactTexts : List (String × String) :=
  [("crate::hr", "#[table] pub trait Person: Entity { #[primary_key] fn id(&self) -> i32; }"),
    ("crate::sales", "#[table] pub trait Customer: Entity { #[primary_key] fn id(&self) -> i32; }")]

/-- The unit of some texts, with the code that is generated for it. -/
def codeOfTexts (texts : List (String × String)) : Except Error (SourceUnit × Code) := do
  let unit ← SourceUnit.empty.addTexts texts
  return (unit, ← generate unit .none .empty "crate::generated")

/-- Entities with different names have a pair each. -/
theorem names_nodup_iff_contacts : ∃ unit code,
    SourceUnit.empty.addTexts contactTexts = .ok unit ∧ unit.DistinctKeys ∧
      generate unit .none .empty "crate::generated" = .ok code ∧
      (code.names .constructor).Nodup ∧ code.registry.pairs.length = 2 ∧
      (code.names .record).Nodup := by
  have hgenerated : (codeOfTexts contactTexts).toOption.map (fun result =>
      ((result.1.tables.filter isInterface).length, result.2.names .constructor,
        result.2.names .record)) =
      some (2, ["Person", "Customer"], ["PersonRecord", "CustomerRecord"]) := by decide +kernel
  obtain ⟨⟨unit, code⟩, hok, hparts⟩ := exists_ok_of_toOption hgenerated
  simp only [codeOfTexts, bind_eq_ok_iff] at hok
  obtain ⟨unit', hunit, code', hcode, hpure⟩ := hok
  cases hpure
  simp only [Prod.mk.injEq] at hparts
  obtain ⟨hinterfaces, hconstructors, hrecords⟩ := hparts
  have hdistinct := SourceUnit.distinctKeys_of_addTexts hunit
  obtain ⟨resolver, -, -, -, -, -, hcount⟩ := names_nodup_iff hdistinct hcode
  have hnodup : (code.names .constructor).Nodup := by
    rw [hconstructors]
    decide
  refine ⟨unit, code, hunit, hdistinct, hcode, hnodup, ?_, ?_⟩
  · rw [← hinterfaces]
    exact hcount.mpr hnodup
  · rw [hrecords]
    decide

/-- Two modules that declare persons. -/
def personTexts : List (String × String) :=
  [("crate::hr", "#[table] pub trait Person: Entity { #[primary_key] fn id(&self) -> i32; }"),
    ("crate::sales", "#[table] pub trait Person: Entity { #[primary_key] fn id(&self) -> i64; }")]

/-- All names of entities of one name are the same, and only one of their pairs is kept. -/
theorem names_person_twice : ∃ unit code,
    SourceUnit.empty.addTexts personTexts = .ok unit ∧
      generate unit .none .empty "crate::generated" = .ok code ∧
      (∀ kind, ¬(code.names kind).Nodup) ∧ (unit.tables.filter isInterface).length = 2 ∧
      code.registry.pairs.length = 1 := by
  have hgenerated : (codeOfTexts personTexts).toOption.map (fun result =>
      ([result.2.names .tableType, result.2.names .sequence, result.2.names .record,
        result.2.names .constructor], (result.1.tables.filter isInterface).length)) =
      some ([["Persons", "Persons"], ["PersonsSequence", "PersonsSequence"],
        ["PersonRecord", "PersonRecord"], ["Person", "Person"]], 2) := by decide +kernel
  obtain ⟨⟨unit, code⟩, hok, hparts⟩ := exists_ok_of_toOption hgenerated
  simp only [codeOfTexts, bind_eq_ok_iff] at hok
  obtain ⟨unit', hunit, code', hcode, hpure⟩ := hok
  cases hpure
  simp only [Prod.mk.injEq, List.cons.injEq] at hparts
  obtain ⟨⟨htypes, hsequences, hrecords, hconstructors, -⟩, hinterfaces⟩ := hparts
  have hpairs : code.registry.pairs.length = 1 := by
    rw [length_pairs hcode, hconstructors]
    decide
  refine ⟨unit, code, hunit, hcode, fun kind => ?_, hinterfaces, hpairs⟩
  cases kind with
  | tableType => simp [htypes]
  | sequence => simp [hsequences]
  | record => simp [hrecords]
  | constructor => simp [hconstructors]

end Instances

end EntityTables.Generated
