import EntityTables.Proofs.Call.Registration
import EntityTables.Proofs.Generated.Construction
import EntityTables.Proofs.Syntax.Recovery
import EntityTables.Proofs.Unit.Contents

/-!
# Scanning generated code

The constructors of generated code are known in two ways: as the pairs from which they were
generated, and from the markers on the generated items. Scanning the items derives every signature
again and links the two functions of a constructor one after the other. It ends with the same
virtual functions and the same pairs, so both registries mean the same by every call.
-/

namespace EntityTables.Generated

open EntityTables.Syntax EntityTables.Schema EntityTables.Call

/-! ### Signatures are read as they were written -/

/-- A signature whose inputs are parameters comes back from its phrase. -/
theorem ofNode?_toNode {signature : Signature} (hgenerics : signature.hasGenerics = false)
    (hinputs : ∀ input ∈ signature.inputs, input.is .param = true) :
    Signature.ofNode? signature.toNode = some signature := by
  have hfilter : (commaSeparated signature.inputs).filter
      (fun input => input.is .receiver || input.is .param) = signature.inputs := by
    refine filter_commaSeparated rfl fun input hmem => ?_
    rw [hinputs input hmem, Bool.or_true]
  unfold Signature.toNode Signature.ofNode?
  simp only [parens, Node.ident, Node.empty, hfilter]
  cases signature
  simp_all [Node.parts]

theorem parameter?_inputOf_of_bound {name : String} (type : Node)
    (hbound : Signature.boundName? (.phrase .identPat [.ident name]) = some name) :
    Signature.parameter? (Signature.inputOf name type) = some ⟨name, type⟩ :=
  congrArg (Option.map fun bound => Parameter.mk bound type) hbound

theorem boundName?_of_parameter? {name : String} {type : Node} {parameter : Parameter}
    (hread : Signature.parameter? (Signature.inputOf name type) = some parameter) :
    Signature.boundName? (.phrase .identPat [.ident name]) = some name := by
  obtain ⟨bound, hbound, heq⟩ := Option.map_eq_some_iff.mp hread
  rw [parameter?_inputOf hread] at heq
  exact hbound.trans (congrArg some (congrArg Parameter.name heq))

theorem boundName?_of_ne {name : String} (href : name ≠ "ref") (hmut : name ≠ "mut") :
    Signature.boundName? (.phrase .identPat [.ident name]) = some name := by
  unfold Signature.boundName?
  simp only [List.filterMap_cons, Node.ident, Node.identName?, List.filterMap_nil, List.find?_cons,
    bne_iff_ne.mpr href, bne_iff_ne.mpr hmut, Bool.and_self]

theorem ne_of_mem_flagNames {flag : String} {encoding : FlagEncoding}
    (hflag : flag ∈ encoding.flagNames) {word : String} (hword : word.toList.head? ≠ some 'f') :
    flag ≠ word := by
  obtain ⟨rest, rfl⟩ := FlagEncoding.mem_flagNames hflag
  intro heq
  rw [← heq, String.toList_append] at hword
  exact hword rfl

theorem parameter?_inputOf_flag {flag : String} {encoding : FlagEncoding}
    (hflag : flag ∈ encoding.flagNames) (type : Node) :
    Signature.parameter? (Signature.inputOf flag type) = some ⟨flag, type⟩ :=
  parameter?_inputOf_of_bound type
    (boundName?_of_ne (ne_of_mem_flagNames hflag (by decide))
      (ne_of_mem_flagNames hflag (by decide)))

section Constructor

variable {table : Table} {container : String} {constructor : Constructor}

theorem signature_of_ok (hok : Constructor.of table container = .ok constructor) :
    constructor.signature = constructorSignature table := by
  unfold Constructor.of at hok
  cases hpair : Pair.derive? (.ofSignature container (constructorSignature table)) with
  | none => simp [hpair] at hok
  | some pair =>
      simp only [hpair, Except.ok.injEq] at hok
      rw [← hok]

theorem ofNode?_constructorSignature (table : Table) :
    Signature.ofNode? (constructorSignature table).toNode = some (constructorSignature table) := by
  refine ofNode?_toNode rfl fun input hmem => ?_
  obtain ⟨column, -, rfl⟩ := List.mem_map.mp hmem
  rfl

theorem ofNode?_implementationSignature (hok : Constructor.of table container = .ok constructor) :
    Signature.ofNode? constructor.implementationSignature.toNode =
      some constructor.implementationSignature := by
  refine ofNode?_toNode ?_ fun input hmem => ?_
  · exact congrArg Signature.hasGenerics (signature_of_ok hok)
  · rcases List.mem_append.mp hmem with hparameter | hflag
    · obtain ⟨parameter, -, rfl⟩ := List.mem_map.mp hparameter
      rfl
    · obtain ⟨flag, -, rfl⟩ := List.mem_map.mp hflag
      rfl

theorem isSome_parameter?_of_mem_inputs (hok : Constructor.of table container = .ok constructor)
    {input : Node} (hmem : input ∈ constructor.implementationSignature.inputs) :
    (Signature.parameter? input).isSome := by
  obtain ⟨-, hparameters, -, hflags⟩ := derive?_eq_some (of_eq_ok hok).1
  rcases List.mem_append.mp hmem with hparameter | hflag
  · rw [hparameters, List.map_map] at hparameter
    obtain ⟨own, hown, rfl⟩ := List.mem_map.mp hparameter
    obtain ⟨input, hinput, hread⟩ := List.mem_filterMap.mp hown
    obtain ⟨column, -, rfl⟩ := List.mem_map.mp hinput
    have hbound := boundName?_of_parameter? hread
    obtain rfl := parameter?_inputOf hread
    exact Option.isSome_iff_exists.mpr ⟨_, parameter?_inputOf_of_bound _ hbound⟩
  · rw [hflags] at hflag
    obtain ⟨flag, hname, rfl⟩ := List.mem_map.mp hflag
    exact Option.isSome_iff_exists.mpr ⟨_, parameter?_inputOf_flag hname _⟩

/-- The implementation of a constructor has a parameter for each of the virtual function and one for
each flag. -/
theorem length_parameters_implementationSignature
    (hok : Constructor.of table container = .ok constructor) :
    constructor.implementationSignature.parameters.length =
      constructor.pair.implementation.parameters.length +
        constructor.pair.implementation.flags.length := by
  rw [Signature.parameters, List.filterMap_length_eq_length.mpr fun input hmem =>
    isSome_parameter?_of_mem_inputs hok hmem, Constructor.implementationSignature]
  simp only [List.length_append, List.length_map]

/-- The two functions of a constructor belong together again when they are read back. -/
theorem pairOf?_constructor (hok : Constructor.of table container = .ok constructor) :
    Registry.pairOf? (.ofSignature container constructor.signature)
      constructor.implementationSignature = some constructor.pair := by
  rw [Registry.pairOf?, signature_of_ok hok, (of_eq_ok hok).1, Option.filter_some, if_pos]
  rw [ImplementationFunction.conforms, length_parameters_implementationSignature hok]
  simp [Constructor.implementationSignature]

/-! ### The marked items of a constructor -/

theorem itemRegistrations_virtualItem (hok : Constructor.of table container = .ok constructor) :
    itemRegistrations container constructor.virtualItem =
      [.virtual (.ofSignature container constructor.signature)] := by
  have hread : Signature.ofNode? constructor.signature.toNode = some constructor.signature := by
    rw [signature_of_ok hok]
    exact ofNode?_constructorSignature table
  unfold Constructor.virtualItem publicFunction itemRegistrations functionRegistrations
  simp only [hread]
  exact if_pos rfl

theorem itemRegistrations_implementationItem
    (hok : Constructor.of table container = .ok constructor) :
    itemRegistrations container constructor.implementationItem =
      [.implementation container constructor.implementationSignature] := by
  have hread := ofNode?_implementationSignature hok
  unfold Constructor.implementationItem publicFunction itemRegistrations functionRegistrations
  simp only [hread]
  exact (if_neg Bool.false_ne_true).trans (if_pos rfl)

/-- What a scan registers for a constructor has the effect of inserting its pair. -/
theorem registerAll_constructor (hok : Constructor.of table container = .ok constructor)
    {registry : Registry} (hsorted : registry.pairs.Sorted) :
    let registered := registry.registerAll
      [.virtual (.ofSignature container constructor.signature),
        .implementation container constructor.implementationSignature]
    registered.virtuals = (registry.insertPair constructor.pair).virtuals ∧
      registered.pairs = (registry.insertPair constructor.pair).pairs := by
  refine registerAll_of_pairOf? (pairOf?_constructor hok) ?_ hsorted
  refine implementedName?_of_implementationName? ?_
  have hpair := (of_eq_ok hok).1
  rw [← signature_of_ok hok] at hpair
  obtain ⟨name, hname, heq⟩ := Option.map_eq_some_iff.mp hpair
  rw [hname, Constructor.implementationSignature, ← heq]

end Constructor

/-! ### All constructors -/

/-- What a scan registers for a constructor. -/
def Constructor.registrations (container : String) (constructor : Constructor) :
    List Registration :=
  [.virtual (.ofSignature container constructor.signature),
    .implementation container constructor.implementationSignature]

/-- The constructor in the code of an entity, if it is a record. -/
def EntityCode.constructor? : EntityCode → Option Constructor
  | .record _ constructor => some constructor
  | .conversion _ => none

theorem constructors_eq (code : Code) :
    code.constructors = code.tables.filterMap fun table => table.entity.constructor? := by
  unfold Code.constructors
  congr 1

/-- The record type in the code of an entity, if it is a record. -/
def EntityCode.recordType? : EntityCode → Option RecordType
  | .record type _ => some type
  | .conversion _ => none

theorem recordTypes_eq (code : Code) :
    code.recordTypes = code.tables.filterMap fun table => table.entity.recordType? := by
  unfold Code.recordTypes
  congr 1

section Scanned

variable {unit : SourceUnit} {config : Config} {container : String}

theorem of_constructor?_eq_some {table : Table} {entity : EntityCode} {constructor : Constructor}
    (hentity : EntityCode.of unit config container table = .ok entity)
    (hconstructor : entity.constructor? = some constructor) :
    Constructor.of table container = .ok constructor := by
  unfold EntityCode.of at hentity
  split at hentity
  · obtain ⟨type, -, hentity⟩ := bind_eq_ok_iff.mp hentity
    obtain ⟨own, hown, hentity⟩ := bind_eq_ok_iff.mp hentity
    cases hentity
    cases hconstructor
    exact hown
  · obtain ⟨conversion, -, hentity⟩ := bind_eq_ok_iff.mp hentity
    cases hentity
    cases hconstructor

theorem tableCode_eq_ok {table : Table} {tableCode : TableCode}
    (hok : TableCode.of unit config container table = .ok tableCode) :
    tableCode.table = table ∧ TableType.of table = .ok tableCode.tableType ∧
      SequenceTrait.of table = .ok tableCode.sequence ∧
      EntityCode.of unit config container table = .ok tableCode.entity := by
  obtain ⟨tableType, htableType, hok⟩ := bind_eq_ok_iff.mp hok
  obtain ⟨sequence, hsequence, hok⟩ := bind_eq_ok_iff.mp hok
  obtain ⟨entity, hentity, hok⟩ := bind_eq_ok_iff.mp hok
  cases hok
  exact ⟨rfl, htableType, hsequence, hentity⟩

theorem entityCode_interface {table : Table} {entity : EntityCode}
    (hinterface : table.kind = .interface)
    (hok : EntityCode.of unit config container table = .ok entity) :
    ∃ type constructor, entity = .record type constructor ∧ RecordType.of table = .ok type ∧
      Constructor.of table container = .ok constructor := by
  rw [EntityCode.of, hinterface] at hok
  obtain ⟨type, htype, hok⟩ := bind_eq_ok_iff.mp hok
  obtain ⟨constructor, hconstructor, hok⟩ := bind_eq_ok_iff.mp hok
  cases hok
  exact ⟨type, constructor, rfl, htype, hconstructor⟩

theorem entityCode_struct {table : Table} {entity : EntityCode} (hstruct : table.kind = .struct)
    (hok : EntityCode.of unit config container table = .ok entity) :
    ∃ own, entity = .conversion own ∧ (unit.get? table.key).mapM (fun declaration =>
      Conversion.of table declaration config.allowReflection) = .ok own := by
  rw [EntityCode.of, hstruct, SourceUnit.indexed?_eq_get?] at hok
  obtain ⟨own, hown, hok⟩ := bind_eq_ok_iff.mp hok
  cases hok
  exact ⟨own, rfl, hown⟩

/-! ### Items that are not marked -/

theorem memberRegistrations_memberFunction {attributes : List Node} {visibility : Node}
    {signature : Signature} {body : List Node}
    (hvirtual : Node.anyMarker virtualMarker
      (memberFunction attributes visibility signature body).attributes = false)
    (himplementation : Node.anyMarker implementationMarker
      (memberFunction attributes visibility signature body).attributes = false)
    (container : String) :
    memberRegistrations container (memberFunction attributes visibility signature body) = [] := by
  have hmember : memberRegistrations container
      (memberFunction attributes visibility signature body) = functionRegistrations container
        (memberFunction attributes visibility signature body).attributes signature.toNode := rfl
  rw [hmember, functionRegistrations, hvirtual, himplementation]
  cases Signature.ofNode? signature.toNode <;> rfl

theorem itemRegistrations_implItemOf {generics type : Node} {implFor members : List Node}
    (hmembers : ∀ member ∈ members, ∀ container, memberRegistrations container member = [])
    (module : String) :
    itemRegistrations module (implItemOf generics implFor type members) = [] := by
  unfold implItemOf itemRegistrations
  cases hpath : type.typePath? with
  | none => simp only [hpath]
  | some path =>
      simp only [hpath]
      exact List.flatMap_eq_nil_iff.mpr fun member hmem => hmembers member hmem _

theorem itemRegistrations_recordType (type : RecordType) (module : String) :
    type.code.flatMap (itemRegistrations module) = [] := by
  have hown : ∀ member ∈ type.members, ∀ container,
      memberRegistrations container member = [] := by
    simp only [RecordType.members, List.forall_mem_append, List.forall_mem_cons,
      List.forall_mem_map, List.not_mem_nil, false_imp_iff, implies_true, and_true]
    refine ⟨⟨⟨⟨?_, ?_, ?_⟩, fun getter _ => ?_⟩, fun setter _ => ?_⟩, fun helper _ => ?_⟩
    all_goals exact memberRegistrations_memberFunction rfl rfl
  rw [RecordType.code, List.flatMap_cons, List.flatMap_cons, List.flatMap_cons, List.flatMap_cons,
    ownImpl, itemRegistrations_implItemOf hown, traitImpl, traitImpl,
    itemRegistrations_implItemOf (List.forall_mem_singleton.mpr
      (memberRegistrations_memberFunction rfl rfl)),
    itemRegistrations_implItemOf (List.forall_mem_singleton.mpr
      (memberRegistrations_memberFunction rfl rfl))]
  rfl

theorem itemRegistrations_conversion (conversion : Conversion) (module : String) :
    itemRegistrations module conversion.code = [] := by
  refine itemRegistrations_implItemOf ?_ module
  rw [Conversion.members, List.forall_mem_cons]
  refine ⟨memberRegistrations_memberFunction rfl rfl, fun member hmem => ?_⟩
  obtain ⟨defaulted, -, rfl⟩ := Option.map_eq_some_iff.mp (Option.mem_toList.mp hmem)
  exact memberRegistrations_memberFunction rfl rfl

theorem mem_optionalConstant {name : String} {value : Option String} {member : Node}
    (hmem : member ∈ optionalConstant name value) :
    ∃ text, value = some text ∧
      member = memberConstant name (optionOf staticText) (callOf somePath [textExpr text]) := by
  cases value with
  | none => cases hmem
  | some text => exact ⟨text, rfl, List.mem_singleton.mp hmem⟩

theorem itemRegistrations_tableType (type : TableType) (module : String) :
    type.code.flatMap (itemRegistrations module) = [] := by
  have hconstant : ∀ (name : String) (value : Option String),
      ∀ member ∈ optionalConstant name value, ∀ container,
        memberRegistrations container member = [] := by
    intro name value member hmem container
    obtain ⟨text, -, rfl⟩ := mem_optionalConstant hmem
    rfl
  have htable : ∀ member ∈ type.tableMembers, ∀ container,
      memberRegistrations container member = [] := by
    simp only [TableType.tableMembers, List.forall_mem_cons, List.forall_mem_append,
      List.not_mem_nil, false_imp_iff, implies_true, and_true]
    exact ⟨⟨⟨⟨fun container => rfl, hconstant _ _⟩, hconstant _ _⟩, hconstant _ _⟩,
      memberRegistrations_memberFunction rfl rfl⟩
  have hown : ∀ member ∈ type.accessors.map ColumnAccessor.code, ∀ container,
      memberRegistrations container member = [] :=
    List.forall_mem_map.mpr fun accessor _ => memberRegistrations_memberFunction rfl rfl
  rw [TableType.code, List.flatMap_cons, List.flatMap_cons, List.flatMap_cons, ownImpl, traitImpl,
    itemRegistrations_implItemOf htable, itemRegistrations_implItemOf hown]
  rfl

theorem itemRegistrations_sequence (trait : SequenceTrait) (module : String) :
    trait.code.flatMap (itemRegistrations module) = [] := rfl

/-! ### The items of a table -/

theorem flatMap_itemRegistrations_entity {table : Table} {entity : EntityCode}
    (hentity : EntityCode.of unit config container table = .ok entity) :
    entity.items.flatMap (itemRegistrations container) =
      entity.constructor?.toList.flatMap (Constructor.registrations container) := by
  cases entity with
  | record type constructor =>
      have hok := of_constructor?_eq_some hentity rfl
      simp only [EntityCode.items, EntityCode.constructor?, List.flatMap_append, List.flatMap_cons,
        List.flatMap_nil, Option.toList_some, itemRegistrations_recordType,
        itemRegistrations_virtualItem hok, itemRegistrations_implementationItem hok]
      rfl
  | conversion own =>
      cases own with
      | none => rfl
      | some conversion =>
          simp only [EntityCode.items, EntityCode.constructor?, Option.toList_some, List.map_cons,
            List.map_nil, List.flatMap_cons, List.flatMap_nil, itemRegistrations_conversion]
          rfl

theorem flatMap_itemRegistrations_table {table : Table} {code : TableCode}
    (hcode : TableCode.of unit config container table = .ok code) :
    code.items.flatMap (itemRegistrations container) =
      code.entity.constructor?.toList.flatMap (Constructor.registrations container) := by
  obtain ⟨-, -, -, hentity⟩ := tableCode_eq_ok hcode
  rw [TableCode.items, List.flatMap_append, List.flatMap_append, itemRegistrations_tableType,
    itemRegistrations_sequence, flatMap_itemRegistrations_entity hentity]
  rfl

theorem flatMap_itemRegistrations_tables {tables : List Table} {codes : List TableCode}
    (hcodes : List.Forall₂ (fun table code => TableCode.of unit config container table = .ok code)
      tables codes) :
    (codes.flatMap TableCode.items).flatMap (itemRegistrations container) =
      (codes.filterMap fun code => code.entity.constructor?).flatMap
        (Constructor.registrations container) := by
  induction hcodes with
  | nil => rfl
  | @cons table code tables codes hcode hcodes ih =>
      rw [List.flatMap_cons, List.flatMap_append, ih, flatMap_itemRegistrations_table hcode,
        List.filterMap_cons]
      cases code.entity.constructor? <;> rfl

theorem not_mod_of_mem_items {code : Code} {item : Node} (hmem : item ∈ code.items) :
    item.is .modItem = false := by
  rcases List.mem_append.mp hmem with himport | htable
  · obtain ⟨path, -, rfl⟩ := List.mem_map.mp himport
    rfl
  · obtain ⟨table, -, hitem⟩ := List.mem_flatMap.mp htable
    rcases List.mem_append.mp hitem with hitem | hitem
    · simp only [TableType.code, SequenceTrait.code, List.mem_append, List.mem_cons,
        List.not_mem_nil, or_false] at hitem
      rcases hitem with (rfl | rfl | rfl) | rfl | rfl <;> rfl
    · cases hentity : table.entity with
      | record type constructor =>
          simp only [hentity, EntityCode.items, RecordType.code, List.mem_append, List.mem_cons,
            List.not_mem_nil, or_false] at hitem
          rcases hitem with (rfl | rfl | rfl | rfl) | rfl | rfl <;> rfl
      | conversion own =>
          rw [hentity] at hitem
          obtain ⟨conversion, -, rfl⟩ := List.mem_map.mp hitem
          rfl

theorem ofTables_eq_ok {tables : List Table} {code : Code}
    (hcode : Code.ofTables unit config container tables = .ok code) :
    code.container = container ∧ List.Forall₂ (fun table code =>
      TableCode.of unit config container table = .ok code) tables code.tables := by
  obtain ⟨codes, hcodes, hcode⟩ := bind_eq_ok_iff.mp hcode
  cases hcode
  exact ⟨rfl, mapM_eq_ok_iff.mp hcodes⟩

/-- Generation resolves every table as if alone, and makes the code of each. -/
theorem exists_tables_of_generate {options : Options} {naming : Naming.Registry} {code : Code}
    (hcode : generate unit options naming container = .ok code) :
    ∃ resolver tables, Resolver.create unit options naming = .ok resolver ∧
      (resolver.unit.tables.mapM fun owner => rebuild resolver [] owner.key) = .ok tables ∧
      Code.ofTables unit resolver.config container tables = .ok code := by
  obtain ⟨resolver, hcreate, hcode⟩ := bind_eq_ok_iff.mp hcode
  obtain ⟨tables, htables, hcode⟩ := bind_eq_ok_iff.mp hcode
  exact ⟨resolver, tables, hcreate, (resolveAll_empty resolver) ▸ htables, hcode⟩

/-- A scan of generated code registers the functions of its constructors, in their order. -/
theorem fileRegistrations_file {tables : List Table} {code : Code}
    (hcode : Code.ofTables unit config container tables = .ok code) :
    fileRegistrations container code.file =
      code.constructors.flatMap (Constructor.registrations container) := by
  have hitems : code.file.parts.drop 1 = code.items := rfl
  have himports : ((code.importedModules.filterMap parsePath?).map Code.importItem).flatMap
      (itemRegistrations container) = [] := by
    rw [List.flatMap_map]
    exact List.flatMap_eq_nil_iff.mpr fun path _ => rfl
  rw [fileRegistrations, hitems,
    placeItems_of_not_mod container fun item hmem => not_mod_of_mem_items hmem, List.flatMap_map]
  calc code.items.flatMap (itemRegistrations container)
      = ((code.importedModules.filterMap parsePath?).map Code.importItem).flatMap
            (itemRegistrations container) ++
          (code.tables.flatMap TableCode.items).flatMap (itemRegistrations container) :=
        List.flatMap_append
    _ = code.constructors.flatMap (Constructor.registrations container) := by
        rw [himports, List.nil_append, constructors_eq,
          flatMap_itemRegistrations_tables (ofTables_eq_ok hcode).2]

theorem exists_table_of_mem {tables : List Table} {code : Code}
    (hcode : Code.ofTables unit config container tables = .ok code) {constructor : Constructor}
    (hmem : constructor ∈ code.constructors) :
    ∃ table, Constructor.of table container = .ok constructor := by
  rw [constructors_eq] at hmem
  obtain ⟨tableCode, htable, hconstructor⟩ := List.mem_filterMap.mp hmem
  obtain ⟨index, hindex, rfl⟩ := List.getElem_of_mem htable
  have htables := (ofTables_eq_ok hcode).2
  have hbound : index < tables.length := by rw [htables.length_eq]; exact hindex
  obtain ⟨-, -, -, hentity⟩ := tableCode_eq_ok (htables.get hbound hindex)
  exact ⟨_, of_constructor?_eq_some hentity hconstructor⟩

end Scanned

/-- Registering the functions of some constructors has the effect of inserting their pairs. -/
theorem registerAll_constructors {container : String} {constructors : List Constructor}
    (hok : ∀ constructor ∈ constructors, ∃ table,
      Constructor.of table container = .ok constructor)
    {registry other : Registry} (hsorted : registry.pairs.Sorted)
    (hvirtuals : registry.virtuals = other.virtuals) (hpairs : registry.pairs = other.pairs) :
    let registered :=
      registry.registerAll (constructors.flatMap (Constructor.registrations container))
    let inserted := (constructors.map (·.pair)).foldl Registry.insertPair other
    registered.virtuals = inserted.virtuals ∧ registered.pairs = inserted.pairs := by
  induction constructors generalizing registry other with
  | nil => exact ⟨hvirtuals, hpairs⟩
  | cons constructor rest ih =>
      obtain ⟨table, hconstructor⟩ := hok constructor List.mem_cons_self
      obtain ⟨hfirstVirtuals, hfirstPairs⟩ := registerAll_constructor hconstructor hsorted
      dsimp only
      rw [List.flatMap_cons, registerAll_append, List.map_cons, List.foldl_cons]
      refine ih (fun other hmem => hok other (List.mem_cons_of_mem constructor hmem)) ?_ ?_ ?_
      · exact hfirstPairs ▸ hsorted.insert _ _
      · rw [Constructor.registrations, hfirstVirtuals, Registry.insertPair, hvirtuals]
        rfl
      · rw [Constructor.registrations, hfirstPairs, Registry.insertPair, hpairs]
        rfl

end EntityTables.Generated

namespace EntityTables.Call

open EntityTables.Syntax

/-! ### Calls mean the same by registries with the same functions -/

section SameFunctions

variable {registry other : Registry}

theorem resolve_congr (hvirtuals : registry.virtuals = other.virtuals)
    (hpairs : registry.pairs = other.pairs) (scope : Scope) (target : Target) :
    registry.resolve scope target = other.resolve scope target := by
  -- Implementations are read by nothing but linking.
  have hother : other = { registry with implementations := other.implementations } := by
    rw [hvirtuals, hpairs]
  rw [hother]
  cases target <;> rfl

theorem redirectHere_congr
    (hresolve : ∀ scope target, registry.resolve scope target = other.resolve scope target)
    (scope : Scope) (expr : Node) :
    redirectHere registry scope expr = redirectHere other scope expr := by
  unfold redirectHere
  simp only [hresolve]

mutual

theorem redirectTree_congr
    (hresolve : ∀ scope target, registry.resolve scope target = other.resolve scope target)
    (scope : Scope) :
    (tree : Node) → redirectTree registry scope tree = redirectTree other scope tree
  | .leaf token => by rw [redirectTree, redirectTree]
  | .group delimiter body => by
      rw [redirectTree, redirectTree, redirectTrees_congr hresolve scope body]
  | .phrase kind parts => by
      rw [redirectTree, redirectTree, redirectTrees_congr hresolve (scope.enter kind parts) parts]
      simp only [redirectHere_congr hresolve]

theorem redirectTrees_congr
    (hresolve : ∀ scope target, registry.resolve scope target = other.resolve scope target)
    (scope : Scope) :
    (trees : List Node) → redirectTrees registry scope trees = redirectTrees other scope trees
  | [] => by rw [redirectTrees, redirectTrees]
  | tree :: rest => by
      rw [redirectTrees, redirectTrees, redirectTree_congr hresolve scope tree,
        redirectTrees_congr hresolve scope rest]

end

/-- Registries with the same virtual functions and the same pairs: both mean the same by every call,
and redirect the calls of every file to the same code or fail with the same error. -/
structure Registry.SameAs (registry other : Registry) : Prop where
  virtuals : registry.virtuals = other.virtuals
  pairs : registry.pairs = other.pairs
  resolve : ∀ scope target, registry.resolve scope target = other.resolve scope target
  redirect : ∀ module file, redirectIn registry module file = redirectIn other module file

theorem Registry.SameAs.of_eq (hvirtuals : registry.virtuals = other.virtuals)
    (hpairs : registry.pairs = other.pairs) : registry.SameAs other := by
  have hresolve := resolve_congr hvirtuals hpairs
  refine ⟨hvirtuals, hpairs, hresolve, fun module file => ?_⟩
  rw [redirectIn, redirectIn, redirectTree_congr hresolve]

end SameFunctions

end EntityTables.Call

namespace EntityTables.Generated

open EntityTables.Syntax EntityTables.Schema EntityTables.Call

/-- A registry that scans the marked functions of generated code is the registry of the constructors
that were generated. -/
theorem sameAs_of_fileRegistrations {unit : SourceUnit} {options : Options}
    {naming : Naming.Registry} {container : String} {code : Code} {file : Node}
    (hcode : generate unit options naming container = .ok code)
    (hfile : fileRegistrations container file = fileRegistrations container code.file) :
    (Registry.empty.scanFile container file).SameAs code.registry := by
  obtain ⟨resolver, -, hcode⟩ := bind_eq_ok_iff.mp hcode
  obtain ⟨tables, -, hcode⟩ := bind_eq_ok_iff.mp hcode
  rw [scanFile_eq, hfile, fileRegistrations_file hcode]
  have hempty : Registry.empty.pairs.Sorted := .nil
  obtain ⟨hvirtuals, hpairs⟩ := registerAll_constructors
    (fun constructor hmem => exists_table_of_mem hcode hmem) hempty rfl rfl
  exact .of_eq hvirtuals hpairs

end EntityTables.Generated
