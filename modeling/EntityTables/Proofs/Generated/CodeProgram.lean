import EntityTables.Proofs.Generated.EntityProgram
import EntityTables.Proofs.Generated.Totality

/-!
# The program of generated code

All items that are generated for a unit are one program. A method of a record type is found by its
name if no other method of the type has it, and the implementation of the trait of tables by the
type that it is for.
-/

namespace EntityTables.Generated

open EntityTables.Syntax EntityTables.Schema EntityTables.Call

variable {α : Type}

/-! ### Methods of a type -/

/-- The methods that the implementations of a type itself have. -/
def methodsOf (items : List Node) (type : Node) : List Function :=
  (ownMembers items type).filterMap functionOf?

/-- The names of the methods of a type; the mark of a raw identifier makes no difference. -/
def methodNames (items : List Node) (type : Node) : List String :=
  (methodsOf items type).map fun function => withoutRaw function.signature.name

section Methods

variable {items : List Node} {type : Node} {function : Function}

/-- A method with a name of its own is the first with its name that is like it. -/
theorem find?_method_of_mem (hnames : (methodNames items type).Nodup)
    (hmem : function ∈ methodsOf items type) {sought : Function → Bool}
    (hown : sought function = true)
    (hname : ∀ other, sought other = true → other.signature.name = function.signature.name) :
    (methodsOf items type).find? sought = some function := by
  obtain ⟨found, hfound⟩ : ∃ found, (methodsOf items type).find? sought = some found := by
    rw [← Option.isSome_iff_exists, List.find?_isSome]
    exact ⟨function, hmem, hown⟩
  rw [hfound]
  refine congrArg some (List.inj_on_of_nodup_map hnames (List.mem_of_find?_eq_some hfound) hmem ?_)
  rw [hname found (List.find?_some hfound)]

theorem functionNamed?_of_mem (hnames : (methodNames items type).Nodup)
    (hmem : function ∈ methodsOf items type) :
    functionNamed? (ownMembers items type) function.signature.name = some function :=
  find?_method_of_mem hnames hmem (beq_self_eq_true _) fun _ => beq_iff_eq.mp

/-- A method is run by its name. -/
theorem call_of_mem {program : Program α} (hnames : (methodNames program.items type).Nodup)
    (hmem : function ∈ methodsOf program.items type) (depth : Nat) (arguments : List (Datum α)) :
    program.call? (depth + 1) (.own type function.signature.name) arguments =
      (function.run (program.surroundings (program.call? depth) type) arguments).map (·.1) := by
  rw [Program.call?, functionNamed?_of_mem hnames hmem, Option.bind_some]

theorem method?_of_mem {program : Program α} (hnames : (methodNames program.items type).Nodup)
    (hmem : function ∈ methodsOf program.items type) {receiver : Node}
    (hreceiver : function.signature.inputs.head? = some receiver) :
    program.method? type receiver function.signature.name = some function :=
  find?_method_of_mem hnames hmem (by simp [hreceiver]) (by simp +contextual)

end Methods

/-! ### The trait of tables -/

theorem tableMembers?_append (first second : List Node) (self : Node) :
    tableMembers? (first ++ second) self =
      (tableMembers? first self).or (tableMembers? second self) :=
  List.findSome?_append

theorem tableMembers?_imports (paths : List Node) (self : Node) :
    tableMembers? (paths.map Code.importItem) self = none := by
  rw [tableMembers?, List.findSome?_eq_none_iff, List.forall_mem_map]
  exact fun _ _ => rfl

/-- Only the code of a table type implements the trait of tables. -/
theorem tableMembers?_tableCode (entry : TableCode) (self : Node) :
    tableMembers? entry.items self =
      if entry.tableType.selfType = self then some entry.tableType.tableMembers else none := by
  have hdefault : rootPath ["core", "default", "Default"] ≠ tableTrait := by decide
  have hentity : toolPath "Entity" ≠ tableTrait := by decide
  have hlength : ∀ name, (namePath [name]).parts.length = 1 := fun _ => rfl
  have hsequence : ∀ name, namePath [name] ≠ tableTrait := fun name hsame => by
    have htrait := hlength name
    rw [hsame] at htrait
    revert htrait
    decide
  have htype : tableMembers? entry.tableType.code self =
      if entry.tableType.selfType = self then some entry.tableType.tableMembers else none := by
    by_cases hself : entry.tableType.selfType = self <;>
      simp [tableMembers?, TableType.code, publicStruct, ownImpl, traitImpl, implItemOf, braces,
        hself]
  have hother : tableMembers? entry.sequence.code self = none := by
    simp [tableMembers?, SequenceTrait.code, implItemOf, braces, hsequence]
  have hown : tableMembers? entry.entity.items self = none := by
    cases entry.entity with
    | record type constructor =>
        simp [tableMembers?, EntityCode.items, RecordType.code, publicStruct, ownImpl, traitImpl,
          implItemOf, Constructor.virtualItem, Constructor.implementationItem, publicFunction,
          braces, hdefault, hentity]
    | conversion own =>
        cases own <;>
          simp [tableMembers?, EntityCode.items, Conversion.code, ownImpl, implItemOf, braces]
  rw [TableCode.items, tableMembers?_append, tableMembers?_append, hother, hown, htype,
    Option.or_none, Option.or_none]

/-- A table type implements the trait of tables by the first code that is generated for its name. -/
theorem tableMembers?_items (code : Code) (name : String) :
    tableMembers? code.items (namedType name) =
      (code.tableTypes.find? (·.name == name)).map TableType.tableMembers := by
  have htables : ∀ tables : List TableCode,
      tableMembers? (tables.flatMap TableCode.items) (namedType name) =
        ((tables.map (·.tableType)).find? (·.name == name)).map TableType.tableMembers := by
    intro tables
    induction tables with
    | nil => rfl
    | cons entry rest ih =>
        rw [List.flatMap_cons, tableMembers?_append, tableMembers?_tableCode, ih, List.map_cons,
          List.find?_cons]
        rw [TableType.selfType]
        by_cases hname : entry.tableType.name = name
        · rw [if_pos (congrArg namedType hname), hname, beq_self_eq_true]
          rfl
        · rw [if_neg (fun hsame => hname (namedType_inj hsame)), beq_false_of_ne hname]
          rfl
  rw [Code.items, tableMembers?_append, tableMembers?_imports, htables]
  rfl

/-! ### Methods of generated types -/

section Records

variable {code : Code} {entry : TableCode} {type : RecordType} {constructor : Constructor}

theorem mem_recordTypes (hentry : entry ∈ code.tables)
    (hentity : entry.entity = .record type constructor) : type ∈ code.recordTypes :=
  List.mem_filterMap.mpr ⟨entry, hentry, by rw [hentity]⟩

/-- The members of an implementation are among those of its type. -/
theorem sublist_ownMembers {items : List Node} {self : Node} {members : List Node}
    (hitem : ownImpl self members ∈ items) : members.Sublist (ownMembers items self) := by
  refine List.sublist_flatten_of_mem (List.mem_map.mpr ⟨_, hitem, ?_⟩)
  change (if self = self then members else []) = members
  exact if_pos rfl

theorem mem_items {item : Node} (hentry : entry ∈ code.tables) (hitem : item ∈ entry.items) :
    item ∈ code.items :=
  List.mem_append_right _ (List.mem_flatMap.mpr ⟨entry, hentry, hitem⟩)

theorem exists_entry_of_mem_recordTypes (htype : type ∈ code.recordTypes) :
    ∃ entry ∈ code.tables, ∃ constructor, entry.entity = .record type constructor := by
  obtain ⟨entry, hentry, hentity⟩ := List.mem_filterMap.mp htype
  refine ⟨entry, hentry, ?_⟩
  cases hown : entry.entity with
  | record own constructor =>
      rw [hown] at hentity
      exact ⟨constructor, by rw [Option.some.inj hentity]⟩
  | conversion =>
      rw [hown] at hentity
      cases hentity

/-- The members of a record type are in the code. -/
theorem sublist_ownMembers_record (htype : type ∈ code.recordTypes) :
    type.members.Sublist (ownMembers code.items type.selfType) := by
  obtain ⟨entry, hentry, constructor, hrecord⟩ := exists_entry_of_mem_recordTypes htype
  refine sublist_ownMembers (mem_items hentry ?_)
  rw [TableCode.items, hrecord]
  exact List.mem_append_right _ (List.mem_append_left _ (List.mem_cons_of_mem _ List.mem_cons_self))

/-- The accessors of a table type are in the code. -/
theorem mem_ownMembers_tableType (hentry : entry ∈ code.tables) {accessor : ColumnAccessor}
    (haccessor : accessor ∈ entry.tableType.accessors) :
    accessor.code ∈ ownMembers code.items entry.tableType.selfType := by
  refine (sublist_ownMembers (mem_items hentry ?_)).subset (List.mem_map_of_mem haccessor)
  exact List.mem_append_left _ (List.mem_append_left _
    (List.mem_cons_of_mem _ (List.mem_cons_of_mem _ List.mem_cons_self)))

end Records

end EntityTables.Generated
