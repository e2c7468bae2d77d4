import EntityTables.Proofs.Generated.CodeProgram
import EntityTables.Proofs.Generated.Scanning
import EntityTables.Proofs.Generated.WrittenRecords
import EntityTables.Proofs.Schema.Legible

/-!
# Reading generated code again

Generated code is scanned after its tokens were read as a file again. The bodies and the arguments of
attributes may be read as trees of another form than those that were written, but signatures and the
paths of attributes come back as they are, and a scan looks at nothing else.
-/

namespace EntityTables.Generated

open EntityTables.Syntax EntityTables.Schema EntityTables.Call

/-! ### What a scan looks at comes back -/

section Registrations

variable {attributes read : List Node}

theorem isMarker_congr {written own : Node} (hpath : own.attributePath = written.attributePath)
    (marker : String) : Node.isMarker marker own = Node.isMarker marker written := by
  unfold Node.isMarker
  rw [hpath]

theorem anyMarker_read (hread : List.Forall₂ ReadsAttribute attributes read) (marker : String) :
    Node.anyMarker marker read = Node.anyMarker marker attributes := by
  induction hread with
  | nil => rfl
  | cons hfirst hrest ih =>
      rw [Node.anyMarker, List.any_cons, isMarker_congr hfirst.sameForm, ← Node.anyMarker, ih]
      rfl

/-- The attributes of an item whose body starts with none. -/
theorem attributes_of_body {kind : Kind} {parts body : List Node}
    (hbody : ∀ node ∈ body, node.is .attributes = false) :
    (Node.phrase kind (.phrase .attributes attributes :: parts ++ [braces body])).attributes =
      attributes := by
  have hlast : (Node.phrase kind (.phrase .attributes attributes :: parts ++
      [braces body])).parts.getLast? = some (braces body) := by
    rw [Node.parts, List.getLast?_append]
    rfl
  have hnone : Node.bodyAttributes (.phrase kind (.phrase .attributes attributes :: parts ++
      [braces body])) = [] := by
    unfold Node.bodyAttributes
    rw [hlast]
    cases body with
    | nil => rfl
    | cons first rest =>
        have hfirst := hbody first List.mem_cons_self
        unfold braces
        split
        · next heq =>
            cases heq
            cases hfirst
        · rfl
  rw [Node.attributes, hnone, List.append_nil]
  rfl

theorem functionRegistrations_read (hread : List.Forall₂ ReadsAttribute attributes read)
    (container : String) (signature : Node) :
    functionRegistrations container read signature =
      functionRegistrations container attributes signature := by
  rw [functionRegistrations, functionRegistrations, anyMarker_read hread, anyMarker_read hread]

theorem memberRegistrations_read {member own : Node} (hform : MemberForm member own)
    (container : String) : memberRegistrations container own = memberRegistrations container member := by
  cases hform with
  | constant name type value => rfl
  | @function attributes read hattributes visibility signature body inside hbody hinside =>
      have hown := @attributes_of_body read .implFn
        [visibility, .empty .qualifiers, signature.toNode] inside hinside
      have hwritten := @attributes_of_body attributes .implFn
        [visibility, .empty .qualifiers, signature.toNode] body hbody
      have hregistered := functionRegistrations_read hattributes container signature.toNode
      exact (congrArg (functionRegistrations container · signature.toNode) hown).trans
        (hregistered.trans (congrArg (functionRegistrations container · signature.toNode) hwritten.symm))

theorem itemRegistrations_read {item own : Node} (hitem : ItemReading item own) (module : String) :
    itemRegistrations module own = itemRegistrations module item := by
  cases hitem with
  | @function attributes read hattributes visibility signature body inside hbody hinside =>
      have hown := @attributes_of_body read .fnItem [visibility, signature.toNode] inside hinside
      have hwritten := @attributes_of_body attributes .fnItem [visibility, signature.toNode] body hbody
      have hregistered := functionRegistrations_read hattributes module signature.toNode
      exact (congrArg (functionRegistrations module · signature.toNode) hown).trans
        (hregistered.trans (congrArg (functionRegistrations module · signature.toNode) hwritten.symm))
  | @implementation generics implFor type members read hmembers =>
      unfold implItemOf itemRegistrations
      cases hpath : type.typePath? with
      | none => simp only [hpath]
      | some path =>
          simp only [hpath, braces, Node.parts]
          induction hmembers with
          | nil => rfl
          | cons hfirst hrest ih => rw [List.flatMap_cons, List.flatMap_cons, ih,
              memberRegistrations_read hfirst]
  | @other kind hkind written read =>
      rcases List.mem_cons.mp hkind with rfl | hkind
      · rfl
      rcases List.mem_cons.mp hkind with rfl | hkind
      · rfl
      obtain rfl := List.mem_singleton.mp hkind
      rfl

theorem is_modItem_read {item own : Node} (hitem : ItemReading item own) :
    own.is .modItem = false ∧ item.is .modItem = false := by
  cases hitem with
  | function hattributes visibility signature hbody hinside => exact ⟨rfl, rfl⟩
  | implementation generics implFor type hmembers => exact ⟨rfl, rfl⟩
  | other hkind written read =>
      have hmod : ∀ kind ∈ [Kind.structItem, .traitItem, .useItem], (kind == .modItem) = false := by
        decide
      exact ⟨hmod _ hkind, hmod _ hkind⟩

/-- The items of a file are registered as they were written. -/
theorem fileRegistrations_read {items own : List Node} (hitems : List.Forall₂ ItemReading items own)
    (container : String) :
    fileRegistrations container (.phrase .file (.empty .attributes :: own)) =
      fileRegistrations container (.phrase .file (.empty .attributes :: items)) := by
  have hplaced : ∀ nodes : List Node, (∀ node ∈ nodes, node.is .modItem = false) →
      fileRegistrations container (.phrase .file (.empty .attributes :: nodes)) =
        nodes.flatMap (itemRegistrations container) := by
    intro nodes hnodes
    have hparts : (Node.phrase .file (.empty .attributes :: nodes)).parts.drop 1 = nodes := rfl
    rw [fileRegistrations, hparts, placeItems_of_not_mod container hnodes, List.flatMap_map]
  have hmod : (∀ node ∈ own, node.is .modItem = false) ∧ ∀ node ∈ items, node.is .modItem = false := by
    induction hitems with
    | nil => exact ⟨List.forall_mem_nil _, List.forall_mem_nil _⟩
    | cons hfirst hrest ih =>
        exact ⟨List.forall_mem_cons.mpr ⟨(is_modItem_read hfirst).1, ih.1⟩,
          List.forall_mem_cons.mpr ⟨(is_modItem_read hfirst).2, ih.2⟩⟩
  rw [hplaced own hmod.1, hplaced items hmod.2]
  induction hitems with
  | nil => rfl
  | cons hfirst hrest ih =>
      rw [List.flatMap_cons, List.flatMap_cons, itemRegistrations_read hfirst,
        ih ⟨(List.forall_mem_cons.mp hmod.1).2, (List.forall_mem_cons.mp hmod.2).2⟩]

end Registrations

/-! ### Whole code -/

def EntityCode.Legible : EntityCode → Prop
  | .record type constructor => type.Legible ∧ constructor.Legible
  | .conversion own => ∀ conversion ∈ own, conversion.Legible

structure TableCode.Legible (code : TableCode) : Prop where
  tableType : code.tableType.Legible
  sequence : code.sequence.Legible
  entity : code.entity.Legible

/-- Code whose names, types and paths can be read where they stand. -/
structure Code.Legible (code : Code) : Prop where
  modules : ∀ module ∈ code.importedModules, IsPathText module
  tables : ∀ entry ∈ code.tables, entry.Legible

section Files

variable {code : Code}

theorem readsItem_importItem {module : String} {path : Node} (hmodule : IsPathText module)
    (hpath : parsePath? module = some path) : ReadsItem (Code.importItem path) := by
  obtain ⟨first, names, hfirst, hnames, htext⟩ := hmodule
  have hwords : ∀ name ∈ first :: names, isSegmentWord name = true :=
    List.forall_mem_cons.mpr ⟨isSegmentWord_of_isPathName hfirst, fun name hmem =>
      isSegmentWord_of_isPathName (hnames name hmem)⟩
  have hform : path = pathOf ((first :: names).map segmentOf) ∨
      path = absolutePath ((first :: names).map segmentOf) := by
    rcases htext with rfl | rfl
    · exact .inl (Option.some.inj (hpath.symm.trans (parsePath?_joinNames hfirst hnames)))
    · exact .inr (Option.some.inj (hpath.symm.trans (parsePath?_leading hfirst hnames)))
  have hattributes : List.Forall₂ ReadsAttribute [allowing ["unused_imports"]] _ :=
    .cons (readsAttribute_list (by decide) (["unused_imports"].map words)) .nil
  exact readsItem_import hattributes hwords hform

/-- The items of a table are read, apart from the implementation that holds the methods of its
record. -/
theorem TableCode.Legible.readsItem {entry : TableCode} (hentry : entry.Legible) :
    ∀ item ∈ entry.items, ReadsItem item ∨
      ∃ type constructor, entry.entity = .record type constructor ∧ item = type.ownCode := by
  have hentity := hentry.entity
  refine List.forall_mem_append.mpr ⟨List.forall_mem_append.mpr
    ⟨fun item hmem => .inl (hentry.tableType.readsItem item hmem),
      fun item hmem => .inl (hentry.sequence.readsItem item hmem)⟩, ?_⟩
  cases hcode : entry.entity with
  | record type constructor =>
      rw [hcode] at hentity
      refine List.forall_mem_append.mpr ⟨fun item hmem => ?_, List.forall_mem_cons.mpr
        ⟨.inl hentity.2.readsItem_virtual,
          List.forall_mem_singleton.mpr (.inl hentity.2.readsItem_implementation)⟩⟩
      rcases hentity.1.readsItem item hmem with hown | hread
      · exact .inr ⟨type, constructor, rfl, hown⟩
      · exact .inl hread
  | conversion own =>
      rw [hcode] at hentity
      intro item hmem
      obtain ⟨conversion, hconversion, rfl⟩ := List.mem_map.mp hmem
      exact .inl (hentity conversion (Option.mem_toList.mp hconversion)).readsItem

/-- The types that stand behind an `&` in the methods of records. -/
def Code.borrowedTypes (code : Code) : List Node := code.recordTypes.flatMap (·.borrowedTypes)

theorem Code.Legible.record (hcode : code.Legible) {type : RecordType}
    (htype : type ∈ code.recordTypes) : type.Legible ∧ type.ownCode ∈ code.items := by
  obtain ⟨entry, hentry, constructor, hrecord⟩ := exists_entry_of_mem_recordTypes htype
  have hentity := (hcode.tables entry hentry).entity
  rw [hrecord] at hentity
  refine ⟨hentity.1, mem_items hentry ?_⟩
  rw [TableCode.items, hrecord]
  exact List.mem_append_right _ (List.mem_append_left _ (List.mem_cons_of_mem _ List.mem_cons_self))

theorem Code.Legible.readsItem (hcode : code.Legible) : ∀ item ∈ code.items, ReadsItem item ∨
    ∃ type ∈ code.recordTypes, item = type.ownCode := by
  refine List.forall_mem_append.mpr ⟨List.forall_mem_map.mpr fun path hmem => ?_,
    fun item hmem => ?_⟩
  · obtain ⟨module, hmodule, hpath⟩ := List.mem_filterMap.mp hmem
    exact .inl (readsItem_importItem (hcode.modules module hmodule) hpath)
  · obtain ⟨entry, hentry, hitem⟩ := List.mem_flatMap.mp hmem
    refine ((hcode.tables entry hentry).readsItem item hitem).imp_right ?_
    rintro ⟨type, constructor, hentity, hown⟩
    exact ⟨type, mem_recordTypes hentry hentity, hown⟩

/-- Legible code is read again as a file in which a scan finds what was written, if nothing that is
borrowed joins bounds. -/
theorem Code.Legible.exists_file (hcode : code.Legible)
    (hborrows : ∀ type ∈ code.borrowedTypes, joinsBounds type = false) : ∃ file,
      code.reread? = some file ∧ ∀ container,
        fileRegistrations container file = fileRegistrations container code.file := by
  have hitems : ∀ item ∈ code.items, ReadsItem item := fun item hmem => by
    rcases hcode.readsItem item hmem with hread | ⟨type, htype, rfl⟩
    · exact hread
    · exact (hcode.record htype).1.readsItem_own fun own hown =>
        hborrows own (List.mem_flatMap.mpr ⟨type, htype, hown⟩)
  obtain ⟨read, hread, hforms⟩ := fileOf?_lexed hitems
  exact ⟨_, hread, fileRegistrations_read hforms⟩

/-- Legible code is no file if something that is borrowed joins bounds. -/
theorem Code.Legible.reread?_eq_none (hcode : code.Legible)
    (hjoins : ∃ type ∈ code.borrowedTypes, joinsBounds type = true) : code.reread? = none := by
  refine fileOf?_eq_none (fun item hmem => ?_) ?_
  · rcases hcode.readsItem item hmem with hread | ⟨type, htype, rfl⟩
    · exact .inl hread
    · exact (hcode.record htype).1.item_cases
  · obtain ⟨own, hmem, hjoins⟩ := hjoins
    obtain ⟨type, htype, hown⟩ := List.mem_flatMap.mp hmem
    obtain ⟨hlegible, hitem⟩ := hcode.record htype
    exact ⟨type.ownCode, hitem, hlegible.rejectsItem_own ⟨own, hown, hjoins⟩⟩

end Files

end EntityTables.Generated
