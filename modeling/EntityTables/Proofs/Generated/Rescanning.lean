import EntityTables.Proofs.Generated.ItemNames
import EntityTables.Proofs.Generated.LegibleCode

/-!
# Scanning code that was read again

A scan of generated code starts from its tokens. In the methods of records the types of values stand
behind an `&`, without the parentheses that a type with several bounds needs there. The tokens are a
file exactly if no such type joins bounds, and the file gives the registry of the constructors that
were generated.
-/

namespace EntityTables.Generated

open EntityTables.Syntax EntityTables.Schema EntityTables.Call EntityTables.Text

/-! ### What the methods of records borrow -/

section Borrowed

variable {resolver : Resolver} {key : Key} {table : Table} {type : RecordType} {own : Node}

/-- The methods of a record borrow other records and values of the columns that its own are bound
to. -/
theorem of_mem_borrowedTypes (hok : rebuild resolver [] key = .ok table)
    (htype : RecordType.of table = .ok type) (hmem : own ∈ type.borrowedTypes) :
    (∃ entity, own = recordType entity) ∨
      ∃ column ∈ table.columns, own = column.bound.propertyType := by
  rcases List.mem_append.mp hmem with hmem | hmem
  · rw [(getters_of_recordType htype).2.2.1, List.map_map] at hmem
    obtain ⟨column, hcolumn, rfl⟩ := List.mem_map.mp hmem
    cases hreference : column.reference with
    | none =>
        refine .inr ⟨column, hcolumn, ?_⟩
        simp [Getter.of, Column.readType, hreference, bound_of_plain hreference]
    | some reference =>
        refine .inl ⟨reference.table.entity, ?_⟩
        simp [Getter.of, Column.readType, hreference]
  · obtain ⟨helper, hhelper, rfl⟩ := List.mem_map.mp hmem
    obtain ⟨column, hcolumn, reference, hreference, hof⟩ :=
      exists_column_of_mem_keyHelpers htype hhelper
    obtain ⟨-, -, -, access, haccess, -, hkeyType⟩ := KeyHelper.of_eq_ok hof
    exact .inr ⟨column, hcolumn,
      hkeyType.trans (type_of_keyAccess hok hcolumn hreference haccess)⟩

/-- A value that is no reference is borrowed by its getter. -/
theorem mem_borrowedTypes {column : Column} (htype : RecordType.of table = .ok type)
    (hmem : column ∈ table.columns) (hplain : column.reference = none) :
    column.propertyType ∈ type.borrowedTypes := by
  refine List.mem_append_left _ ?_
  rw [(getters_of_recordType htype).2.2.1, List.map_map]
  refine List.mem_map.mpr ⟨column, hmem, ?_⟩
  simp [Getter.of, Column.readType, hplain]

end Borrowed

section Units

variable {unit : SourceUnit} {options : Options} {naming : Naming.Registry} {container : String}
  {code : Code}

theorem joinsBounds_of_mem_borrowedTypes {own : Node} (hborrows : unit.BorrowsWell)
    (hcode : generate unit options naming container = .ok code) (hmem : own ∈ code.borrowedTypes) :
    joinsBounds own = false := by
  obtain ⟨resolver, rfl, hcodes, -⟩ := codes_of_generate hcode
  obtain ⟨type, htype, hown⟩ := List.mem_flatMap.mp hmem
  obtain ⟨entry, hentry, constructor, hrecord⟩ := exists_entry_of_mem_recordTypes htype
  obtain ⟨owner, -, table, hok, hentry⟩ := hcodes entry hentry
  obtain ⟨-, -, -, hentity⟩ := tableCode_eq_ok hentry
  cases hkind : table.kind with
  | struct =>
      obtain ⟨conversion, heq, -⟩ := entityCode_struct hkind hentity
      cases hrecord.symm.trans heq
  | interface =>
      obtain ⟨_, _, heq, htype, -⟩ := entityCode_interface hkind hentity
      cases hrecord.symm.trans heq
      rcases of_mem_borrowedTypes hok htype hown with ⟨entity, rfl⟩ | ⟨column, hcolumn, rfl⟩
      · rfl
      · exact joinsBounds_bound hborrows hok hcolumn (.inl hkind)

/-- The values of all interfaces can be borrowed if those that are borrowed in the code can. -/
theorem borrowsWell_of_borrowedTypes (hdistinct : unit.DistinctKeys)
    (hcode : generate unit options naming container = .ok code)
    (hborrowed : ∀ own ∈ code.borrowedTypes, joinsBounds own = false) : unit.BorrowsWell := by
  obtain ⟨resolver, rfl, -, hcodes⟩ := codes_of_generate hcode
  intro owner howner hinterface property hproperty hplain
  obtain ⟨entry, hentry, table, hok, hcodeOf⟩ := hcodes owner howner
  obtain ⟨-, -, -, hentity⟩ := tableCode_eq_ok hcodeOf
  obtain ⟨declaration, hdescribes⟩ := exists_describes hok
  obtain rfl : declaration = owner := by
    have hfound := hdescribes.found
    rw [key_of_rebuild hok, get?_of_distinct hdistinct (List.mem_of_mem_filter howner)] at hfound
    exact (Option.some.inj hfound).symm
  have hkind : table.kind = .interface := Except.ok.inj (hdescribes.kind.symm.trans hinterface)
  obtain ⟨type, constructor, hrecord, htype, -⟩ := entityCode_interface hkind hentity
  obtain ⟨resolve, hcolumns⟩ := hdescribes.columns
  obtain ⟨column, hcolumn, hof⟩ := exists_mem_of_mapM_ok hcolumns hproperty
  have hreference : column.reference = none := by
    have hisReference := (of_columnOf hof).reference
    rw [hplain] at hisReference
    exact Option.isNone_iff_eq_none.mp (Option.isSome_eq_false_iff.mp hisReference)
  rw [← (of_columnOf hof).type]
  exact hborrowed _ (List.mem_flatMap.mpr
    ⟨type, mem_recordTypes hentry hrecord, mem_borrowedTypes htype hcolumn hreference⟩)

/-- The tokens of generated code are a file exactly if nothing that is borrowed joins bounds. -/
theorem isSome_reread?_iff (hcode : code.Legible) : code.reread?.isSome ↔
    ∀ own ∈ code.borrowedTypes, joinsBounds own = false := by
  refine ⟨fun hread own hmem => Bool.eq_false_iff.mpr fun hjoins => ?_, fun hborrowed => ?_⟩
  · rw [hcode.reread?_eq_none ⟨own, hmem, hjoins⟩] at hread
    exact Bool.false_ne_true hread
  · obtain ⟨file, hfile, -⟩ := hcode.exists_file hborrowed
    rw [hfile]
    rfl

/-- **Scanned constructors.** A registry that scans the items of generated code has the same virtual
functions and the same pairs as the registry of the constructors that were generated. So has one that
scans the file which the tokens of the code are read as; they are a file if and only if no interface
has a value of a type with several bounds. -/
theorem scanFile_generated {texts : List (String × String)}
    (hunit : SourceUnit.empty.addTexts texts = .ok unit)
    (hcode : generate unit options naming container = .ok code) :
    (Registry.empty.scanFile container code.file).SameAs code.registry ∧
      (unit.Legible → (code.reread?.isSome ↔ unit.BorrowsWell) ∧ ∀ file, code.reread? = some file →
        (Registry.empty.scanFile container file).SameAs code.registry) := by
  refine ⟨sameAs_of_fileRegistrations hcode rfl, fun hlegible => ?_⟩
  have hnamed := SourceUnit.named_of_addTexts hunit
  have hdistinct := SourceUnit.distinctKeys_of_addTexts hunit
  have hcodeLegible := legible_of_generate hlegible hnamed hcode
  have hread := isSome_reread?_iff hcodeLegible
  refine ⟨hread.trans ⟨borrowsWell_of_borrowedTypes hdistinct hcode,
    fun hborrows own hmem => joinsBounds_of_mem_borrowedTypes hborrows hcode hmem⟩, ?_⟩
  intro file hfile
  obtain ⟨own, hown, hregistrations⟩ := hcodeLegible.exists_file (hread.mp (by rw [hfile]; rfl))
  obtain rfl : file = own := Option.some.inj (hfile.symm.trans hown)
  exact sameAs_of_fileRegistrations hcode (hregistrations container)

end Units

section Instances

/-- A unit of traits can be read if the types of their properties and their modules can. -/
theorem legible_of_traits {unit : SourceUnit} (himpls : unit.sqlTypeImpls = [])
    (htraits : ∀ declaration ∈ unit.declarations, declaration.kind = .trait ∧
      IsPathText declaration.key.module ∧ ∀ property ∈ declaration.properties,
        ReadsBack property.type ∧ ReadsBack property.type.stripOption.1) : unit.Legible := by
  refine ⟨fun owner howner => (htraits owner (List.mem_of_mem_filter howner)).2.2, ?_,
    fun owner howner => (htraits owner (List.mem_of_mem_filter howner)).2.1, ?_, ?_⟩
  · rw [himpls]
    exact List.forall_mem_nil _
  · intro declaration hmem hkind
    cases (htraits declaration hmem).1.symm.trans hkind
  · intro owner howner isUnit properties hshape
    have hkind := (htraits owner (List.mem_of_mem_filter howner)).1
    rw [Declaration.kind, hshape] at hkind
    cases isUnit <;> cases hkind

theorem isPathText_contacts : ∀ module ∈ contactTexts.map (·.1), IsPathText module := by
  have hcrate : IsPathName "crate" := ⟨.plain (by decide), .inr (by decide)⟩
  have hwithin {name : String} (hname : IsPathName name) : IsPathText (joinNames ["crate", name]) :=
    ⟨"crate", [name], hcrate, List.forall_mem_singleton.mpr hname, .inl rfl⟩
  exact List.forall_mem_cons.mpr ⟨@hwithin "hr" ⟨.plain (by decide), .inl (by decide)⟩,
    List.forall_mem_singleton.mpr (@hwithin "sales" ⟨.plain (by decide), .inl (by decide)⟩)⟩

/-- The code of persons and customers is read again, and scanned for both constructors. -/
theorem scanFile_generated_contacts : ∃ unit code file,
    SourceUnit.empty.addTexts contactTexts = .ok unit ∧ unit.Legible ∧
      generate unit .none .empty "crate::generated" = .ok code ∧ code.reread? = some file ∧
      code.registry.pairs.keys =
        [⟨"crate::generated", "Customer"⟩, ⟨"crate::generated", "Person"⟩] ∧
      (Registry.empty.scanFile "crate::generated" file).pairs = code.registry.pairs := by
  have hgenerated : (codeOfTexts contactTexts).toOption.map (fun result =>
      (decide (∀ declaration ∈ result.1.declarations, declaration.kind = .trait ∧
        declaration.key.module ∈ contactTexts.map (·.1) ∧
          ∀ property ∈ declaration.properties, property.type = namedType "i32"),
        result.1.sqlTypeImpls.length, result.2.registry.pairs.keys)) =
      some (true, 0, [⟨"crate::generated", "Customer"⟩, ⟨"crate::generated", "Person"⟩]) := by
    decide +kernel
  obtain ⟨⟨unit, code⟩, hok, hparts⟩ := exists_ok_of_toOption hgenerated
  simp only [codeOfTexts, bind_eq_ok_iff] at hok
  obtain ⟨unit', hunit, code', hcode, hpure⟩ := hok
  cases hpure
  simp only [Prod.mk.injEq, decide_eq_true_eq] at hparts
  obtain ⟨hdeclared, himpls, hkeys⟩ := hparts
  have hnumber : ReadsBack (namedType "i32") := ⟨readsType_namedType (by decide), rfl⟩
  have hlegible : unit.Legible := by
    refine legible_of_traits (List.length_eq_zero_iff.mp himpls) fun declaration hmem => ?_
    obtain ⟨hkind, hmodule, htypes⟩ := hdeclared declaration hmem
    refine ⟨hkind, isPathText_contacts _ hmodule, fun property hproperty => ?_⟩
    rw [htypes property hproperty]
    exact ⟨hnumber, hnumber⟩
  have hborrows : unit.BorrowsWell := by
    intro owner howner hinterface property hproperty hplain
    obtain ⟨-, -, htypes⟩ := hdeclared owner (List.mem_of_mem_filter howner)
    rw [htypes property (mem_properties_of_mem_ordered hproperty)]
    rfl
  obtain ⟨-, hscanned⟩ := scanFile_generated hunit hcode
  obtain ⟨hread, hsame⟩ := hscanned hlegible
  obtain ⟨file, hfile⟩ := Option.isSome_iff_exists.mp (hread.mpr hborrows)
  exact ⟨unit, code, file, hunit, hlegible, hcode, hfile, hkeys, (hsame file hfile).pairs⟩

/-- A note, with something to be shown for its key. -/
def noteTexts : List (String × String) :=
  [("crate", "#[table] trait Note: Entity \x7b #[primary_key]
    #[column(sql_type = \"VarcharSqlType\")] fn text(&self) -> impl Display + Send; \x7d")]

/-- The code of notes is generated with a constructor, but its tokens are no file. -/
theorem reread?_notes : ∃ unit code,
    SourceUnit.empty.addTexts noteTexts = .ok unit ∧ unit.Legible ∧ ¬unit.BorrowsWell ∧
      generate unit .none .empty "crate::generated" = .ok code ∧
      code.registry.pairs.keys = [⟨"crate::generated", "Note"⟩] ∧ code.reread? = none := by
  have hgenerated : (codeOfTexts noteTexts).toOption.map (fun result =>
      (decide (∀ declaration ∈ result.1.declarations, declaration.kind = .trait ∧
        declaration.key.module = "crate" ∧ ∀ property ∈ declaration.properties,
          property.type = implOf (namePath ["Display"]) (namePath ["Send"])),
        result.1.sqlTypeImpls.length, result.2.borrowedTypes.map joinsBounds,
        result.2.registry.pairs.keys)) =
      some (true, 0, [true], [⟨"crate::generated", "Note"⟩]) := by decide +kernel
  obtain ⟨⟨unit, code⟩, hok, hparts⟩ := exists_ok_of_toOption hgenerated
  simp only [codeOfTexts, bind_eq_ok_iff] at hok
  obtain ⟨unit', hunit, code', hcode, hpure⟩ := hok
  cases hpure
  simp only [Prod.mk.injEq, decide_eq_true_eq] at hparts
  obtain ⟨hdeclared, himpls, hjoins, hkeys⟩ := hparts
  have htype : ReadsBack (implOf (namePath ["Display"]) (namePath ["Send"])) :=
    ⟨readsType_implOf (readsPath_name (by decide)) (readsPath_name (by decide)), rfl⟩
  have hcrate : IsPathText "crate" :=
    ⟨"crate", [], ⟨.plain (by decide), .inr (by decide)⟩, List.forall_mem_nil _, .inl rfl⟩
  have hlegible : unit.Legible := by
    refine legible_of_traits (List.length_eq_zero_iff.mp himpls) fun declaration hmem => ?_
    obtain ⟨hkind, hmodule, htypes⟩ := hdeclared declaration hmem
    refine ⟨hkind, hmodule ▸ hcrate, fun property hproperty => ?_⟩
    rw [htypes property hproperty]
    exact ⟨htype, htype⟩
  have hjoined : ∃ own ∈ code.borrowedTypes, joinsBounds own = true :=
    List.mem_map.mp (hjoins ▸ List.mem_singleton_self true)
  refine ⟨unit, code, hunit, hlegible, fun hborrows => ?_, hcode, hkeys, ?_⟩
  · obtain ⟨own, hmem, hown⟩ := hjoined
    exact Bool.false_ne_true
      ((joinsBounds_of_mem_borrowedTypes hborrows hcode hmem).symm.trans hown)
  · exact (legible_of_generate hlegible (SourceUnit.named_of_addTexts hunit) hcode).reread?_eq_none
      hjoined

end Instances

end EntityTables.Generated
