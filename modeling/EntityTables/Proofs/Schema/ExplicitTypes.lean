import EntityTables.Proofs.Syntax.PathText
import EntityTables.Proofs.Unit.Lookup
import EntityTables.Schema.SqlType

/-!
# SQL types that are given

The path in a marker means a unit struct with an implementation, or else, only where the unit has no
declaration of that name, a built-in SQL type. The implementations of a unit are looked up each in
its own module, and the first one whose type is the declaration counts. Every other path is refused
for one reason, and the key of a declaration can always be written as a path.
-/

namespace EntityTables

open EntityTables.Syntax EntityTables.Text

namespace SourceUnit

variable {unit : SourceUnit} {declaration : Declaration} {impl : SqlTypeImpl}

/-- An implementation is one of a declaration: its type means the declaration where it stands. -/
def Implements (unit : SourceUnit) (declaration : Declaration) (impl : SqlTypeImpl) : Prop :=
  ∃ found, unit.lookup impl.selfType impl.module = .found found ∧ found.key = declaration.key

/-- The implementation of a declaration that stands before all others in the unit. -/
def FirstImplements (unit : SourceUnit) (declaration : Declaration) (impl : SqlTypeImpl) : Prop :=
  unit.Implements declaration impl ∧ ∃ before after,
    unit.sqlTypeImpls = before ++ impl :: after ∧
      ∀ other ∈ before, ¬unit.Implements declaration other

/-- The modules of the unit structs have paths as their names. -/
def HasPathModules (unit : SourceUnit) : Prop :=
  ∀ declaration ∈ unit.declarations, declaration.kind = .unitStruct →
    ∃ module name, IsPathText module ∧ IsPathName name ∧ declaration.key = .within module name

theorem resolvesTo_iff :
    unit.resolvesTo impl.selfType impl.module declaration.key = true ↔
      unit.Implements declaration impl := by
  unfold resolvesTo Implements
  cases unit.lookup impl.selfType impl.module with
  | found found => simp
  | ambiguous candidates => simp
  | missing => simp

theorem sqlTypeImpl?_eq_some_iff :
    unit.sqlTypeImpl? declaration = some impl ↔ unit.FirstImplements declaration impl := by
  simp only [sqlTypeImpl?, List.find?_eq_some_iff_append, resolvesTo_iff, FirstImplements,
    Bool.not_eq_true', ← Bool.not_eq_true]

theorem sqlTypeImpl?_eq_none_iff : unit.sqlTypeImpl? declaration = none ↔
    ∀ impl ∈ unit.sqlTypeImpls, ¬unit.Implements declaration impl := by
  simp only [sqlTypeImpl?, List.find?_eq_none, resolvesTo_iff]

theorem mem_of_lookup {path : Node} {module : String}
    (hfound : unit.lookup path module = .found declaration) : declaration ∈ unit.declarations :=
  List.mem_of_find?_eq_some (get?_of_lookup hfound)

theorem HasPathModules.isSome_path? (hmodules : unit.HasPathModules)
    (hmem : declaration ∈ unit.declarations) (hkind : declaration.kind = .unitStruct) :
    declaration.key.path?.isSome = true := by
  obtain ⟨module, name, hmodule, hname, hkey⟩ := hmodules declaration hmem hkind
  rw [Key.path?, hkey]
  exact (hmodule.within hname).isSome_parsePath?

end SourceUnit

namespace Schema

variable {unit : SourceUnit} {owner declaration : Declaration} {path valueType : Node}
  {names : List String} {name : String}

/-! ### Built-in SQL types -/

/-- Names mean a built-in SQL type by the last of them, which stands alone or below this tool. -/
def NamesBuiltIn (names : List String) (name : String) : Prop :=
  names = [name] ∨ ∃ between, names = "tablegen" :: between ++ [name]

def builtInNames : List String := enumTypeName :: builtInTypes.map (·.typeName)

/-- A built-in SQL type has a name, and is for values of its own type or for those of any. -/
inductive IsBuiltIn (valueType : Node) : String → SqlTypeShape → Node → Prop
  | fixed (known : BuiltInType) (hknown : known ∈ builtInTypes) :
      IsBuiltIn valueType known.typeName .fixed known.valueType
  | factory : IsBuiltIn valueType enumTypeName .factory valueType

theorem mem_builtInNames_iff : name ∈ builtInNames ↔
    ∃ shape own, IsBuiltIn valueType name shape own := by
  constructor
  · intro hmem
    rcases List.mem_cons.mp hmem with rfl | hmem
    · exact ⟨_, _, .factory⟩
    · obtain ⟨known, hknown, rfl⟩ := List.mem_map.mp hmem
      exact ⟨_, _, .fixed known hknown⟩
  · rintro ⟨shape, own, htype⟩
    cases htype with
    | fixed known hknown => exact List.mem_cons_of_mem _ (List.mem_map_of_mem hknown)
    | factory => exact List.mem_cons_self

theorem isBuiltInScope_iff (hlast : names.getLast? = some name) :
    isBuiltInScope names = true ↔ NamesBuiltIn names name := by
  obtain ⟨front, rfl⟩ := List.getLast?_eq_some_iff.mp hlast
  unfold NamesBuiltIn
  cases front with
  | nil => simp [isBuiltInScope]
  | cons first rest =>
      have hscope : isBuiltInScope (first :: (rest ++ [name])) = (first == "tablegen") := by
        cases rest <;> rfl
      simp [hscope]

theorem getLast?_of_namesBuiltIn (hnames : NamesBuiltIn names name) :
    names.getLast? = some name := by
  rcases hnames with rfl | ⟨between, rfl⟩
  · rfl
  · exact List.getLast?_concat

theorem find?_typeName {known : BuiltInType} (hknown : known ∈ builtInTypes) :
    known.typeName ≠ enumTypeName ∧
      builtInTypes.find? (·.typeName == known.typeName) = some known := by
  simp only [builtInTypes, List.mem_cons, List.not_mem_nil, or_false] at hknown
  rcases hknown with rfl | rfl | rfl | rfl | rfl | rfl | rfl | rfl | rfl
  all_goals exact ⟨by decide, rfl⟩

theorem builtInSqlType_eq_ok {shape : SqlTypeShape} {own : Node}
    (hnames : NamesBuiltIn path.pathNames name) (htype : IsBuiltIn valueType name shape own) :
    builtInSqlType path valueType = .ok ⟨builtInPath name, shape, own⟩ := by
  have hlast := getLast?_of_namesBuiltIn hnames
  rw [builtInSqlType, Node.lastName?, hlast]
  dsimp only
  rw [(isBuiltInScope_iff hlast).mpr hnames]
  cases htype with
  | fixed known hknown =>
      obtain ⟨hother, hfind⟩ := find?_typeName hknown
      simp [hother, hfind]
  | factory => simp

theorem builtInSqlType_eq_error (hnone : ∀ name ∈ builtInNames, ¬NamesBuiltIn path.pathNames name) :
    builtInSqlType path valueType = .error (.unknownSqlType path.pathText) := by
  rw [builtInSqlType, Node.lastName?]
  cases hlast : path.pathNames.getLast? with
  | none => rfl
  | some name =>
      dsimp only
      cases hscope : isBuiltInScope path.pathNames with
      | false => rfl
      | true =>
          have hname : name ∉ builtInNames := fun hmem =>
            hnone name hmem ((isBuiltInScope_iff hlast).mp hscope)
          rw [builtInNames, List.mem_cons, not_or, List.mem_map] at hname
          have hfind : builtInTypes.find? (·.typeName == name) = none := by
            rw [List.find?_eq_none]
            intro known hknown hown
            exact hname.2 ⟨known, hknown, by simpa using hown⟩
          simp [hname.1, hfind]

/-! ### What a path means -/

/-- The SQL type that a path means for values of some type: that of the first implementation of the
unit struct that is found, or a built-in one where nothing is found. -/
inductive Means (unit : SourceUnit) (owner : Declaration) (path valueType : Node) :
    SqlTypeRef → Prop
  | fixed {declaration : Declaration} {impl : SqlTypeImpl} {key : Node}
      (hfound : unit.lookup path owner.key.module = .found declaration)
      (hkind : declaration.kind = .unitStruct) (hpath : declaration.key.path? = some key)
      (himpl : unit.FirstImplements declaration impl) (hshape : impl.shape = .fixed) :
      Means unit owner path valueType ⟨key, .fixed, impl.valueType.getD valueType⟩
  | factory {declaration : Declaration} {impl : SqlTypeImpl} {key : Node}
      (hfound : unit.lookup path owner.key.module = .found declaration)
      (hkind : declaration.kind = .unitStruct) (hpath : declaration.key.path? = some key)
      (himpl : unit.FirstImplements declaration impl) (hshape : impl.shape = .factory) :
      Means unit owner path valueType ⟨key, .factory, valueType⟩
  | builtIn {name : String} {shape : SqlTypeShape} {own : Node}
      (hmissing : unit.lookup path owner.key.module = .missing)
      (hnames : NamesBuiltIn path.pathNames name)
      (htype : IsBuiltIn valueType name shape own) :
      Means unit owner path valueType ⟨builtInPath name, shape, own⟩

/-- The reason for which a path means no SQL type. -/
inductive Refuses (unit : SourceUnit) (owner : Declaration) (path : Node) : Error → Prop
  | ambiguous {candidates : List Declaration}
      (hfound : unit.lookup path owner.key.module = .ambiguous candidates) :
      Refuses unit owner path (.ambiguousSqlType path.pathText (candidates.map (·.key.text)))
  | notSingleton {declaration : Declaration}
      (hfound : unit.lookup path owner.key.module = .found declaration)
      (hkind : declaration.kind = .struct ∨ declaration.kind = .tupleStruct) :
      Refuses unit owner path (.notSingleton declaration.key.text)
  | unsupportedKind {declaration : Declaration}
      (hfound : unit.lookup path owner.key.module = .found declaration)
      (hkind : declaration.kind ∉ [.unitStruct, .struct, .tupleStruct]) :
      Refuses unit owner path
        (.unsupportedKind declaration.key.text declaration.kind .sqlType)
  | notSqlType {declaration : Declaration}
      (hfound : unit.lookup path owner.key.module = .found declaration)
      (hkind : declaration.kind = .unitStruct)
      (hnone : ∀ impl ∈ unit.sqlTypeImpls, ¬unit.Implements declaration impl) :
      Refuses unit owner path (.notSqlType declaration.key.text)
  | unknown (hmissing : unit.lookup path owner.key.module = .missing)
      (hnone : ∀ name ∈ builtInNames, ¬NamesBuiltIn path.pathNames name) :
      Refuses unit owner path (.unknownSqlType path.pathText)

theorem eq_ok_of_means {sqlType : SqlTypeRef} (hmeans : Means unit owner path valueType sqlType) :
    explicitSqlType unit owner path valueType = .ok sqlType := by
  cases hmeans with
  | fixed hfound hkind hpath himpl hshape =>
      simp only [explicitSqlType, hfound, declaredSqlType, hkind,
        SourceUnit.sqlTypeImpl?_eq_some_iff.mpr himpl, hpath, hshape]
  | factory hfound hkind hpath himpl hshape =>
      simp only [explicitSqlType, hfound, declaredSqlType, hkind,
        SourceUnit.sqlTypeImpl?_eq_some_iff.mpr himpl, hpath, hshape]
  | builtIn hmissing hnames htype =>
      rw [explicitSqlType, hmissing]
      exact builtInSqlType_eq_ok hnames htype

theorem eq_error_of_refuses {error : Error} (hrefuses : Refuses unit owner path error) :
    explicitSqlType unit owner path valueType = .error error := by
  cases hrefuses with
  | ambiguous hfound => rw [explicitSqlType, hfound]
  | notSingleton hfound hkind =>
      rw [explicitSqlType, hfound]
      rcases hkind with hkind | hkind
      · simp only [declaredSqlType, hkind]
      · simp only [declaredSqlType, hkind]
  | unsupportedKind hfound hkind =>
      rw [explicitSqlType, hfound]
      dsimp only
      unfold declaredSqlType
      dsimp only
      split
      · next heq => exact absurd (by simp [heq]) hkind
      · next heq => exact absurd (by simp [heq]) hkind
      · next heq => exact absurd (by simp [heq]) hkind
      · rfl
  | notSqlType hfound hkind hnone =>
      simp only [explicitSqlType, hfound, declaredSqlType, hkind,
        SourceUnit.sqlTypeImpl?_eq_none_iff.mpr hnone]
  | unknown hmissing hnone =>
      rw [explicitSqlType, hmissing]
      exact builtInSqlType_eq_error hnone

/-- A path means an SQL type, or there is a reason why it does not. -/
theorem means_or_refuses (hmodules : unit.HasPathModules) (owner : Declaration)
    (path valueType : Node) : (∃ sqlType, Means unit owner path valueType sqlType) ∨
      ∃ error, Refuses unit owner path error := by
  cases hlookup : unit.lookup path owner.key.module with
  | ambiguous candidates => exact .inr ⟨_, .ambiguous hlookup⟩
  | missing =>
      by_cases hbuiltIn : ∃ name ∈ builtInNames, NamesBuiltIn path.pathNames name
      · obtain ⟨name, hmem, hnames⟩ := hbuiltIn
        have htype : ∃ shape own, IsBuiltIn valueType name shape own := mem_builtInNames_iff.mp hmem
        obtain ⟨shape, own, htype⟩ := htype
        exact .inl ⟨_, .builtIn hlookup hnames htype⟩
      · exact .inr ⟨_, .unknown hlookup fun name hmem hnames => hbuiltIn ⟨name, hmem, hnames⟩⟩
  | found declaration =>
      by_cases hkind : declaration.kind = .unitStruct
      · have hpath := hmodules.isSome_path? (SourceUnit.mem_of_lookup hlookup) hkind
        obtain ⟨key, hkey⟩ := Option.isSome_iff_exists.mp hpath
        cases himpl : unit.sqlTypeImpl? declaration with
        | none =>
            exact .inr ⟨_, .notSqlType hlookup hkind (SourceUnit.sqlTypeImpl?_eq_none_iff.mp himpl)⟩
        | some impl =>
            have hfirst := SourceUnit.sqlTypeImpl?_eq_some_iff.mp himpl
            cases hshape : impl.shape with
            | fixed => exact .inl ⟨_, .fixed hlookup hkind hkey hfirst hshape⟩
            | factory => exact .inl ⟨_, .factory hlookup hkind hkey hfirst hshape⟩
      · by_cases hfields : declaration.kind = .struct ∨ declaration.kind = .tupleStruct
        · exact .inr ⟨_, .notSingleton hlookup hfields⟩
        · refine .inr ⟨_, .unsupportedKind hlookup ?_⟩
          rw [not_or] at hfields
          simp [hkind, hfields]

/-- Whether the path of a marker can be used: what it finds is a unit struct with an
implementation, or it finds nothing and is the name of a built-in SQL type. -/
def Usable (unit : SourceUnit) (owner : Declaration) (path : Node) : Prop :=
  (∃ declaration, unit.lookup path owner.key.module = .found declaration ∧
    declaration.kind = .unitStruct ∧
      ∃ impl ∈ unit.sqlTypeImpls, unit.Implements declaration impl) ∨
  (unit.lookup path owner.key.module = .missing ∧
    ∃ name ∈ builtInNames, NamesBuiltIn path.pathNames name)

theorem usable_of_means {sqlType : SqlTypeRef} (hmeans : Means unit owner path valueType sqlType) :
    Usable unit owner path := by
  have hmem {declaration : Declaration} {impl : SqlTypeImpl}
      (himpl : unit.FirstImplements declaration impl) :
      ∃ impl ∈ unit.sqlTypeImpls, unit.Implements declaration impl := by
    obtain ⟨hown, before, after, heq, -⟩ := himpl
    exact ⟨impl, by simp [heq], hown⟩
  cases hmeans with
  | fixed hfound hkind hpath himpl hshape => exact .inl ⟨_, hfound, hkind, hmem himpl⟩
  | factory hfound hkind hpath himpl hshape => exact .inl ⟨_, hfound, hkind, hmem himpl⟩
  | builtIn hmissing hnames htype =>
      exact .inr ⟨hmissing, _, mem_builtInNames_iff.mpr ⟨_, _, htype⟩, hnames⟩

theorem not_usable_of_refuses {error : Error} (hrefuses : Refuses unit owner path error) :
    ¬Usable unit owner path := by
  rintro (⟨declaration, hfound, hkind, impl, hmem, himpl⟩ | ⟨hmissing, name, hmem, hnames⟩)
  · cases hrefuses with
    | ambiguous hother => cases hother.symm.trans hfound
    | notSingleton hother hother' =>
        cases hother.symm.trans hfound
        simp [hkind] at hother'
    | unsupportedKind hother hother' =>
        cases hother.symm.trans hfound
        simp [hkind] at hother'
    | notSqlType hother _ hnone =>
        cases hother.symm.trans hfound
        exact hnone impl hmem himpl
    | unknown hother _ => cases hother.symm.trans hfound
  · cases hrefuses with
    | ambiguous hother => cases hother.symm.trans hmissing
    | notSingleton hother _ => cases hother.symm.trans hmissing
    | unsupportedKind hother _ => cases hother.symm.trans hmissing
    | notSqlType hother _ _ => cases hother.symm.trans hmissing
    | unknown _ hnone => exact hnone name hmem hnames

/-- **Explicit SQL types.** In a unit whose modules have paths as their names, the path of a marker
is accepted exactly if it can be used; then it gives the SQL type that it means, and otherwise the
error that says why it means none. -/
theorem explicitSqlType_decides (hmodules : unit.HasPathModules) (owner : Declaration)
    (path valueType : Node) :
    ((∃ sqlType, explicitSqlType unit owner path valueType = .ok sqlType) ↔
        Usable unit owner path) ∧
      (∀ sqlType, explicitSqlType unit owner path valueType = .ok sqlType ↔
        Means unit owner path valueType sqlType) ∧
      ∀ error, explicitSqlType unit owner path valueType = .error error ↔
        Refuses unit owner path error := by
  rcases means_or_refuses hmodules owner path valueType with ⟨sqlType, hmeans⟩ | ⟨error, hrefuses⟩
  · have hok := eq_ok_of_means hmeans
    refine ⟨⟨fun _ => usable_of_means hmeans, fun _ => ⟨sqlType, hok⟩⟩, fun other => ?_, fun error => ?_⟩
    · refine ⟨fun hother => ?_, eq_ok_of_means⟩
      cases hok.symm.trans hother
      exact hmeans
    · refine ⟨fun herror => ?_, eq_error_of_refuses⟩
      cases hok.symm.trans herror
  · have herror : explicitSqlType unit owner path valueType = .error error :=
      eq_error_of_refuses hrefuses
    refine ⟨⟨?_, fun husable => absurd husable (not_usable_of_refuses hrefuses)⟩, fun other => ?_,
      fun other => ?_⟩
    · rintro ⟨sqlType, hok⟩
      cases herror.symm.trans hok
    · refine ⟨fun hok => ?_, eq_ok_of_means⟩
      cases herror.symm.trans hok
    · refine ⟨fun hother => ?_, eq_error_of_refuses⟩
      cases herror.symm.trans hother
      exact hrefuses

section Instances

/-- A unit struct in a module below the crate. -/
def money : Declaration := ⟨.within "crate::model" "Money", "Money", none, .struct true []⟩

/-- The owner of a property in the same module. -/
def account : Declaration := ⟨.within "crate::model" "Account", "Account", none, .struct false []⟩

def moneyPath : Node := pathOf [segmentOf "Money"]

/-- A unit with three implementations of types of one name; the first is of a type in the parent of
its module, which the unit does not have. -/
def moneyUnit : SourceUnit :=
  ⟨[money, account], _, [],
    [⟨"crate::model", pathOf [segmentOf "super", segmentOf "Money"], .factory, none⟩,
      ⟨"crate", moneyPath, .fixed, some (namedType "i64")⟩,
      ⟨"crate::model", moneyPath, .factory, none⟩], none, rfl⟩

theorem isPathName_crate : IsPathName "crate" := ⟨.plain (by decide), .inr (by decide)⟩

theorem isPathName_model : IsPathName "model" := ⟨.plain (by decide), .inl (by decide)⟩

theorem isPathName_money : IsPathName "Money" := ⟨.plain (by decide), .inl (by decide)⟩

theorem hasPathModules_moneyUnit : moneyUnit.HasPathModules := by
  intro declaration hmem hkind
  rcases List.mem_cons.mp hmem with rfl | hmem
  · refine ⟨"crate::model", "Money", ?_, isPathName_money, rfl⟩
    refine ⟨"crate", ["model"], isPathName_crate, ?_, .inl (by decide)⟩
    exact fun name hname => List.mem_singleton.mp hname ▸ isPathName_model
  · rw [List.mem_singleton.mp hmem] at hkind
    cases hkind

theorem path?_money : money.key.path? =
    some (pathOf [segmentOf "crate", segmentOf "model", segmentOf "Money"]) := by
  have hrest : ∀ name ∈ ["model", "Money"], IsPathName name := by
    intro name hmem
    rcases List.mem_cons.mp hmem with rfl | hmem
    · exact isPathName_model
    · exact List.mem_singleton.mp hmem ▸ isPathName_money
  have htext : money.key.text = joinNames ["crate", "model", "Money"] := by decide
  rw [Key.path?, htext, parsePath?_joinNames isPathName_crate hrest]
  rfl

theorem firstImplements_money : moneyUnit.FirstImplements money
    ⟨"crate", moneyPath, .fixed, some (namedType "i64")⟩ := by
  refine ⟨⟨money, by rfl, rfl⟩, [_], _, rfl, fun other hmem => ?_⟩
  rw [List.mem_singleton.mp hmem]
  rintro ⟨found, hfound, -⟩
  have hmissing : moneyUnit.lookup (pathOf [segmentOf "super", segmentOf "Money"]) "crate::model" =
      .missing := by rfl
  cases hmissing.symm.trans hfound

/-- The first implementation that means the unit struct tells the type of its values. -/
theorem explicitSqlType_decides_money : moneyUnit.HasPathModules ∧
    explicitSqlType moneyUnit account moneyPath (namedType "i32") =
      .ok ⟨pathOf [segmentOf "crate", segmentOf "model", segmentOf "Money"], .fixed,
        namedType "i64"⟩ := by
  refine ⟨hasPathModules_moneyUnit, ?_⟩
  refine ((explicitSqlType_decides hasPathModules_moneyUnit account moneyPath _).2.1 _).mpr ?_
  exact .fixed (by rfl) rfl path?_money firstImplements_money rfl

end Instances

end Schema

end EntityTables
