import EntityTables.Proofs.Schema.Closure
import EntityTables.Proofs.Unit.Order

/-!
# The order of files

Files whose declarations have different keys give the same tables in any order, or none in any
order. What a table is depends on what its unit finds, and on the order of what it finds only where
a declaration has two constructors or two SQL types.
-/

namespace EntityTables.Schema

open EntityTables.Syntax
open SourceUnit (get?_of_lookup find?_key_eq_of_perm)

/-- A resolver for another unit. -/
def Resolver.withUnit (resolver : Resolver) (other : SourceUnit) : Resolver :=
  { resolver with unit := other }

/-! ### Columns from the same contents -/

section Same

variable {unit other : SourceUnit} {owner target : Declaration} {property : Property}

theorem referenceTarget_ok_same (hfinds : unit.FindsSame other)
    (hok : referenceTarget unit owner property = .ok target) :
    referenceTarget other owner property = .ok target := by
  unfold referenceTarget at hok ⊢
  cases hpath : referencedPath? property.type with
  | none => simp [hpath] at hok
  | some path =>
      have hlookup := hfinds.lookup path owner.key.module
      simp only [hpath] at hok ⊢
      cases hfound : unit.lookup path owner.key.module with
      | found declaration =>
          rw [hfound] at hlookup
          rw [hlookup.eq_found]
          simpa only [hfound] using hok
      | ambiguous candidates => simp [hfound] at hok
      | missing => simp [hfound] at hok

theorem inferSqlType_eq_same (hfinds : unit.FindsSame other) (valueType : Node) :
    inferSqlType unit owner property valueType = inferSqlType other owner property valueType := by
  have henum : inferEnum? unit owner.key.module valueType =
      inferEnum? other owner.key.module valueType := by
    unfold inferEnum?
    refine congrArg _ (funext fun path => ?_)
    have hlookup := hfinds.lookup path owner.key.module
    cases hfound : unit.lookup path owner.key.module with
    | found declaration =>
        rw [hfound] at hlookup
        rw [hlookup.eq_found]
    | ambiguous candidates =>
        rw [hfound] at hlookup
        obtain ⟨others, hother⟩ := hlookup.exists_ambiguous
        rw [hother]
    | missing =>
        rw [hfound] at hlookup
        rw [hlookup.eq_missing]
  rw [inferSqlType, inferSqlType, henum]

theorem declaredSqlType_eq_same (hfinds : unit.FindsSame other)
    (hmem : target ∈ unit.declarations) (valueType : Node) :
    declaredSqlType unit target valueType = declaredSqlType other target valueType := by
  unfold declaredSqlType
  rw [hfinds.sqlTypeImpl?_eq hmem]

theorem explicitSqlType_ok_same (hfinds : unit.FindsSame other) {path valueType : Node}
    {sqlType : SqlTypeRef}
    (hok : explicitSqlType unit owner path valueType = .ok sqlType) :
    explicitSqlType other owner path valueType = .ok sqlType := by
  unfold explicitSqlType at hok ⊢
  have hlookup := hfinds.lookup path owner.key.module
  cases hfound : unit.lookup path owner.key.module with
  | found declaration =>
      have hmem : declaration ∈ unit.declarations :=
        List.mem_of_find?_eq_some (get?_of_lookup hfound)
      rw [hfound] at hlookup
      rw [hlookup.eq_found]
      simp only [hfound] at hok ⊢
      rwa [← declaredSqlType_eq_same hfinds hmem]
  | ambiguous candidates => simp [hfound] at hok
  | missing =>
      rw [hfound] at hlookup
      rw [hlookup.eq_missing]
      simpa only [hfound] using hok

theorem plainSqlType_ok_same (hfinds : unit.FindsSame other) {sqlType : SqlTypeRef}
    (hok : plainSqlType unit owner property = .ok sqlType) :
    plainSqlType other owner property = .ok sqlType := by
  unfold plainSqlType at hok ⊢
  split at hok
  · exact explicitSqlType_ok_same hfinds hok
  · rwa [← inferSqlType_eq_same hfinds]

theorem orderedProperties_eq_same (hfinds : unit.FindsSame other)
    (hmem : owner ∈ unit.declarations) :
    orderedProperties unit owner = orderedProperties other owner := by
  rw [orderedProperties, orderedProperties,
    hfinds.constructorParameters?_eq hmem]

end Same

/-! ### Tables from the same contents -/

section Resolver

variable {resolver : Resolver} {other : SourceUnit} {owner : Declaration} {kind : EntityKind}
  {property : Property} {resolve otherResolve : Key → Except Error Table}

theorem columnOf_ok_same (hfinds : resolver.unit.FindsSame other)
    (hresolve : ∀ key table, resolve key = .ok table → otherResolve key = .ok table)
    {column : Column} (hok : columnOf resolver resolve owner kind property = .ok column) :
    columnOf (resolver.withUnit other) otherResolve owner kind property = .ok column := by
  by_cases hreference : property.references.isSome
  · rw [columnOf_eq_referenceColumn hreference] at hok ⊢
    simp only [bind_eq_ok_iff] at hok ⊢
    obtain ⟨checked, hcheck, target, htarget, table, htable, hcolumn⟩ := hok
    exact ⟨checked, hcheck, target, referenceTarget_ok_same hfinds htarget, table,
      hresolve _ _ htable, hcolumn⟩
  · rw [columnOf_eq_plainColumn (by simpa using hreference)] at hok ⊢
    obtain ⟨sqlType, hsqlType, rfl⟩ := plainColumn_eq_ok_iff.mp hok
    exact plainColumn_eq_ok_iff.mpr
      ⟨sqlType, plainSqlType_ok_same hfinds hsqlType, rfl⟩

theorem buildTable_ok_same (hfinds : resolver.unit.FindsSame other)
    (hmem : owner ∈ resolver.unit.declarations)
    (hresolve : ∀ key table, resolve key = .ok table → otherResolve key = .ok table)
    {table : Table} (hok : buildTable resolver resolve owner = .ok table) :
    buildTable (resolver.withUnit other) otherResolve owner = .ok table := by
  rw [buildTable_eq_ok_iff] at hok ⊢
  obtain ⟨marker, kind, columns, hmarker, hkind, hcolumns, htable⟩ := hok
  refine ⟨marker, kind, columns, hmarker, hkind, ?_, htable⟩
  rw [orderedProperties_eq_same hfinds hmem] at hcolumns
  exact mapM_ok_mono hcolumns fun property _ column hcolumn =>
    columnOf_ok_same hfinds hresolve hcolumn

/-- A table is the same from the same contents. -/
theorem rebuild_ok_same (hfinds : resolver.unit.FindsSame other)
    {stack : List Declaration} {key : Key} {table : Table}
    (hok : rebuild resolver stack key = .ok table) :
    rebuild (resolver.withUnit other) stack key = .ok table := by
  induction stack, key using rebuild.induct resolver generalizing table with
  | case1 stack key hmem => simp [rebuild_of_mem hmem] at hok
  | case2 stack key hmem hnone => simp [rebuild_of_get?_eq_none hmem hnone] at hok
  | case3 stack key hmem declaration hfound ih =>
      rw [rebuild_of_get?_eq_some hmem hfound] at hok
      have hother : (resolver.withUnit other).unit.get? key = some declaration :=
        (hfinds.get?_eq key).symm.trans hfound
      rw [rebuild_of_get?_eq_some hmem hother]
      exact buildTable_ok_same hfinds (List.mem_of_find?_eq_some hfound)
        (fun target table htable => ih target htable) hok

end Resolver

/-! ### All tables of files -/

section Files

variable {options : Options} {registry : Naming.Registry} {files others : List (String × Node)}
  {unit other : SourceUnit} {resolver : Resolver} {tables otherTables : List Table}

theorem exists_mapM_perm {ι α ε : Type} {step : ι → Except ε α} {items others : List ι}
    {results : List α} (hperm : items.Perm others) (hok : items.mapM step = .ok results) :
    ∃ otherResults, others.mapM step = .ok otherResults ∧ results.Perm otherResults := by
  rw [mapM_eq_ok_iff] at hok
  obtain ⟨otherResults, hothers, hresults⟩ := List.perm_comp_forall₂ hperm.symm hok
  exact ⟨otherResults, mapM_eq_ok_iff.mpr hothers, hresults.symm⟩

/-- The configuration decides what else a resolver has besides its unit. -/
theorem create_withUnit (hconfig : unit.config = other.config)
    (hok : Resolver.create unit options registry = .ok resolver) :
    resolver.unit = unit ∧
      Resolver.create other options registry = .ok (resolver.withUnit other) := by
  unfold Resolver.create at hok ⊢
  rw [← hconfig]
  simp only [bind_eq_ok_iff] at hok ⊢
  obtain ⟨database, hdatabase, coding, hcoding, hresolver⟩ := hok
  cases hresolver
  exact ⟨rfl, database, hdatabase, coding, hcoding, rfl⟩

theorem exists_resolveAll_same (hfinds : resolver.unit.FindsSame other)
    (hok : ((resolveAll resolver).run .empty).1 = .ok tables) :
    ∃ otherTables, ((resolveAll (resolver.withUnit other)).run .empty).1 = .ok otherTables ∧
      tables.Perm otherTables := by
  rw [resolveAll_empty] at hok
  -- first the same declarations with the other unit, then the declarations in its order
  have hother : (resolver.unit.tables.mapM fun declaration =>
      rebuild (resolver.withUnit other) [] declaration.key) = .ok tables :=
    mapM_ok_mono hok fun declaration _ table htable =>
      rebuild_ok_same hfinds htable
  rw [resolveAll_empty]
  exact exists_mapM_perm (hfinds.same.declarations.filter _) hother

/-- The tables of files, as they are read, put together and resolved. -/
def tablesOf (options : Options) (registry : Naming.Registry) (files : List (String × Node)) :
    Except Error (List Table) := do
  let unit ← SourceUnit.empty.addFiles files
  let resolver ← Resolver.create unit options registry
  ((resolveAll resolver).run .empty).1

theorem tablesOf_eq_ok_iff : tablesOf options registry files = .ok tables ↔
    ∃ unit, SourceUnit.empty.addFiles files = .ok unit ∧
      ∃ resolver, Resolver.create unit options registry = .ok resolver ∧
        ((resolveAll resolver).run .empty).1 = .ok tables := by
  unfold tablesOf
  simp only [bind_eq_ok_iff]

theorem exists_tablesOf_perm (hperm : files.Perm others)
    (hkeys : (SourceUnit.declaredKeys files).Nodup)
    (honly : ∀ unit, SourceUnit.empty.addFiles files = .ok unit → unit.AtMostOne)
    (hok : tablesOf options registry files = .ok tables) :
    ∃ otherTables, tablesOf options registry others = .ok otherTables ∧
      tables.Perm otherTables := by
  obtain ⟨unit, hunit, resolver, hresolver, htables⟩ := tablesOf_eq_ok_iff.mp hok
  obtain ⟨other, hother, hsame⟩ := SourceUnit.exists_addFiles_perm hperm hkeys hunit
  obtain ⟨rfl, hcreate⟩ := create_withUnit hsame.config hresolver
  obtain ⟨otherTables, hotherTables, htablesPerm⟩ := exists_resolveAll_same
    ⟨hsame, SourceUnit.distinctKeys_of_addFiles hunit, honly _ hunit⟩ htables
  exact ⟨otherTables, tablesOf_eq_ok_iff.mpr ⟨other, hother, _, hcreate, hotherTables⟩,
    htablesPerm⟩

theorem nodup_keys_of_tablesOf (hok : tablesOf options registry files = .ok tables) :
    (tables.map (·.key)).Nodup := by
  obtain ⟨unit, hunit, resolver, hresolver, htables⟩ := tablesOf_eq_ok_iff.mp hok
  obtain ⟨rfl, -⟩ := create_withUnit rfl hresolver
  rw [resolveAll_empty] at htables
  rw [keys_of_mapM_rebuild htables]
  exact (SourceUnit.distinctKeys_of_addFiles hunit).sublist (List.filter_sublist.map _)

/-- **The order of files does not matter.** Where the declarations in files have different keys, and
none has more than one constructor or SQL type, the files give tables in every order or in none, and
the same table for every key. -/
theorem tablesOf_perm (options : Options) (registry : Naming.Registry) (hperm : files.Perm others)
    (hkeys : (SourceUnit.declaredKeys files).Nodup)
    (honly : ∀ unit, SourceUnit.empty.addFiles files = .ok unit → unit.AtMostOne) :
    ((∃ tables, tablesOf options registry files = .ok tables) ↔
        ∃ tables, tablesOf options registry others = .ok tables) ∧
      ∀ tables otherTables, tablesOf options registry files = .ok tables →
        tablesOf options registry others = .ok otherTables → tables.Perm otherTables ∧
          ∀ key, tables.find? (·.key = key) = otherTables.find? (·.key = key) := by
  have hkeysOthers : (SourceUnit.declaredKeys others).Nodup :=
    ((hperm.flatMap_right _).flatMap_right _).nodup_iff.mp hkeys
  have honlyOthers : ∀ unit, SourceUnit.empty.addFiles others = .ok unit → unit.AtMostOne := by
    intro unit hunit
    obtain ⟨other, hother, hsame⟩ :=
      SourceUnit.exists_addFiles_perm hperm.symm hkeysOthers hunit
    exact hsame.symm.atMostOne (SourceUnit.distinctKeys_of_addFiles hother) (honly other hother)
  refine ⟨⟨?_, ?_⟩, fun tables otherTables htables hotherTables => ?_⟩
  · rintro ⟨tables, htables⟩
    obtain ⟨otherTables, hotherTables, -⟩ := exists_tablesOf_perm hperm hkeys honly htables
    exact ⟨otherTables, hotherTables⟩
  · rintro ⟨tables, htables⟩
    obtain ⟨otherTables, hotherTables, -⟩ :=
      exists_tablesOf_perm hperm.symm hkeysOthers honlyOthers htables
    exact ⟨otherTables, hotherTables⟩
  · obtain ⟨found, hfound, htablesPerm⟩ := exists_tablesOf_perm hperm hkeys honly htables
    rw [hotherTables, Except.ok.injEq] at hfound
    subst hfound
    exact ⟨htablesPerm, find?_key_eq_of_perm htablesPerm (nodup_keys_of_tablesOf htables)⟩

end Files

section Instance

def marked (markers : List String) : Node :=
  .phrase .attributes (markers.map fun marker => plainAttribute (pathOf [segmentOf marker]))

/-- A getter in an interface. -/
def getterItem (marker name type : String) : Node :=
  .phrase .traitFn [marked [marker], Signature.toNode
    { name, hasGenerics := false
      inputs := [.phrase .receiver [.punct "&", .ident "self"]]
      output := Signature.outputOf (namedType type) }, .punct ";"]

/-- An interface that is a table. -/
def entityItem (name : String) (getters : List Node) : Node :=
  .phrase .traitItem [marked ["table"], .empty .visibility, .empty .qualifiers, .ident "trait",
    .ident name, .empty .generics,
    .phrase .supertraits [.punct ":", .phrase .traitBound [pathOf [segmentOf "Entity"]]],
    .empty .whereClause, braces getters]

/-- A constructor of a type, with the names of its parameters. -/
def constructorItem (name : String) (parameters : List String) : Node :=
  .phrase .implItem [.empty .attributes, .empty .qualifiers, .ident "impl", .empty .generics,
    .empty .implFor, namedType name, .empty .whereClause,
    braces [.phrase .implFn [.empty .attributes, .empty .visibility, .empty .qualifiers,
      Signature.toNode
        { name := "new", hasGenerics := false
          inputs := parameters.map fun parameter => Signature.inputOf parameter (namedType "i32")
          output := Signature.outputOf (namedType name) }, braces []]]]

def fileOf (items : List Node) : Node := .phrase .file (.empty .attributes :: items)

def teamFile : String × Node :=
  ("crate::team", fileOf [entityItem "Team" [getterItem "primary_key" "id" "i32"]])

def memberFile : String × Node :=
  ("crate::member", fileOf [constructorItem "Member" ["team", "id"], entityItem "Member"
    [getterItem "primary_key" "id" "i32", getterItem "references" "team" "Team"]])

/-- Members refer to teams, and their constructor takes the team first. -/
theorem tablesOf_perm_members :
    (SourceUnit.declaredKeys [memberFile, teamFile]).Nodup ∧
      (∀ unit, SourceUnit.empty.addFiles [memberFile, teamFile] = .ok unit → unit.AtMostOne) ∧
      ∃ tables otherTables, tablesOf .none .empty [memberFile, teamFile] = .ok tables ∧
        tablesOf .none .empty [teamFile, memberFile] = .ok otherTables ∧
        tables.map (·.key.text) = ["crate::member::Member", "crate::team::Team"] ∧
        otherTables.map (·.key.text) = ["crate::team::Team", "crate::member::Member"] ∧
        ∀ key, tables.find? (·.key = key) = otherTables.find? (·.key = key) := by
  have hkeys : (SourceUnit.declaredKeys [memberFile, teamFile]).Nodup := by decide +kernel
  have honly : ∀ unit, SourceUnit.empty.addFiles [memberFile, teamFile] = .ok unit →
      unit.AtMostOne := by
    intro unit hunit
    have hdecided : ((SourceUnit.empty.addFiles [memberFile, teamFile]).toOption.map
        fun unit => decide unit.AtMostOne) = some true := by decide +kernel
    obtain ⟨found, hfound, honly⟩ := exists_ok_of_toOption hdecided
    rw [hunit, Except.ok.injEq] at hfound
    exact of_decide_eq_true (hfound ▸ honly)
  obtain ⟨-, hsame⟩ := tablesOf_perm .none .empty (.swap teamFile memberFile []) hkeys honly
  have hfirst : ((tablesOf .none .empty [memberFile, teamFile]).toOption.map
      fun tables => tables.map (·.key.text)) =
        some ["crate::member::Member", "crate::team::Team"] := by decide +kernel
  have hsecond : ((tablesOf .none .empty [teamFile, memberFile]).toOption.map
      fun tables => tables.map (·.key.text)) =
        some ["crate::team::Team", "crate::member::Member"] := by decide +kernel
  obtain ⟨tables, htables, hnames⟩ := exists_ok_of_toOption hfirst
  obtain ⟨otherTables, hotherTables, hotherNames⟩ := exists_ok_of_toOption hsecond
  exact ⟨hkeys, honly, tables, otherTables, htables, hotherTables, hnames, hotherNames,
    (hsame tables otherTables htables hotherTables).2⟩

end Instance

end EntityTables.Schema
