import EntityTables.Proofs.Schema.Cycle

/-!
# Checks of a single declaration

A declaration is checked on its own where it is written, and again when its table is resolved. What
the check accepts is never rejected later for its kind or its markers. What it rejects is rejected
later as well, but for the markers of a reference that becomes no column: those are only looked at
by the check.
-/

namespace EntityTables.Schema

/-! ### What the check rejects -/

section Check

variable {declaration : Declaration} {error : Error}

theorem checkDeclaration_eq (declaration : Declaration) : checkDeclaration declaration = (do
      let kind ← entityKind declaration
      let _ ← (declaration.properties.filter fun property => property.references.isSome).mapM
        (checkMarkers declaration)
      return kind) := by
  have hloop : ∀ properties : List Property,
      (forIn properties PUnit.unit fun property _ =>
        if property.references.isSome then do
          checkMarkers declaration property
          pure (ForInStep.yield PUnit.unit)
        else pure (ForInStep.yield PUnit.unit)) = (do
          let _ ← (properties.filter fun property => property.references.isSome).mapM
            (checkMarkers declaration)
          return PUnit.unit) := by
    intro properties
    induction properties with
    | nil => rfl
    | cons property rest ih =>
        rw [List.forIn_cons, List.filter_cons]
        cases property.references.isSome with
        | false => exact ih
        | true =>
            rw [if_pos rfl, if_pos rfl, List.mapM_cons]
            cases checkMarkers declaration property with
            | error error => rfl
            | ok checked =>
                refine Eq.trans ih ?_
                cases (rest.filter fun property => property.references.isSome).mapM
                  (checkMarkers declaration) with
                | error error => rfl
                | ok others => rfl
  unfold checkDeclaration
  simp only [hloop, bind_assoc, pure_bind]

/-- The check accepts a declaration of the right kind, with the right markers at its references. -/
theorem checkDeclaration_eq_ok {kind : EntityKind} (hok : checkDeclaration declaration = .ok kind) :
    entityKind declaration = .ok kind ∧ ∀ property ∈ declaration.properties,
      property.references.isSome → checkMarkers declaration property = .ok () := by
  simp only [checkDeclaration_eq, bind_eq_ok_iff] at hok
  obtain ⟨_, hkind, checked, hmarkers, hpure⟩ := hok
  cases hpure
  refine ⟨hkind, fun property hmem hreference => ?_⟩
  obtain ⟨_, hproperty⟩ := exists_of_mapM_ok hmarkers (List.mem_filter.mpr ⟨hmem, hreference⟩)
  exact hproperty

/-- The check rejects a declaration for its kind or for the markers of a reference. -/
theorem checkDeclaration_eq_error (herror : checkDeclaration declaration = .error error) :
    entityKind declaration = .error error ∨ ∃ property ∈ declaration.properties,
      property.references.isSome ∧ checkMarkers declaration property = .error error := by
  simp only [checkDeclaration_eq, bind_eq_error_iff] at herror
  rcases herror with hkind | ⟨kind, -, hmarkers | ⟨_, -, hpure⟩⟩
  · exact Or.inl hkind
  · obtain ⟨property, hmem, hproperty⟩ := exists_of_mapM_error hmarkers
    obtain ⟨hmem, hreference⟩ := List.mem_filter.mp hmem
    exact Or.inr ⟨property, hmem, hreference, hproperty⟩
  · cases hpure

end Check

/-! ### What resolution rejects for its kind or its markers -/

/-- Whether an error says that a declaration is none of a table, or that markers in it are wrong. -/
def blames (key : String) : Error → Bool
  | .missingEntityBase declaration => declaration == key
  | .tupleStruct declaration => declaration == key
  | .conflictingMarkers at_ => at_.declaration == key
  | .referenceOnClass at_ => at_.declaration == key
  | _ => false

section Resolve

variable {resolver : Resolver} {stack : List Declaration} {key : Key} {declaration : Declaration}
  {text : String} {error : Error}

theorem eq_of_blames_entityKind (herror : entityKind declaration = .error error)
    (hblames : blames text error = true) : declaration.key.text = text := by
  unfold entityKind at herror
  split at herror
  · cases herror
  · cases herror
  · cases herror
    exact beq_iff_eq.mp hblames
  · cases herror
    exact beq_iff_eq.mp hblames
  · cases herror
    cases hblames

theorem eq_of_blames_checkMarkers {property : Property}
    (herror : checkMarkers declaration property = .error error)
    (hblames : blames text error = true) : declaration.key.text = text := by
  unfold checkMarkers at herror
  split at herror
  · cases herror
    exact beq_iff_eq.mp hblames
  · split at herror
    · cases herror
    · cases herror
      exact beq_iff_eq.mp hblames

theorem mem_properties_of_mem_ordered {unit : SourceUnit} {property : Property}
    (hmem : property ∈ orderedProperties unit declaration) : property ∈ declaration.properties :=
  (List.mem_filter.mp (mem_eligibleProperties_of_mem_ordered hmem)).1

/-- A declaration that resolution blames is one that the check rejects. -/
theorem not_accepted_of_blames (herror : rebuild resolver stack key = .error error)
    (hblames : blames text error = true) :
    ∃ declaration, resolver.unit.get? ⟨text⟩ = some declaration ∧
      ∀ kind, checkDeclaration declaration ≠ .ok kind := by
  induction stack, key using rebuild.induct resolver with
  | case1 stack key hmem =>
      rw [rebuild_of_mem hmem] at herror
      cases herror
      cases hblames
  | case2 stack key hmem hnone =>
      rw [rebuild_of_get?_eq_none hmem hnone] at herror
      cases herror
      cases hblames
  | case3 stack key hmem declaration hfound ih =>
      rw [rebuild_of_get?_eq_some hmem hfound] at herror
      have hkey : declaration.key = key := SourceUnit.key_of_get? hfound
      rcases buildTable_eq_error_cases hfound herror with
        hcolumn | hkind | ⟨property, hproperty, hreference, hmarkers⟩ | ⟨target, -, htarget⟩
      · unfold blames at hblames
        split at hblames
        · cases hcolumn
        · cases hcolumn
        · cases hcolumn
        · cases hcolumn
        · cases hblames
      · obtain rfl := eq_of_blames_entityKind hkind hblames
        refine ⟨declaration, hkey ▸ hfound, fun kind hok => ?_⟩
        have haccepted := (checkDeclaration_eq_ok hok).1
        rw [hkind] at haccepted
        cases haccepted
      · obtain rfl := eq_of_blames_checkMarkers hmarkers hblames
        refine ⟨declaration, hkey ▸ hfound, fun kind hok => ?_⟩
        have haccepted := (checkDeclaration_eq_ok hok).2 property
          (mem_properties_of_mem_ordered hproperty) hreference
        rw [hmarkers] at haccepted
        cases haccepted
      · exact ih target htarget

/-- A declaration of the wrong kind is rejected with the same error. -/
theorem rebuild_of_entityKind (hfound : resolver.unit.get? key = some declaration)
    (htable : declaration.isTable) (hkind : entityKind declaration = .error error) :
    rebuild resolver [] key = .error error := by
  obtain ⟨marker, hmarker⟩ := Option.isSome_iff_exists.mp htable
  rw [rebuild_of_get?_eq_some (List.not_mem_nil) hfound, buildTable_eq_tableOf hmarker, hkind]
  rfl

/-- A reference that becomes a column needs its markers right. -/
theorem checkMarkers_of_rebuild_ok (hfound : resolver.unit.get? key = some declaration)
    {table : Table} (hok : rebuild resolver stack key = .ok table) {property : Property}
    (hmem : property ∈ orderedProperties resolver.unit declaration)
    (hreference : property.references.isSome) : checkMarkers declaration property = .ok () := by
  obtain ⟨-, owner, howner, hbuild⟩ := rebuild_eq_ok_iff.mp hok
  rw [hfound] at howner
  cases howner
  obtain ⟨marker, kind, columns, -, -, hcolumns, -⟩ := (buildTable_eq_ok_iff _).mp hbuild
  obtain ⟨column, hcolumn⟩ := exists_of_mapM_ok hcolumns hmem
  rw [columnOf_eq_referenceColumn hreference] at hcolumn
  obtain ⟨_, hmarkers, -⟩ := bind_eq_ok_iff.mp hcolumn
  exact hmarkers

end Resolve

/-- **Checks of a single declaration.** What the check rejects for its kind, a fresh resolver
rejects with the same error; otherwise the check rejects the markers of a reference. Wrong markers
of a reference that becomes a column make resolution fail. What the check accepts, resolution never
rejects for the kind of that declaration or for the markers in it. -/
theorem resolveTable_of_checkDeclaration {resolver : Resolver} {key : Key}
    {declaration : Declaration} (hfound : resolver.unit.get? key = some declaration)
    (htable : declaration.isTable) :
    let resolved := ((resolveTable resolver key).run .empty).1
    (∀ error, checkDeclaration declaration = .error error →
      entityKind declaration = .error error ∧ resolved = .error error ∨
        ∃ property ∈ declaration.properties, property.references.isSome ∧
          checkMarkers declaration property = .error error) ∧
      (∀ property ∈ orderedProperties resolver.unit declaration, property.references.isSome →
        checkMarkers declaration property ≠ .ok () → ∃ failure, resolved = .error failure) ∧
      ∀ kind, checkDeclaration declaration = .ok kind →
        ∀ failure, resolved = .error failure → blames key.text failure = false := by
  intro resolved
  have hresolved : resolved = rebuild resolver [] key := resolveTable_empty resolver key
  rw [hresolved]
  refine ⟨fun error herror => ?_, fun property hmem hreference hwrong => ?_,
    fun kind hok failure hfailure => ?_⟩
  · rcases checkDeclaration_eq_error herror with hkind | hmarkers
    · exact Or.inl ⟨hkind, rebuild_of_entityKind hfound htable hkind⟩
    · exact Or.inr hmarkers
  · cases hrebuild : rebuild resolver [] key with
    | error failure => exact ⟨failure, rfl⟩
    | ok table => exact absurd (checkMarkers_of_rebuild_ok hfound hrebuild hmem hreference) hwrong
  · by_contra hblames
    obtain ⟨rejected, hrejected, hnot⟩ :=
      not_accepted_of_blames hfailure (Bool.not_eq_false _ ▸ hblames)
    rw [hfound] at hrejected
    cases hrejected
    exact hnot kind hok

section Instances

/-- A struct with a key, and a reference that its marker takes out of the table. -/
def ignoringStruct : Declaration where
  key := .within "crate" "Person"
  name := "Person"
  table := some ⟨none, none, none, none, none, none, ["boss"]⟩
  shape := .struct false
    [⟨"id", Syntax.namedType "i32", none, true, none, true, true⟩,
      ⟨"boss", Syntax.namedType "i32", none, false, some ⟨none, none⟩, true, true⟩]

def ignoringUnit : SourceUnit where
  declarations := [ignoringStruct]
  constructors := []
  sqlTypeImpls := []
  config := none

/-- The sales fail for the cycle of the staff and not for themselves. -/
theorem resolveTable_of_checkDeclaration_sale :
    checkDeclaration (traitTable "Sale" [("by", "Staff")]) = .ok .interface ∧
      ∃ failure, ((resolveTable (literalResolver staffUnit) ⟨"crate::Sale"⟩).run .empty).1 =
        .error failure ∧ blames "crate::Sale" failure = false := by
  have hfound : (literalResolver staffUnit).unit.get? ⟨"crate::Sale"⟩ =
      some (traitTable "Sale" [("by", "Staff")]) := rfl
  have hok : checkDeclaration (traitTable "Sale" [("by", "Staff")]) = .ok .interface := rfl
  refine ⟨hok, _, staff_resolveTable_sale, ?_⟩
  exact (resolveTable_of_checkDeclaration hfound rfl).2.2 _ hok _ staff_resolveTable_sale

/-- The check rejects a reference that is taken out of the table, and the table is resolved. -/
theorem checkDeclaration_ignored :
    checkDeclaration ignoringStruct = .error (.referenceOnClass ⟨"crate::Person", "boss"⟩) ∧
      ∃ table, ((resolveTable (literalResolver ignoringUnit) ignoringStruct.key).run .empty).1 =
        .ok table := by
  refine ⟨rfl, ?_⟩
  rw [resolveTable_empty]
  exact exists_of_isOk (by decide +kernel)

end Instances

end EntityTables.Schema
