import EntityTables.Proofs.Schema.ReferenceTypes
import EntityTables.Proofs.Schema.Session

/-!
# Rules of references

What a reference property has to meet, as a list of rules, each with the errors that breaking it
gives. A property may break several of them at once. Its column is made if it breaks none, and
otherwise fails with the error of the first that it breaks.

The steps of resolution check some of the rules each, one group after the other, so it is enough
that every step decides its own rules.
-/

namespace EntityTables.Schema

open EntityTables.Syntax

/-! ### Steps that decide rules -/

section Rules

variable {ρ α β : Type} {breaks : ρ → Error → Prop} {rules later : List ρ} {rule : ρ}
  {error : Error} {step : Except Error α}

/-- An error that breaking the first broken rule gives. -/
def FirstBroken (breaks : ρ → Error → Prop) (rules : List ρ) (error : Error) : Prop :=
  ∃ before rule after, rules = before ++ rule :: after ∧ breaks rule error ∧
    ∀ earlier ∈ before, ∀ other, ¬breaks earlier other

/-- A step fails with the error of the first of some rules that is broken. -/
def Decides (breaks : ρ → Error → Prop) (rules : List ρ) (step : Except Error α) : Prop :=
  ∀ error, step = .error error ↔ FirstBroken breaks rules error

theorem not_firstBroken_nil : ¬FirstBroken breaks [] error := by
  rintro ⟨before, rule, after, hrules, -⟩
  cases before <;> cases hrules

theorem firstBroken_cons : FirstBroken breaks (rule :: rules) error ↔
    breaks rule error ∨ (∀ other, ¬breaks rule other) ∧ FirstBroken breaks rules error := by
  constructor
  · rintro ⟨before, broken, after, hrules, hbroken, hkept⟩
    cases before with
    | nil =>
        cases hrules
        exact Or.inl hbroken
    | cons first before =>
        cases hrules
        have hrest := fun earlier hmem => hkept earlier (List.mem_cons_of_mem _ hmem)
        exact Or.inr ⟨hkept _ List.mem_cons_self, before, broken, after, rfl, hbroken, hrest⟩
  · rintro (hbroken | ⟨hkept, before, broken, after, rfl, hbroken, hrest⟩)
    · exact ⟨[], rule, rules, rfl, hbroken, nofun⟩
    · exact ⟨rule :: before, broken, after, rfl, hbroken, List.forall_mem_cons.mpr ⟨hkept, hrest⟩⟩

theorem firstBroken_append : FirstBroken breaks (rules ++ later) error ↔
    FirstBroken breaks rules error ∨
      (∀ rule ∈ rules, ∀ other, ¬breaks rule other) ∧ FirstBroken breaks later error := by
  induction rules with
  | nil => simp [not_firstBroken_nil]
  | cons rule rules ih =>
      rw [List.cons_append, firstBroken_cons, firstBroken_cons, ih, List.forall_mem_cons]
      tauto

theorem exists_firstBroken (hrule : rule ∈ rules) (hbroken : breaks rule error) :
    ∃ first, FirstBroken breaks rules first := by
  induction rules with
  | nil => cases hrule
  | cons own rules ih =>
      by_cases hown : ∃ other, breaks own other
      · obtain ⟨other, hother⟩ := hown
        exact ⟨other, firstBroken_cons.mpr (Or.inl hother)⟩
      · rcases List.mem_cons.mp hrule with rfl | hrule
        · exact absurd ⟨error, hbroken⟩ hown
        · obtain ⟨first, hfirst⟩ := ih hrule
          exact ⟨first, firstBroken_cons.mpr (Or.inr ⟨not_exists.mp hown, hfirst⟩)⟩

namespace Decides

/-- A step that decides rules succeeds if none of them is broken, and only then. -/
theorem ok_iff (hstep : Decides breaks rules step) :
    (∃ a, step = .ok a) ↔ ∀ rule ∈ rules, ∀ error, ¬breaks rule error := by
  constructor
  · rintro ⟨a, rfl⟩ rule hrule error hbroken
    obtain ⟨first, hfirst⟩ := exists_firstBroken hrule hbroken
    cases (hstep first).mpr hfirst
  · intro hkept
    cases hresult : step with
    | ok a => exact ⟨a, rfl⟩
    | error error =>
        obtain ⟨before, rule, after, rfl, hbroken, -⟩ := (hstep error).mp hresult
        exact absurd hbroken (hkept rule (by simp) error)

theorem nil (a : α) : Decides breaks [] (.ok a) := by
  intro error
  simp [not_firstBroken_nil]

theorem here (hbroken : ∀ other, breaks rule other ↔ other = error) :
    Decides breaks (rule :: rules) (.error error : Except Error α) := by
  intro other
  rw [firstBroken_cons, hbroken, Except.error.injEq]
  constructor
  · rintro rfl
    exact Or.inl rfl
  · rintro (rfl | ⟨hkept, -⟩)
    · rfl
    · exact absurd ((hbroken error).mpr rfl) (hkept error)

theorem next (hkept : ∀ other, ¬breaks rule other) (hrest : Decides breaks rules step) :
    Decides breaks (rule :: rules) step := by
  intro error
  rw [hrest error, firstBroken_cons]
  simp [hkept]

theorem map (hstep : Decides breaks rules step) (f : α → β) :
    Decides breaks rules (step.map f) := by
  intro error
  rw [← hstep error]
  cases step <;> simp [Except.map]

theorem bind {next : α → Except Error β} (hstep : Decides breaks rules step)
    (hnext : ∀ a, step = .ok a → Decides breaks later (next a)) :
    Decides breaks (rules ++ later) (step >>= next) := by
  intro error
  rw [bind_eq_error_iff, firstBroken_append, ← hstep error, ← hstep.ok_iff]
  constructor
  · rintro (herror | ⟨a, hok, herror⟩)
    · exact Or.inl herror
    · exact Or.inr ⟨⟨a, hok⟩, (hnext a hok error).mp herror⟩
  · rintro (herror | ⟨⟨a, hok⟩, hfirst⟩)
    · exact Or.inl herror
    · exact Or.inr ⟨a, hok, (hnext a hok error).mpr hfirst⟩

end Decides

end Rules

/-! ### The rules -/

/-- What a reference property has to meet. -/
inductive ReferenceRule
  | soleMarker
  | interfaceOwner
  | declared
  | unambiguous
  | possible
  | marked
  | interface
  | resolved
  | soleKey

namespace ReferenceRule

/-- The rules in the order in which they are checked. -/
def inOrder : List ReferenceRule :=
  [.soleMarker, .interfaceOwner, .declared, .unambiguous, .possible, .marked, .interface, .resolved,
    .soleKey]

variable (unit : SourceUnit) (stack : List Declaration) (resolve : Key → Except Error Table)
  (owner : Declaration) (property : Property)

/-- The type of a property names a path, and the path means a declaration. -/
def PointsAt (target : Declaration) : Prop :=
  ∃ path, Names property.type (some path) ∧ unit.lookup path owner.key.module = .found target

/-- A property breaks a rule, with the error for it. Some declarations are being resolved, and
`resolve` resolves a target on its own. -/
def Breaks (rule : ReferenceRule) (error : Error) : Prop :=
  let at_ : PropertyRef := ⟨owner.key.text, property.name⟩
  match rule with
  | .soleMarker => property.column.isSome ∧ error = .conflictingMarkers at_
  | .interfaceOwner =>
    (∀ extends_ properties, owner.shape ≠ .interface extends_ properties) ∧
      error = .referenceOnClass at_
  | .declared =>
    Names property.type none ∧ error = .notATable at_ property.type.print ∨
      ∃ path, Names property.type (some path) ∧ unit.lookup path owner.key.module = .missing ∧
        error = .notATable at_ path.pathText
  | .unambiguous =>
    ∃ path candidates, Names property.type (some path) ∧
      unit.lookup path owner.key.module = .ambiguous candidates ∧
      error = .ambiguousReference at_ path.pathText (candidates.map (·.key.text))
  | .possible =>
    ∃ target kind, PointsAt unit owner property target ∧ target.shape = .other kind ∧
      (kind = .tupleStruct → target.isTable) ∧
      error = .unsupportedKind target.key.text kind .referencedTable
  | .marked =>
    ∃ target, PointsAt unit owner property target ∧ target.isTable = false ∧
      error = .notATable at_ target.key.text
  | .interface =>
    ∃ target isUnit properties, PointsAt unit owner property target ∧
      target.shape = .struct isUnit properties ∧ error = .targetNotInterface at_ target.key.text
  | .resolved =>
    ∃ target, PointsAt unit owner property target ∧
      (target.key ∈ stack.map (·.key) ∧ error = .circularReference (cycleFrom target.key stack) ∨
        target.key ∉ stack.map (·.key) ∧ resolve target.key = .error error)
  | .soleKey =>
    ∃ target table, PointsAt unit owner property target ∧ resolve target.key = .ok table ∧
      (table.primaryKeys = [] ∧ error = .noPrimaryKey at_ table.key.text ∨
        1 < table.primaryKeys.length ∧
          error = .compoundPrimaryKey at_ table.key.text table.primaryKeys.length)

end ReferenceRule

/-! ### Which step decides which rules -/

section Steps

open ReferenceRule

variable {unit : SourceUnit} {stack : List Declaration} {resolve : Key → Except Error Table}
  {owner target : Declaration} {property : Property}

theorem decides_checkMarkers :
    Decides (Breaks unit stack resolve owner property) [.soleMarker, .interfaceOwner]
      (checkMarkers owner property) := by
  unfold checkMarkers
  by_cases hcolumn : property.column.isSome
  · rw [if_pos hcolumn]
    apply Decides.here
    simp [Breaks, hcolumn]
  · rw [if_neg hcolumn]
    apply Decides.next
    · simp [Breaks, hcolumn]
    · split
      · next extends_ properties hshape =>
          apply Decides.next
          · simp [Breaks, hshape]
          · exact .nil _
      · next hshape =>
          apply Decides.here
          intro other
          exact ⟨And.right, fun hother => ⟨hshape, hother⟩⟩

theorem pointsAt_iff_of_found {path : Node} (hpath : referencedPath? property.type = some path)
    (hlookup : unit.lookup path owner.key.module = .found target) {other : Declaration} :
    PointsAt unit owner property other ↔ other = target := by
  simp [PointsAt, names_iff, hpath, hlookup, eq_comm]

/-- A target that is an interface or a struct is checked for its marker only. -/
theorem not_breaks_possible (honly : ∀ other, PointsAt unit owner property other ↔ other = target)
    (hshape : ∀ kind, target.shape ≠ .other kind) (error : Error) :
    ¬Breaks unit stack resolve owner property .possible error := by
  rintro ⟨other, kind, hother, hkind, -⟩
  rw [honly] at hother
  exact hshape kind (hother ▸ hkind)

theorem decides_marked (honly : ∀ other, PointsAt unit owner property other ↔ other = target)
    {rules : List ReferenceRule} {step : Except Error Unit}
    (hrest : target.isTable → Decides (Breaks unit stack resolve owner property) rules step) :
    Decides (Breaks unit stack resolve owner property) (.marked :: rules)
      (if target.isTable then step
        else .error (.notATable ⟨owner.key.text, property.name⟩ target.key.text)) := by
  by_cases htable : target.isTable
  · rw [if_pos htable]
    apply Decides.next
    · simp [Breaks, honly, htable]
    · exact hrest htable
  · rw [if_neg htable]
    apply Decides.here
    simp [Breaks, honly, htable]

theorem decides_checkTarget
    (honly : ∀ other, PointsAt unit owner property other ↔ other = target) :
    Decides (Breaks unit stack resolve owner property) [.possible, .marked, .interface]
      (checkTarget ⟨owner.key.text, property.name⟩ target) := by
  unfold checkTarget
  split
  · next kind hshape =>
      split
      · next hcovered =>
          apply Decides.here
          have himplies : kind = .tupleStruct → target.isTable := by tauto
          simpa [Breaks, honly, hshape] using himplies
      · next huncovered =>
          rw [not_or, not_not] at huncovered
          apply Decides.next
          · simp [Breaks, honly, hshape, huncovered]
          · apply Decides.here
            simp [Breaks, honly, huncovered.2]
  · next isUnit properties hshape =>
      apply Decides.next (not_breaks_possible honly (by simp [hshape]))
      apply decides_marked honly
      intro _
      apply Decides.here
      simp [Breaks, honly, hshape]
  · next extends_ properties hshape =>
      apply Decides.next (not_breaks_possible honly (by simp [hshape]))
      apply decides_marked honly
      intro _
      apply Decides.next
      · simp [Breaks, honly, hshape]
      · exact .nil _

theorem decides_referenceTarget :
    Decides (Breaks unit stack resolve owner property)
      [.declared, .unambiguous, .possible, .marked, .interface]
      (referenceTarget unit owner property) := by
  unfold referenceTarget
  cases hpath : referencedPath? property.type with
  | none =>
      apply Decides.here
      simp [Breaks, names_iff, hpath]
  | some path =>
      dsimp only
      cases hlookup : unit.lookup path owner.key.module with
      | missing =>
          apply Decides.here
          simp [Breaks, names_iff, hpath, hlookup]
      | ambiguous candidates =>
          apply Decides.next
          · simp [Breaks, names_iff, hpath, hlookup]
          · apply Decides.here
            simp [Breaks, names_iff, hpath, hlookup]
      | found target =>
          apply Decides.next
          · simp [Breaks, names_iff, hpath, hlookup]
          · apply Decides.next
            · simp [Breaks, names_iff, hpath, hlookup]
            · apply Decides.map
              apply decides_checkTarget
              intro other
              exact pointsAt_iff_of_found hpath hlookup

theorem decides_resolve (honly : ∀ other, PointsAt unit owner property other ↔ other = target)
    (hcycle : ∀ key ∈ stack.map (·.key),
      resolve key = .error (.circularReference (cycleFrom key stack))) :
    Decides (Breaks unit stack resolve owner property) [.resolved] (resolve target.key) := by
  have hbreaks : ∀ error, Breaks unit stack resolve owner property .resolved error ↔
      resolve target.key = .error error := by
    intro error
    constructor
    · rintro ⟨other, hother, ⟨hmem, rfl⟩ | ⟨-, hfails⟩⟩
      · rw [(honly other).mp hother] at hmem ⊢
        exact hcycle target.key hmem
      · rwa [(honly other).mp hother] at hfails
    · intro hfails
      refine ⟨target, (honly target).mpr rfl, ?_⟩
      by_cases hmem : target.key ∈ stack.map (·.key)
      · rw [hcycle target.key hmem, Except.error.injEq] at hfails
        exact Or.inl ⟨hmem, hfails.symm⟩
      · exact Or.inr ⟨hmem, hfails⟩
  intro error
  rw [firstBroken_cons, hbreaks]
  simp [not_firstBroken_nil]

theorem primaryKeys_eq_map (table : Table) :
    table.primaryKeys = (table.columns.zipIdx.filter (·.1.primaryKey)).map (·.1) :=
  calc table.primaryKeys
      = (table.columns.zipIdx.map (·.1)).filter (·.primaryKey) := by
        rw [List.zipIdx_map_fst, TableOf.primaryKeys]
    _ = (table.columns.zipIdx.filter (·.1.primaryKey)).map (·.1) := List.filter_map

theorem decides_keyPosition {table : Table}
    (honly : ∀ other, PointsAt unit owner property other ↔ other = target)
    (hresolve : resolve target.key = .ok table) :
    Decides (Breaks unit stack resolve owner property) [.soleKey]
      (keyPosition ⟨owner.key.text, property.name⟩ table) := by
  have hlength : ((table.columns.zipIdx.filter (·.1.primaryKey)).map (·.2)).length =
      table.primaryKeys.length := by
    rw [primaryKeys_eq_map, List.length_map, List.length_map]
  have hbreaks : ∀ error, Breaks unit stack resolve owner property .soleKey error ↔
      table.primaryKeys = [] ∧
          error = .noPrimaryKey ⟨owner.key.text, property.name⟩ table.key.text ∨
        1 < table.primaryKeys.length ∧ error = .compoundPrimaryKey
          ⟨owner.key.text, property.name⟩ table.key.text table.primaryKeys.length := by
    simp [Breaks, honly, hresolve]
  unfold keyPosition
  generalize (table.columns.zipIdx.filter (·.1.primaryKey)).map (·.2) = positions at hlength ⊢
  cases positions with
  | nil =>
      have hnil : table.primaryKeys = [] := List.length_eq_zero_iff.mp hlength.symm
      apply Decides.here
      simp [hbreaks, hnil]
  | cons only rest =>
      have hne : table.primaryKeys ≠ [] := by
        apply List.ne_nil_of_length_pos
        rw [← hlength]
        exact Nat.succ_pos _
      cases rest with
      | nil =>
          apply Decides.next
          · simp [hbreaks, hne, ← hlength]
          · exact .nil _
      | cons second rest =>
          apply Decides.here
          simp [hbreaks, hne, ← hlength]

theorem decides_referenceColumn {resolver : Resolver} {table : Table}
    (honly : ∀ other, PointsAt unit owner property other ↔ other = target)
    (hresolve : resolve target.key = .ok table) :
    Decides (Breaks unit stack resolve owner property) [.soleKey]
      (referenceColumn resolver owner property table) := by
  unfold referenceColumn
  exact (decides_keyPosition honly hresolve).bind fun _ _ => Decides.nil _

theorem pointsAt_iff_of_referenceTarget
    (htarget : referenceTarget unit owner property = .ok target) (other : Declaration) :
    PointsAt unit owner property other ↔ other = target := by
  have hlookup := lookupTarget?_of_referenceTarget htarget
  unfold lookupTarget? at hlookup
  cases hpath : referencedPath? property.type with
  | none => simp [hpath] at hlookup
  | some path =>
      rw [hpath] at hlookup
      dsimp only at hlookup
      split at hlookup
      · next found hfound =>
          cases hlookup
          exact pointsAt_iff_of_found hpath hfound
      · cases hlookup

/-- The steps of a reference column check the rules group by group. -/
theorem decides_columnOf {resolver : Resolver} {kind : EntityKind}
    (hreference : property.references.isSome)
    (hcycle : ∀ key ∈ stack.map (·.key),
      resolve key = .error (.circularReference (cycleFrom key stack))) :
    Decides (Breaks resolver.unit stack resolve owner property) inOrder
      (columnOf resolver resolve owner kind property) := by
  rw [columnOf_eq_referenceColumn hreference]
  apply decides_checkMarkers.bind
  intro _ _
  apply decides_referenceTarget.bind
  intro target htarget
  have honly := pointsAt_iff_of_referenceTarget htarget
  apply (decides_resolve honly hcycle).bind
  intro table htable
  exact decides_referenceColumn honly htable

end Steps

/-! ### Columns in a session -/

section Session

variable {σ : Type} {resolver : Resolver} {owner : Declaration} {kind : EntityKind}
  {property : Property}

theorem run_ofExcept {α : Type} (result : Except Error α) (session : σ) :
    (ofExcept result : Resolving σ α).run session = (result, session) := by
  cases result <;> rfl

/-- A reference column asks for one table only, and before that nothing is resolved. -/
theorem run_columnOf_of_reference (hreference : property.references.isSome)
    (resolve : Key → Resolving σ Table) (session : σ) :
    ((columnOf resolver resolve owner kind property).run session).1 =
      columnOf resolver (fun key => ((resolve key).run session).1) owner kind property := by
  rw [columnOf_eq_referenceColumn hreference]
  unfold columnOf
  rw [if_pos hreference, run_bind, run_ofExcept]
  cases checkMarkers owner property with
  | error error => rfl
  | ok checked =>
      dsimp only
      rw [run_bind, run_ofExcept]
      cases referenceTarget resolver.unit owner property with
      | error error => rfl
      | ok target =>
          dsimp only
          change _ =
            ((resolve target.key).run session).1 >>= referenceColumn resolver owner property
          rw [run_bind]
          rcases (resolve target.key).run session with ⟨_ | table, after⟩
          · rfl
          · dsimp only
            rw [run_ofExcept]
            rfl

theorem resolveFrom_of_mem {stack : List Declaration} (session : Session.During stack) {key : Key}
    (hmem : key ∈ stack.map (·.key)) :
    ((resolveFrom resolver stack key).run session).1 =
      .error (.circularReference (cycleFrom key stack)) := by
  have hslot := (session.1.inProgress_iff key).mpr (by rwa [session.2])
  rw [resolveFrom_of_inProgress hslot]

end Session

theorem ReferenceRule.mem_inOrder (rule : ReferenceRule) : rule ∈ inOrder := by
  cases rule <;> simp [inOrder]

/-- **Rules of references.** Whatever is being resolved and was resolved before, the column of a
reference fails with the error of the first rule that the property breaks, and it is made if the
property breaks none. -/
theorem columnOf_follows_rules (resolver : Resolver) {stack : List Declaration}
    (session : Session.During stack) (owner : Declaration) (kind : EntityKind) {property : Property}
    (hreference : property.references.isSome) :
    let resolve (key : Key) := ((resolveFrom resolver stack key).run session).1
    let breaks := ReferenceRule.Breaks resolver.unit stack resolve owner property
    let answer :=
      ((columnOf resolver (resolveFrom resolver stack) owner kind property).run session).1
    (∀ error, answer = .error error ↔ FirstBroken breaks ReferenceRule.inOrder error) ∧
      ((∃ column, answer = .ok column) ↔ ∀ rule error, ¬breaks rule error) := by
  intro resolve breaks answer
  have hdecides : Decides breaks ReferenceRule.inOrder answer := by
    unfold answer
    rw [run_columnOf_of_reference hreference]
    apply decides_columnOf hreference
    intro key hmem
    exact resolveFrom_of_mem session hmem
  refine ⟨hdecides, hdecides.ok_iff.trans ?_⟩
  exact forall_congr' fun rule => ⟨fun hkept => hkept rule.mem_inOrder, fun hkept _ => hkept⟩

section Instance

/-- The grade of a sale. -/
def gradeProperty : Property where
  name := "grade"
  type := optionOf (.phrase .referenceType [.punct "&", namedType "Grade"])
  column := none
  primaryKey := false
  references := some ⟨none, none⟩
  mutable := false
  backed := true

/-- Sales have a grade, and are a table. -/
def saleDeclaration : Declaration where
  key := .within "crate" "Sale"
  name := "Sale"
  table := some ⟨none, none, none, none, none, none, []⟩
  shape := .interface true [gradeProperty]

/-- Grades are an enum and no table. -/
def gradeDeclaration : Declaration where
  key := .within "crate" "Grade"
  name := "Grade"
  table := none
  shape := .other .enum

def saleUnit : SourceUnit where
  declarations := [saleDeclaration, gradeDeclaration]
  constructors := []
  sqlTypeImpls := []
  config := none

/-- The session in which the columns of sales are resolved. -/
def saleSession : Session.During [saleDeclaration] :=
  Session.enter ⟨.empty, rfl⟩ saleDeclaration rfl

theorem columnOf_follows_rules_grade :
    let resolver := literalResolver saleUnit
    let resolve (key : Key) :=
      ((resolveFrom resolver [saleDeclaration] key).run saleSession).1
    let breaks := ReferenceRule.Breaks saleUnit [saleDeclaration] resolve saleDeclaration
      gradeProperty
    gradeProperty.references.isSome ∧
      FirstBroken breaks ReferenceRule.inOrder
        (.unsupportedKind "crate::Grade" .enum .referencedTable) ∧
      breaks .marked (.notATable ⟨"crate::Sale", "grade"⟩ "crate::Grade") := by
  intro resolver resolve breaks
  have hanswer : ((columnOf resolver (resolveFrom resolver [saleDeclaration]) saleDeclaration
      .interface gradeProperty).run saleSession).1 =
        .error (.unsupportedKind "crate::Grade" .enum .referencedTable) := rfl
  have hreference : gradeProperty.references.isSome := rfl
  have hrules := columnOf_follows_rules resolver saleSession saleDeclaration .interface hreference
  have hpoints : ReferenceRule.PointsAt saleUnit saleDeclaration gradeProperty gradeDeclaration :=
    ⟨pathOf [segmentOf "Grade"], names_iff.mpr rfl, rfl⟩
  exact ⟨hreference, (hrules.1 _).mp hanswer, gradeDeclaration, hpoints, rfl, rfl⟩

end Instance

end EntityTables.Schema
