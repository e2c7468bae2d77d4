import EntityTables.Proofs.Unit.Contents
import EntityTables.Proofs.Unit.Lookup

/-!
# Units that grow

Files add declarations behind those that a unit has and take none away. A path from the crate, the
module or its parent means a key, so it goes on to mean the declaration that it meant. Any other
path may get more candidates: then it becomes ambiguous, or the declaration in the module itself is
preferred. It never comes to mean a declaration somewhere else.
-/

namespace EntityTables.SourceUnit

open EntityTables.Syntax EntityTables.Text

variable {unit later : SourceUnit} {declaration : Declaration} {names : List String}
  {module : String}

/-! ### Declarations stay where they are -/

theorem declarations_addItem {placed : PlacedItem} (hok : unit.addItem placed = .ok later) :
    unit.declarations <+: later.declarations := by
  obtain ⟨added, -, -, rfl⟩ := addItem_eq_ok_iff.mp hok
  rw [declarations_join]
  exact List.prefix_append _ _

theorem declarations_addItems {items : List PlacedItem}
    (hok : unit.addItems items = (later, none)) : unit.declarations <+: later.declarations := by
  induction items generalizing unit with
  | nil =>
      cases hok
      exact List.prefix_rfl
  | cons placed rest ih =>
      obtain ⟨next, hnext, hrest⟩ := addItems_cons.mp hok
      apply List.IsPrefix.trans
      · exact declarations_addItem hnext
      · exact ih hrest

theorem declarations_addFiles {files : List (String × Node)}
    (hok : unit.addFiles files = .ok later) : unit.declarations <+: later.declarations :=
  declarations_addItems (addFiles_eq_ok_iff.mp hok)

/-! ### What a path means by its candidates -/

/-- The declarations whose keys end in the names of a path. -/
def candidates (unit : SourceUnit) (names : List String) : List Declaration :=
  unit.declarations.filter (·.key.endsIn names)

/-- The candidate in the module itself. -/
def closest? (unit : SourceUnit) (names : List String) (module : String) : Option Declaration :=
  (unit.candidates names).find? (·.key = .within module (joinNames names))

theorem lookupNames_of_exactKey? {key : String} (hexact : exactKey? names module = some key) :
    unit.lookupNames names module = (unit.get? ⟨key⟩).elim .missing .found := by
  have hnames : names.isEmpty = false := by
    cases names with
    | nil => cases hexact
    | cons front rest => rfl
  rw [lookupNames, if_neg (by simp [hnames]), hexact]

theorem lookupNames_of_candidates (hnames : names ≠ []) (hfree : exactKey? names module = none) :
    unit.lookupNames names module =
      match unit.candidates names with
      | [] => .missing
      | [only] => .found only
      | candidates => (unit.closest? names module).elim (.ambiguous candidates) .found := by
  rw [lookupNames, if_neg (by simpa using hnames), hfree]
  unfold closest? candidates
  generalize unit.declarations.filter (·.key.endsIn names) = found
  rcases found with _ | ⟨only, _ | ⟨second, rest⟩⟩ <;> rfl

/-- A path that fixes no key means its only candidate, or the one in the module itself. -/
theorem lookupNames_eq_found_iff (hnames : names ≠ []) (hfree : exactKey? names module = none) :
    unit.lookupNames names module = .found declaration ↔
      unit.candidates names = [declaration] ∨
        unit.closest? names module = some declaration := by
  rw [lookupNames_of_candidates hnames hfree]
  have hclosest : ∀ found, unit.closest? names module = some found →
      found ∈ unit.candidates names := fun found => List.mem_of_find?_eq_some
  rcases hcandidates : unit.candidates names with _ | ⟨only, _ | ⟨second, rest⟩⟩
  · rw [hcandidates] at hclosest
    simpa using hclosest declaration
  · rw [hcandidates] at hclosest
    simp only [Lookup.found.injEq, List.cons.injEq, and_true, iff_self_or]
    intro hfound
    exact (List.mem_singleton.mp (hclosest declaration hfound)).symm
  · cases unit.closest? names module <;> simp

theorem lookupNames_eq_ambiguous (hnames : names ≠ []) (hfree : exactKey? names module = none)
    (hseveral : 1 < (unit.candidates names).length) (hnone : unit.closest? names module = none) :
    unit.lookupNames names module = .ambiguous (unit.candidates names) := by
  rw [lookupNames_of_candidates hnames hfree]
  rcases hcandidates : unit.candidates names with _ | ⟨only, _ | ⟨second, rest⟩⟩
  · simp [hcandidates] at hseveral
  · simp [hcandidates] at hseveral
  · rw [hnone]
    rfl

/-! ### What a path means in a unit that grew -/

section Grown

variable (hgrown : unit.declarations <+: later.declarations)

include hgrown

theorem get?_grown {key : Key} (hfound : unit.get? key = some declaration) :
    later.get? key = some declaration :=
  hgrown.find?_eq_some hfound

theorem candidates_grown (names : List String) :
    unit.candidates names <+: later.candidates names := hgrown.filter _

theorem closest?_grown (hfound : unit.closest? names module = some declaration) :
    later.closest? names module = some declaration :=
  (candidates_grown hgrown names).find?_eq_some hfound

theorem lookupNames_grown_of_exactKey? (hexact : (exactKey? names module).isSome)
    (hfound : unit.lookupNames names module = .found declaration) :
    later.lookupNames names module = .found declaration := by
  obtain ⟨key, hkey⟩ := Option.isSome_iff_exists.mp hexact
  rw [lookupNames_of_exactKey? hkey] at hfound ⊢
  cases hget : unit.get? ⟨key⟩ with
  | none => simp [hget] at hfound
  | some found =>
      rw [hget] at hfound
      rw [get?_grown hgrown hget]
      exact hfound

/-- Once a path means the declaration in the module itself, it always does. -/
theorem lookupNames_grown_of_closest (hnames : names ≠ []) (hfree : exactKey? names module = none)
    (hkey : declaration.key = .within module (joinNames names))
    (hfound : unit.lookupNames names module = .found declaration) :
    later.lookupNames names module = .found declaration := by
  rw [lookupNames_eq_found_iff hnames hfree] at hfound ⊢
  apply Or.inr
  rcases hfound with honly | hclosest
  · have hown : unit.closest? names module = some declaration := by
      rw [closest?, honly, List.find?_cons_of_pos (by simpa using hkey)]
    exact closest?_grown hgrown hown
  · exact closest?_grown hgrown hclosest

/-- The only candidate of a path stays a candidate; the path means another one only if that was
added in the module itself. -/
theorem lookupNames_grown_of_only (hnames : names ≠ []) (hfree : exactKey? names module = none)
    (honly : unit.candidates names = [declaration]) :
    later.lookupNames names module = .found declaration ∨
      (∃ candidates, later.lookupNames names module = .ambiguous candidates ∧
        declaration ∈ candidates) ∨
      ∃ other, later.lookupNames names module = .found other ∧ other ∉ unit.declarations ∧
        other.key = .within module (joinNames names) := by
  have hcandidates : [declaration] <+: later.candidates names :=
    honly ▸ candidates_grown hgrown names
  have hmem : declaration ∈ later.candidates names := hcandidates.mem List.mem_cons_self
  cases hclosest : later.closest? names module with
  | some other =>
      have hother := (lookupNames_eq_found_iff hnames hfree).mpr (Or.inr hclosest)
      by_cases hold : other ∈ unit.declarations
      · have hends : other ∈ unit.candidates names :=
          List.mem_filter.mpr ⟨hold, (List.mem_filter.mp (List.mem_of_find?_eq_some hclosest)).2⟩
        rw [honly, List.mem_singleton] at hends
        exact Or.inl (hends ▸ hother)
      · have hkey : other.key = .within module (joinNames names) := by
          simpa using List.find?_some hclosest
        exact Or.inr (Or.inr ⟨other, hother, hold, hkey⟩)
  | none =>
      by_cases hseveral : 1 < (later.candidates names).length
      · apply Or.inr
        apply Or.inl
        exact ⟨_, lookupNames_eq_ambiguous hnames hfree hseveral hclosest, hmem⟩
      · apply Or.inl
        rw [lookupNames_eq_found_iff hnames hfree]
        apply Or.inl
        exact (hcandidates.eq_of_length_le (by simpa using hseveral)).symm

end Grown

/-! ### Files that are added -/

/-- The words that begin a path which means a key. -/
def rootWords : List String := ["crate", "self", "super"]

theorem isSome_exactKey?_iff (names : List String) (module : String) :
    (exactKey? names module).isSome ↔ ∃ word ∈ rootWords, names.head? = some word := by
  unfold exactKey?
  split <;> simp_all [rootWords]
  cases names <;> simp_all

/-- **Added files redirect no name.** A path that meant a declaration still means it after files
were added, or it is ambiguous with the declaration among the candidates, or it means one that the
files added in the module itself. A path from the crate, the module or its parent still means the
same, and so does a path that meant the declaration in the module itself. -/
theorem lookup_addFiles {files : List (String × Node)} (hadded : unit.addFiles files = .ok later)
    {path : Node} (hfound : unit.lookup path module = .found declaration) :
    let closest := Key.within module (joinNames path.pathNames)
    (later.lookup path module = .found declaration ∨
      (∃ candidates, later.lookup path module = .ambiguous candidates ∧
        declaration ∈ candidates) ∨
      ∃ other, later.lookup path module = .found other ∧ other ∉ unit.declarations ∧
        other.key = closest) ∧
    ((∃ word ∈ rootWords, path.pathNames.head? = some word) ∨ declaration.key = closest →
      later.lookup path module = .found declaration) := by
  intro closest
  have hgrown := declarations_addFiles hadded
  unfold lookup at hfound ⊢
  have hnames : path.pathNames ≠ [] := by
    intro hnil
    simp [hnil, lookupNames] at hfound
  rw [← isSome_exactKey?_iff path.pathNames module]
  cases hexact : exactKey? path.pathNames module with
  | some key =>
      have hstays := lookupNames_grown_of_exactKey? hgrown (by simp [hexact]) hfound
      exact ⟨Or.inl hstays, fun _ => hstays⟩
  | none =>
      have hclose := fun hkey => lookupNames_grown_of_closest hgrown hnames hexact hkey hfound
      constructor
      · rcases (lookupNames_eq_found_iff hnames hexact).mp hfound with honly | hclosest
        · exact lookupNames_grown_of_only hgrown hnames hexact honly
        · exact Or.inl (hclose (by simpa using List.find?_some hclosest))
      · rintro (hnever | hkey)
        · cases hnever
        · exact hclose hkey

section Instance

def enumFile (module name : String) : String × Node :=
  (module, .phrase .file [.empty .attributes, .phrase .enumItem
    [.empty .attributes, .empty .visibility, .ident "enum", .ident name, .group .brace []]])

def levelKey (module : String) : Declaration :=
  ⟨.within module "Level", "Level", none, .other .enum⟩

/-- Levels in one module. -/
def levelUnit : SourceUnit := ⟨[levelKey "crate::hr"], _, [], [], none, rfl⟩

/-- Levels in another module are found there from now on, and make the name ambiguous elsewhere. The
path from the crate is unchanged. -/
theorem lookup_addFiles_level : ∃ later,
    levelUnit.addFiles [enumFile "crate::sales" "Level"] = .ok later ∧
      levelUnit.lookup (pathOf [segmentOf "Level"]) "crate::sales" = .found (levelKey "crate::hr") ∧
      later.lookup (pathOf [segmentOf "Level"]) "crate::sales" = .found (levelKey "crate::sales") ∧
      later.lookup (pathOf [segmentOf "Level"]) "crate" =
        .ambiguous [levelKey "crate::hr", levelKey "crate::sales"] ∧
      later.lookup (pathOf [segmentOf "crate", segmentOf "hr", segmentOf "Level"]) "crate::sales" =
        .found (levelKey "crate::hr") := by
  have hadded : levelUnit.addFiles [enumFile "crate::sales" "Level"] =
      .ok ⟨[levelKey "crate::hr", levelKey "crate::sales"], _, [], [], none, rfl⟩ := by
    rfl
  refine ⟨_, hadded, by rfl, by rfl, by rfl, ?_⟩
  exact (lookup_addFiles hadded (by rfl)).2 (Or.inl ⟨"crate", by decide, by rfl⟩)

end Instance

end EntityTables.SourceUnit
