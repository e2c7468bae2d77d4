import EntityTables.Proofs.Steps
import EntityTables.Proofs.Unit.Index
import Mathlib.Data.List.Nodup
import Mathlib.Data.List.Perm.Basic

/-!
# The contents of a unit

What an item adds to a unit does not depend on what the unit has already: it is what the item makes
of the empty unit, less a declaration whose key is taken. Only a second configuration is refused.
So items whose declarations have different keys make the same unit in any order, but for the order
of what is in it.
-/

namespace EntityTables

open EntityTables.Syntax

/-- What an item adds, as a unit of its own. -/
def PlacedItem.contents (placed : PlacedItem) : Except Error SourceUnit :=
  SourceUnit.empty.addItem placed

/-- The keys of the declarations that an item makes; it makes at most one. -/
def PlacedItem.keys (placed : PlacedItem) : List Key :=
  match placed.contents with
  | .ok contents => contents.declarations.map (·.key)
  | .error _ => []

/-- Items that are no modules are placed where they stand. -/
theorem placeItems_of_not_mod (module : String) {items : List Node}
    (hitems : ∀ item ∈ items, item.is .modItem = false) :
    placeItems module items = items.map (PlacedItem.mk module) := by
  induction items with
  | nil => rfl
  | cons item rest ih =>
      have hrest := ih fun other hmem => hitems other (List.mem_cons_of_mem item hmem)
      have hitem := hitems item List.mem_cons_self
      rw [placeItems, hrest, List.map_cons]
      unfold placeItem
      split
      · cases hitem
      · rfl

namespace SourceUnit

variable {unit first second added other result : SourceUnit} {placed : PlacedItem}

/-! ### What an item adds -/

/-- A unit with what another one has, apart from declarations whose keys are taken. -/
def join (unit added : SourceUnit) : SourceUnit where
  declarations := unit.declarations ++
    added.declarations.filter fun declaration => (unit.get? declaration.key).isNone
  constructors := unit.constructors ++ added.constructors
  sqlTypeImpls := unit.sqlTypeImpls ++ added.sqlTypeImpls
  config := unit.config.or added.config

theorem declarations_join (unit added : SourceUnit) : (unit.join added).declarations =
    unit.declarations ++
      added.declarations.filter fun declaration => (unit.get? declaration.key).isNone := rfl

/-- A unit in which a declaration stands alone, perhaps with the configuration that it carries. -/
def ofDeclaration (declaration : Declaration) (config : Option ConfigMarker) : SourceUnit :=
  ⟨[declaration], _, [], [], config, rfl⟩

theorem join_empty (unit : SourceUnit) : unit.join empty = unit := by
  ext1 <;> simp [join, empty]

theorem empty_join (added : SourceUnit) : empty.join added = added := by
  ext1 <;> simp [join, empty, get?]

theorem insert_eq_join (unit : SourceUnit) (declaration : Declaration) :
    unit.insert declaration = unit.join (ofDeclaration declaration none) := by
  ext1
  · rw [declarations_insert, declarations_join]
    cases hfound : unit.get? declaration.key <;> simp [ofDeclaration, hfound]
  · simp [join, ofDeclaration]
  · simp [join, ofDeclaration]
  · simp [join, ofDeclaration]

/-- An implementation adds the same to every unit. -/
theorem addImpl_eq_join (unit : SourceUnit) (module : String) (implFor : List Node)
    (selfType : Node) (members : List Node) :
    unit.addImpl module implFor selfType members =
      unit.join (empty.addImpl module implFor selfType members) := by
  unfold addImpl
  split
  · split
    · ext1 <;> simp [join, empty]
    · rw [join_empty]
  · split
    · dsimp only
      split
      · ext1 <;> simp [join, empty]
      · split
        · ext1 <;> simp [join, empty]
        · rw [join_empty]
    · rw [join_empty]

/-- A step that adds to every unit what it makes of the empty one, which is at most one declaration;
only a second configuration is refused. -/
structure Adds (step : SourceUnit → Except Error SourceUnit) : Prop where
  eq_ok_iff : ∀ unit result, step unit = .ok result ↔
    ∃ added, step empty = .ok added ∧ (unit.config = none ∨ added.config = none) ∧
      result = unit.join added
  atMostOne : ∀ added, step empty = .ok added → added.declarations.length ≤ 1

theorem adds_of_join {step : SourceUnit → SourceUnit}
    (hjoin : ∀ unit, step unit = unit.join (step empty)) (hconfig : (step empty).config = none)
    (hlength : (step empty).declarations.length ≤ 1) : Adds fun unit => .ok (step unit) where
  eq_ok_iff unit result := by
    rw [hjoin unit]
    simp [hconfig, eq_comm]
  atMostOne added hadded := by
    cases hadded
    exact hlength

theorem adds_self : Adds fun unit => .ok unit :=
  adds_of_join (fun unit => (join_empty unit).symm) rfl (by simp [empty])

theorem adds_addImpl (module : String) (implFor : List Node) (selfType : Node)
    (members : List Node) : Adds fun unit => .ok (unit.addImpl module implFor selfType members) := by
  have hplain : (empty.addImpl module implFor selfType members).config = none ∧
      (empty.addImpl module implFor selfType members).declarations = [] := by
    unfold addImpl
    dsimp only
    repeat' split
    all_goals exact ⟨rfl, rfl⟩
  refine adds_of_join (fun unit => addImpl_eq_join unit _ _ _ _) hplain.1 ?_
  rw [hplain.2]
  exact Nat.zero_le 1

theorem adds_insert (declaration : Declaration) : Adds fun unit => .ok (unit.insert declaration) :=
  adds_of_join (fun unit => insert_eq_join unit declaration) rfl (Nat.le_refl 1)

theorem adds_addRead (read : Except Marker.ArgumentError Declaration) :
    Adds fun unit => unit.addRead read := by
  cases read with
  | error error => exact ⟨by simp [addRead], by simp [addRead]⟩
  | ok declaration => exact adds_insert declaration

/-- The configuration of a unit is set once. -/
theorem setConfig_eq_ok_iff {declaration : Declaration} {attributes : List Node} :
    unit.setConfig declaration attributes = .ok result ↔
      declaration.kind = .unitStruct ∧ unit.config = none ∧
        ∃ marker, Marker.Config.read attributes = .ok marker ∧
          result = { unit with config := some ⟨declaration.key, marker⟩ } := by
  unfold setConfig
  split
  · next hkind => simp [hkind]
  · next hkind =>
      rw [not_not] at hkind
      split
      · next hconfig => simp [Option.isSome_iff_ne_none.mp hconfig]
      · next hconfig =>
          cases hread : Marker.Config.read attributes with
          | error error => simp
          | ok marker => simp [hkind, Option.not_isSome_iff_eq_none.mp hconfig, eq_comm]

/-- A struct adds its declaration, and the configuration if it carries the marker of one. -/
theorem addStruct_eq_ok_iff {module name : String} {attributes rest : List Node} :
    unit.addStruct module name attributes rest = .ok result ↔ ∃ declaration,
      Declaration.ofStruct module name attributes rest = .ok declaration ∧
      ((Node.anyMarker "tablegen_config" attributes = true ∧ ∃ configured,
          unit.setConfig declaration attributes = .ok configured ∧
          result = configured.insert declaration) ∨
        (Node.anyMarker "tablegen_config" attributes = false ∧
          result = unit.insert declaration)) := by
  unfold addStruct
  rw [bind_eq_ok_iff]
  simp only [mapError_eq_ok_iff]
  refine exists_congr fun declaration => and_congr_right fun _ => ?_
  cases Node.anyMarker "tablegen_config" attributes with
  | true =>
      rw [if_pos rfl, bind_eq_ok_iff]
      simp only [pure_eq_ok_iff, true_and, Bool.true_eq_false, false_and, or_false]
  | false =>
      rw [if_neg Bool.false_ne_true]
      simp only [Bool.false_eq_true, false_and, true_and, false_or]
      exact pure_eq_ok_iff

theorem insert_configured (hconfig : unit.config = none) (declaration : Declaration)
    (marker : ConfigMarker) : { unit with config := some marker }.insert declaration =
      unit.join (ofDeclaration declaration (some marker)) := by
  rw [insert_eq_join]
  simp [join, get?, ofDeclaration, hconfig]

/-- A declaration that carries the configuration adds both. -/
theorem adds_configured (declaration : Declaration) (attributes : List Node) :
    Adds fun unit => do
      let configured ← unit.setConfig declaration attributes
      return configured.insert declaration := by
  have hstep : ∀ unit result : SourceUnit,
      (do
        let configured ← unit.setConfig declaration attributes
        return configured.insert declaration) = .ok result ↔
        declaration.kind = .unitStruct ∧ unit.config = none ∧
          ∃ marker, Marker.Config.read attributes = .ok marker ∧
            result = unit.join (ofDeclaration declaration (some ⟨declaration.key, marker⟩)) := by
    intro unit result
    constructor
    · intro hresult
      cases hset : unit.setConfig declaration attributes with
      | error error => simp [hset, bind, Except.bind] at hresult
      | ok configured =>
          obtain ⟨hkind, hconfig, marker, hread, rfl⟩ := setConfig_eq_ok_iff.mp hset
          rw [hset] at hresult
          cases hresult
          exact ⟨hkind, hconfig, marker, hread, insert_configured hconfig _ _⟩
    · rintro ⟨hkind, hconfig, marker, hread, rfl⟩
      rw [setConfig_eq_ok_iff.mpr ⟨hkind, hconfig, marker, hread, rfl⟩]
      exact congrArg Except.ok (insert_configured hconfig _ _)
  refine ⟨fun unit result => ⟨fun hresult => ?_, ?_⟩, fun added hadded => ?_⟩
  · obtain ⟨hkind, hconfig, marker, hread, rfl⟩ := (hstep unit result).mp hresult
    refine ⟨_, (hstep empty _).mpr ⟨hkind, rfl, marker, hread, rfl⟩, Or.inl hconfig, ?_⟩
    rw [empty_join]
  · rintro ⟨added, hadded, hconfig, rfl⟩
    obtain ⟨hkind, -, marker, hread, rfl⟩ := (hstep empty added).mp hadded
    rw [empty_join] at hconfig ⊢
    exact (hstep unit _).mpr ⟨hkind, by simpa [ofDeclaration] using hconfig, marker, hread, rfl⟩
  · obtain ⟨-, -, marker, -, rfl⟩ := (hstep empty added).mp hadded
    rw [empty_join]
    exact Nat.le_refl 1

theorem adds_addStruct (module name : String) (attributes rest : List Node) :
    Adds fun unit => unit.addStruct module name attributes rest := by
  unfold addStruct
  cases hread : (Declaration.ofStruct module name attributes rest).mapError Error.arguments with
  | error error => exact ⟨by simp [bind, Except.bind], by simp [bind, Except.bind]⟩
  | ok declaration =>
      by_cases hmarker : Node.anyMarker "tablegen_config" attributes
      · simp only [hmarker]
        exact adds_configured declaration attributes
      · simp only [hmarker]
        exact adds_insert declaration

theorem adds_addItem (placed : PlacedItem) : Adds fun unit => unit.addItem placed := by
  unfold addItem
  split
  · exact adds_addStruct _ _ _ _
  · exact adds_addRead _
  · exact adds_addRead _
  · exact adds_addRead _
  · exact adds_addRead _
  · exact adds_addRead _
  · exact adds_addRead _
  · split
    · exact adds_addImpl _ _ _ _
    · exact adds_self
  · exact adds_self

/-- What an item does to a unit: it adds what it makes of the empty unit, unless it is unreadable or
a second configuration. -/
theorem addItem_eq_ok_iff : unit.addItem placed = .ok result ↔
    ∃ added, placed.contents = .ok added ∧ (unit.config = none ∨ added.config = none) ∧
      result = unit.join added :=
  (adds_addItem placed).eq_ok_iff unit result

/-! ### The same contents in another order -/

/-- Units with the same contents, in any order. -/
structure Same (first second : SourceUnit) : Prop where
  declarations : first.declarations.Perm second.declarations
  constructors : first.constructors.Perm second.constructors
  sqlTypeImpls : first.sqlTypeImpls.Perm second.sqlTypeImpls
  config : first.config = second.config

theorem Same.refl (unit : SourceUnit) : unit.Same unit := ⟨.refl _, .refl _, .refl _, rfl⟩

theorem Same.symm (hsame : first.Same second) : second.Same first :=
  ⟨hsame.declarations.symm, hsame.constructors.symm, hsame.sqlTypeImpls.symm, hsame.config.symm⟩

theorem Same.trans (hsame : first.Same second) (hother : second.Same other) : first.Same other :=
  ⟨hsame.declarations.trans hother.declarations, hsame.constructors.trans hother.constructors,
    hsame.sqlTypeImpls.trans hother.sqlTypeImpls, hsame.config.trans hother.config⟩

theorem isNone_get?_iff {key : Key} :
    (unit.get? key).isNone = true ↔ key ∉ unit.declarations.map (·.key) := by
  rw [Option.isNone_iff_eq_none, get?, List.find?_eq_none]
  simp

theorem Same.join (hsame : first.Same second) (added : SourceUnit) :
    (first.join added).Same (second.join added) where
  declarations := by
    refine hsame.declarations.append (.of_eq (List.filter_congr fun declaration _ => ?_))
    rw [Bool.eq_iff_iff, isNone_get?_iff, isNone_get?_iff,
      (hsame.declarations.map _).mem_iff]
  constructors := hsame.constructors.append_right _
  sqlTypeImpls := hsame.sqlTypeImpls.append_right _
  config := congrArg (·.or added.config) hsame.config

/-- What has other keys takes no key away. -/
theorem filter_join (unit : SourceUnit)
    (hkeys : (added.declarations.map (·.key)).Disjoint (other.declarations.map (·.key))) :
    (other.declarations.filter fun declaration =>
      ((unit.join added).get? declaration.key).isNone) =
        other.declarations.filter fun declaration => (unit.get? declaration.key).isNone := by
  refine List.filter_congr fun declaration hmem => ?_
  rw [Bool.eq_iff_iff, isNone_get?_iff, isNone_get?_iff, not_iff_not, declarations_join, List.map_append,
    List.mem_append, or_iff_left]
  intro hadded
  obtain ⟨taken, htaken, hkey⟩ := List.mem_map.mp hadded
  refine hkeys (List.mem_map.mpr ⟨taken, (List.mem_filter.mp htaken).1, rfl⟩) ?_
  exact List.mem_map.mpr ⟨declaration, hmem, hkey.symm⟩

theorem append_perm_append {α : Type} (front middle last : List α) :
    (front ++ middle ++ last).Perm (front ++ last ++ middle) := by
  rw [List.append_assoc, List.append_assoc]
  exact List.perm_append_comm.append_left front

/-- Contents with different keys are added in either order. -/
theorem same_join_join
    (hkeys : (added.declarations.map (·.key)).Disjoint (other.declarations.map (·.key)))
    (hconfig : (unit.join added).config = none ∨ other.config = none) :
    ((unit.join added).join other).Same ((unit.join other).join added) where
  declarations := by
    have hadded : (other.declarations.map (·.key)).Disjoint (added.declarations.map (·.key)) :=
      fun key hother hadded => hkeys hadded hother
    simp only [declarations_join]
    rw [filter_join unit hkeys, filter_join unit hadded]
    exact append_perm_append _ _ _
  constructors := append_perm_append _ _ _
  sqlTypeImpls := append_perm_append _ _ _
  config := by
    change (unit.config.or added.config).or other.config =
      (unit.config.or other.config).or added.config
    rcases hconfig with hnone | hnone
    · obtain ⟨hunit, hadded⟩ := Option.or_eq_none_iff.mp hnone
      simp [hunit, hadded]
    · rw [hnone, Option.or_none, Option.or_none]

theorem keys_of_contents (hcontents : placed.contents = .ok added) :
    placed.keys = added.declarations.map (·.key) := by
  rw [PlacedItem.keys, hcontents]

/-- Adding an item keeps contents the same. -/
theorem Same.addItem (hsame : first.Same second) (hok : first.addItem placed = .ok result) :
    ∃ other, second.addItem placed = .ok other ∧ result.Same other := by
  obtain ⟨added, hadded, hconfig, rfl⟩ := addItem_eq_ok_iff.mp hok
  refine ⟨_, addItem_eq_ok_iff.mpr ⟨added, hadded, ?_, rfl⟩, hsame.join added⟩
  rwa [← hsame.config]

/-- Two items with different keys can be added in either order. -/
theorem exists_addItem_swap {next : SourceUnit} {second : PlacedItem}
    (hkeys : placed.keys.Disjoint second.keys) (hplaced : unit.addItem placed = .ok next)
    (hsecond : next.addItem second = .ok result) :
    ∃ before other, unit.addItem second = .ok before ∧ before.addItem placed = .ok other ∧
      result.Same other := by
  obtain ⟨added, hadded, hconfig, rfl⟩ := addItem_eq_ok_iff.mp hplaced
  obtain ⟨last, hlast, hlastConfig, rfl⟩ := addItem_eq_ok_iff.mp hsecond
  rw [keys_of_contents hadded, keys_of_contents hlast] at hkeys
  have hfirst : unit.config = none ∨ last.config = none :=
    hlastConfig.imp_left fun hnone => (Option.or_eq_none_iff.mp hnone).1
  have hthen : (unit.join last).config = none ∨ added.config = none := by
    rcases hlastConfig with hnone | hnone
    · exact Or.inr (Option.or_eq_none_iff.mp hnone).2
    · simpa [join, hnone] using hconfig
  exact ⟨_, _, addItem_eq_ok_iff.mpr ⟨last, hlast, hfirst, rfl⟩,
    addItem_eq_ok_iff.mpr ⟨added, hadded, hthen, rfl⟩, same_join_join hkeys hlastConfig⟩

theorem addItems_cons {rest : List PlacedItem} :
    unit.addItems (placed :: rest) = (result, none) ↔
      ∃ next, unit.addItem placed = .ok next ∧ next.addItems rest = (result, none) := by
  rw [addItems]
  cases unit.addItem placed with
  | ok next => simp
  | error error => simp

theorem Same.addItems {items : List PlacedItem} (hsame : first.Same second)
    (hok : first.addItems items = (result, none)) :
    ∃ other, second.addItems items = (other, none) ∧ result.Same other := by
  induction items generalizing first second with
  | nil =>
      cases hok
      exact ⟨second, rfl, hsame⟩
  | cons placed rest ih =>
      obtain ⟨next, hnext, hrest⟩ := addItems_cons.mp hok
      obtain ⟨after, hafter, hsameNext⟩ := hsame.addItem hnext
      obtain ⟨other, hother, hresult⟩ := ih hsameNext hrest
      exact ⟨other, addItems_cons.mpr ⟨after, hafter, hother⟩, hresult⟩

/-- Items whose declarations have different keys add the same in any order. -/
theorem exists_addItems_perm {items others : List PlacedItem} (hperm : items.Perm others)
    (hkeys : (items.flatMap (·.keys)).Nodup) (hsame : first.Same second)
    (hok : first.addItems items = (result, none)) :
    ∃ other, second.addItems others = (other, none) ∧ result.Same other := by
  induction hperm generalizing first second result with
  | nil =>
      cases hok
      exact ⟨second, rfl, hsame⟩
  | cons placed hperm ih =>
      obtain ⟨next, hnext, hrest⟩ := addItems_cons.mp hok
      obtain ⟨after, hafter, hsameNext⟩ := hsame.addItem hnext
      rw [List.flatMap_cons] at hkeys
      obtain ⟨other, hother, hresult⟩ := ih hkeys.of_append_right hsameNext hrest
      exact ⟨other, addItems_cons.mpr ⟨after, hafter, hother⟩, hresult⟩
  | swap placed item rest =>
      -- the swap is made on the side of the second unit, which is the same up to order
      obtain ⟨after, hafter, hsameAfter⟩ := hsame.addItems hok
      obtain ⟨next, hnext, hrest⟩ := addItems_cons.mp hafter
      obtain ⟨last, hlast, hrest⟩ := addItems_cons.mp hrest
      rw [List.flatMap_cons, List.flatMap_cons, ← List.append_assoc] at hkeys
      have hdisjoint := List.disjoint_of_nodup_append hkeys.of_append_left
      obtain ⟨before, swapped, hbefore, hswapped, hsameSwapped⟩ :=
        exists_addItem_swap hdisjoint hnext hlast
      obtain ⟨other, hother, hresult⟩ := hsameSwapped.addItems hrest
      refine ⟨other, addItems_cons.mpr ⟨before, hbefore, ?_⟩, hsameAfter.trans hresult⟩
      exact addItems_cons.mpr ⟨swapped, hswapped, hother⟩
  | trans hperm _ ihFirst ihSecond =>
      obtain ⟨middle, hmiddle, hfirst⟩ := ihFirst hkeys hsame hok
      have hkeysMiddle := (hperm.flatMap_right (·.keys)).nodup_iff.mp hkeys
      obtain ⟨other, hother, hsecond⟩ := ihSecond hkeysMiddle (.refl second) hmiddle
      exact ⟨other, hother, hfirst.trans hsecond⟩

/-! ### Distinct keys -/

/-- No two declarations of a unit have the same key. -/
def DistinctKeys (unit : SourceUnit) : Prop := (unit.declarations.map (·.key)).Nodup

theorem DistinctKeys.join (hunit : unit.DistinctKeys) (hadded : added.DistinctKeys) :
    (unit.join added).DistinctKeys := by
  unfold DistinctKeys at *
  rw [declarations_join, List.map_append]
  refine hunit.append (hadded.sublist (List.filter_sublist.map _)) fun key hkey hother => ?_
  obtain ⟨declaration, hmem, rfl⟩ := List.mem_map.mp hother
  exact isNone_get?_iff.mp (List.mem_filter.mp hmem).2 hkey

theorem DistinctKeys.addItem (hunit : unit.DistinctKeys) (hok : unit.addItem placed = .ok result) :
    result.DistinctKeys := by
  obtain ⟨added, hadded, -, rfl⟩ := addItem_eq_ok_iff.mp hok
  have hlength := (adds_addItem placed).atMostOne added hadded
  refine hunit.join ?_
  rcases hdeclarations : added.declarations with _ | ⟨only, _ | ⟨second, rest⟩⟩
  · simp [DistinctKeys, hdeclarations]
  · simp [DistinctKeys, hdeclarations]
  · simp [hdeclarations] at hlength

theorem DistinctKeys.addItems {items : List PlacedItem} (hunit : unit.DistinctKeys)
    (hok : unit.addItems items = (result, none)) : result.DistinctKeys := by
  induction items generalizing unit with
  | nil =>
      cases hok
      exact hunit
  | cons placed rest ih =>
      obtain ⟨next, hnext, hrest⟩ := addItems_cons.mp hok
      exact ih (hunit.addItem hnext) hrest

/-! ### Files -/

/-- Adds files as the contents of their modules, up to the first error. -/
def addFiles (unit : SourceUnit) : List (String × Node) → Except Error SourceUnit
  | [] => .ok unit
  | (module, file) :: rest =>
    match unit.addFile module file with
    | (unit, none) => unit.addFiles rest
    | (_, some error) => .error error

/-- The items of files, each in its module. -/
def placedItems (files : List (String × Node)) : List PlacedItem :=
  files.flatMap fun (module, file) => placeItems module (file.parts.drop 1)

/-- The keys of all declarations in files. -/
def declaredKeys (files : List (String × Node)) : List Key := (placedItems files).flatMap (·.keys)

theorem addItems_append {items rest : List PlacedItem} :
    unit.addItems (items ++ rest) = (result, none) ↔
      ∃ next, unit.addItems items = (next, none) ∧ next.addItems rest = (result, none) := by
  induction items generalizing unit with
  | nil => simp [addItems]
  | cons placed items ih =>
      rw [List.cons_append, addItems_cons]
      simp only [ih, addItems_cons]
      constructor
      · rintro ⟨next, hnext, middle, hmiddle, hrest⟩
        exact ⟨middle, ⟨next, hnext, hmiddle⟩, hrest⟩
      · rintro ⟨middle, ⟨next, hnext, hmiddle⟩, hrest⟩
        exact ⟨next, hnext, middle, hmiddle, hrest⟩

theorem addFiles_eq_ok_iff {files : List (String × Node)} :
    unit.addFiles files = .ok result ↔ unit.addItems (placedItems files) = (result, none) := by
  induction files generalizing unit with
  | nil => simp [addFiles, placedItems, addItems]
  | cons file rest ih =>
      obtain ⟨module, file⟩ := file
      have hitems : placedItems ((module, file) :: rest) =
          placeItems module (file.parts.drop 1) ++ placedItems rest := List.flatMap_cons
      rw [hitems, addItems_append, addFiles, addFile]
      cases hadded : unit.addItems (placeItems module (file.parts.drop 1)) with
      | mk next error =>
          cases error with
          | none => simp [ih]
          | some error => simp

/-- Files whose declarations have different keys make the same unit in any order, or none. -/
theorem exists_addFiles_perm {files others : List (String × Node)} (hperm : files.Perm others)
    (hkeys : (declaredKeys files).Nodup) (hok : empty.addFiles files = .ok result) :
    ∃ other, empty.addFiles others = .ok other ∧ result.Same other := by
  rw [addFiles_eq_ok_iff] at hok
  obtain ⟨other, hother, hsame⟩ :=
    exists_addItems_perm (hperm.flatMap_right _) hkeys (.refl empty) hok
  exact ⟨other, addFiles_eq_ok_iff.mpr hother, hsame⟩

theorem distinctKeys_of_addFiles {files : List (String × Node)}
    (hok : empty.addFiles files = .ok result) : result.DistinctKeys :=
  DistinctKeys.addItems (by simp [DistinctKeys, empty]) (addFiles_eq_ok_iff.mp hok)

end SourceUnit

end EntityTables
