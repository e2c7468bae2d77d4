import EntityTables.Proofs.Syntax.ItemForm
import EntityTables.Proofs.Unit.Names

/-!
# The configuration of a unit

A unit takes its configuration from the only struct among its items that carries the marker, however
deep its module is nested. A marked struct with fields, and a second marked struct in any of the
files, are refused. The marker is looked for on structs alone.
-/

namespace EntityTables

open EntityTables.Syntax

/-- Whether an item is a struct that carries the marker of the configuration. -/
def carriesConfig (item : Node) : Bool :=
  item.is .structItem && Node.anyMarker "tablegen_config" item.outerAttributes

/-- Whether an item is a struct without fields: nothing but its predicates and a semicolon follow
its parameters. -/
def isUnitStruct : Node → Bool
  | .phrase .structItem [_, _, _, _, _, _, closing] => closing.isPunct ";"
  | _ => false

/-- A configuration that is the marker of a struct, under the key of the struct. -/
def ConfigMarker.IsOf (config : ConfigMarker) (placed : PlacedItem) : Prop :=
  ∃ attributes visibility keyword name generics body,
    placed.item = .phrase .structItem (.phrase .attributes attributes :: visibility :: keyword ::
      .leaf (.ident name) :: generics :: body) ∧
    config.key = .within placed.module name ∧ Marker.Config.read attributes = .ok config.marker

namespace SourceUnit

variable {unit later : SourceUnit} {placed : PlacedItem} {files : List (String × Node)}

/-- What one item does to the configuration of a unit. -/
inductive ConfigStep (unit : SourceUnit) (placed : PlacedItem) (later : SourceUnit) : Prop
  | unmarked (hplain : carriesConfig placed.item = false) (hsame : later.config = unit.config)
  | marked (hmarked : carriesConfig placed.item = true) (hunit : isUnitStruct placed.item = true)
      (hnone : unit.config = none) {config : ConfigMarker} (hconfig : config.IsOf placed)
      (hset : later.config = some config)

theorem config_addRead {read : Except Marker.ArgumentError Declaration}
    (hok : unit.addRead read = .ok later) : later.config = unit.config := by
  cases read with
  | error error => cases hok
  | ok declaration =>
      cases hok
      exact config_insert unit declaration

theorem config_addImpl (unit : SourceUnit) (module : String) (implFor : List Node)
    (selfType : Node) (members : List Node) :
    (unit.addImpl module implFor selfType members).config = unit.config := by
  unfold addImpl
  dsimp only
  repeat' split
  all_goals rfl

/-- Only a struct without fields is declared as one. -/
theorem exists_closing_of_unitStruct {module name : String} {attributes body : List Node}
    {declaration : Declaration} (hbody : IsStructBody body)
    (hread : Declaration.ofStruct module name attributes body = .ok declaration)
    (hkind : declaration.kind = .unitStruct) : ∃ predicates, body = [predicates, .punct ";"] := by
  obtain ⟨shape, hshape, hread⟩ := Declaration.ofStruct_eq_ok_iff.mp hread
  obtain ⟨table, -, rfl⟩ := Declaration.ofShape_eq_ok_iff.mp hread
  cases hbody with
  | unit predicates => exact ⟨_, rfl⟩
  | named predicates hfields =>
      obtain ⟨properties, -, rfl⟩ := Declaration.structShape_named_eq_ok_iff.mp hshape
      cases hkind
  | unnamed predicates hfields =>
      rw [Declaration.structShape_unnamed] at hshape
      cases hshape
      cases hkind

theorem configStep_addStruct {attributes body : List Node} {visibility keyword generics : Node}
    {name : String} (hbody : IsStructBody body)
    (hitem : placed.item = .phrase .structItem (.phrase .attributes attributes :: visibility ::
      keyword :: .leaf (.ident name) :: generics :: body))
    (hok : unit.addStruct placed.module name attributes body = .ok later) :
    ConfigStep unit placed later := by
  have hcarries : carriesConfig placed.item = Node.anyMarker "tablegen_config" attributes := by
    rw [hitem]
    rfl
  obtain ⟨declaration, hread, ⟨hmarker, configured, hset, rfl⟩ | ⟨hmarker, rfl⟩⟩ :=
    addStruct_eq_ok_iff.mp hok
  · obtain ⟨hkind, hnone, marker, hmarkerRead, rfl⟩ := setConfig_eq_ok_iff.mp hset
    obtain ⟨predicates, rfl⟩ := exists_closing_of_unitStruct hbody hread hkind
    obtain ⟨shape, -, hshape⟩ := Declaration.ofStruct_eq_ok_iff.mp hread
    obtain ⟨table, -, rfl⟩ := Declaration.ofShape_eq_ok_iff.mp hshape
    have hconfig : ConfigMarker.IsOf ⟨.within placed.module name, marker⟩ placed :=
      ⟨attributes, visibility, keyword, name, generics, _, hitem, rfl, hmarkerRead⟩
    refine .marked (hcarries.trans hmarker) ?_ hnone hconfig (config_insert _ _)
    rw [hitem]
    rfl
  · exact .unmarked (hcarries.trans hmarker) (config_insert unit declaration)

/-- An item that is no struct says nothing about the configuration. -/
theorem config_addItem (hstruct : ∀ attributes visibility keyword name generics body,
    placed.item ≠ .phrase .structItem (.phrase .attributes attributes :: visibility :: keyword ::
      .leaf (.ident name) :: generics :: body))
    (hok : unit.addItem placed = .ok later) : later.config = unit.config := by
  unfold addItem at hok
  split at hok
  · next heq => exact absurd heq (hstruct _ _ _ _ _ _)
  case h_8 =>
    split at hok
    · cases hok
      exact config_addImpl ..
    · cases hok
      rfl
  case h_9 =>
    cases hok
    rfl
  all_goals exact config_addRead hok

/-- What an item does to the configuration. -/
theorem configStep_addItem (hitem : IsItem placed.item) (hok : unit.addItem placed = .ok later) :
    ConfigStep unit placed later := by
  by_cases hkind : placed.item.is .structItem = true
  · generalize heq : placed.item = item at hitem hkind
    cases hitem with
    | structItem attributes visibility keyword generics hname hbody =>
        refine configStep_addStruct hbody heq ?_
        rw [← hok, addItem, heq]
    | other parts hother => exact absurd (Option.some.inj (eq_of_beq hkind)) hother.1
    | _ => cases hkind
  · have hplain : carriesConfig placed.item = false := by
      rw [carriesConfig, Bool.eq_false_iff.mpr hkind, Bool.false_and]
    refine .unmarked hplain (config_addItem ?_ hok)
    intro _ _ _ _ _ _ heq
    exact hkind (by rw [heq]; rfl)

/-! ### Files that are added -/

/-- The structs in some files that carry the marker of the configuration. -/
def markedStructs (files : List (String × Node)) : List PlacedItem :=
  (placedItems files).filter (carriesConfig ·.item)

/-- What items that are added do to the configuration: nothing, or one of them sets it. -/
theorem config_addItems {items : List PlacedItem} (hitems : ∀ placed ∈ items, IsItem placed.item)
    (hok : unit.addItems items = (later, none)) :
    (items.filter (carriesConfig ·.item) = [] ∧ later.config = unit.config) ∨
      ∃ placed config, items.filter (carriesConfig ·.item) = [placed] ∧
        isUnitStruct placed.item = true ∧ unit.config = none ∧ config.IsOf placed ∧
        later.config = some config := by
  induction items generalizing unit with
  | nil =>
      cases hok
      exact Or.inl ⟨rfl, rfl⟩
  | cons placed rest ih =>
      obtain ⟨next, hnext, hrest⟩ := addItems_cons.mp hok
      have hlater := ih (fun other hmem => hitems other (List.mem_cons_of_mem _ hmem)) hrest
      cases configStep_addItem (hitems placed List.mem_cons_self) hnext with
      | unmarked hplain hsame =>
          rw [List.filter_cons_of_neg (by simp [hplain]), ← hsame]
          exact hlater
      | marked hmarked hunit hnone hconfig hset =>
          have hcons : (placed :: rest).filter (carriesConfig ·.item) =
              placed :: rest.filter (carriesConfig ·.item) := by
            rw [List.filter_cons, if_pos hmarked]
          rw [hcons]
          rcases hlater with ⟨hnil, hkept⟩ | ⟨_, _, -, -, hfree, -⟩
          · rw [hnil]
            exact Or.inr ⟨placed, _, rfl, hunit, hnone, hconfig, hkept.trans hset⟩
          · rw [hset] at hfree
            cases hfree

theorem isItem_of_mem_placedItems (hfiles : ∀ file ∈ files, IsFile file.2) :
    ∀ placed ∈ placedItems files, IsItem placed.item := by
  intro placed hmem
  obtain ⟨file, hfile, hplaced⟩ := List.mem_flatMap.mp hmem
  exact isItem_of_mem_placeItems (hfiles file hfile).items hplaced

/-- What files that are added do to the configuration. -/
theorem config_addFiles (hfiles : ∀ file ∈ files, IsFile file.2)
    (hok : unit.addFiles files = .ok later) :
    (markedStructs files = [] ∧ later.config = unit.config) ∨
      ∃ placed config, markedStructs files = [placed] ∧ isUnitStruct placed.item = true ∧
        unit.config = none ∧ config.IsOf placed ∧ later.config = some config :=
  config_addItems (isItem_of_mem_placedItems hfiles) (addFiles_eq_ok_iff.mp hok)

/-- **The configuration of a unit.** A struct with fields that carries the marker makes adding its
file fail, at any depth of modules, and so does a struct that carries the marker in a unit that has
a configuration, from an earlier file or from the same one. If all files are added, the
configuration is the marker of the only struct that carries one, or the one the unit had. -/
theorem addFiles_configured (hfiles : ∀ file ∈ files, IsFile file.2) :
    ((∃ placed ∈ markedStructs files, isUnitStruct placed.item = false) →
      ∃ error, unit.addFiles files = .error error) ∧
    (1 < unit.config.toList.length + (markedStructs files).length →
      ∃ error, unit.addFiles files = .error error) ∧
    ∀ later, unit.addFiles files = .ok later →
      (markedStructs files = [] ∧ later.config = unit.config) ∨
        ∃ placed config, markedStructs files = [placed] ∧ unit.config = none ∧
          config.IsOf placed ∧ later.config = some config := by
  cases hadded : unit.addFiles files with
  | error error => exact ⟨fun _ => ⟨error, rfl⟩, fun _ => ⟨error, rfl⟩, nofun⟩
  | ok added =>
      have hconfig := config_addFiles hfiles hadded
      refine ⟨?_, ?_, ?_⟩
      · rintro ⟨other, hmem, hother⟩
        rcases hconfig with ⟨hnil, -⟩ | ⟨placed, _, honly, hunit, -⟩
        · rw [hnil] at hmem
          cases hmem
        · rw [honly, List.mem_singleton] at hmem
          rw [hmem, hunit] at hother
          cases hother
      · intro hseveral
        rcases hconfig with ⟨hnil, -⟩ | ⟨placed, _, honly, -, hnone, -⟩
        · rw [hnil] at hseveral
          cases hunit : unit.config <;> simp [hunit] at hseveral
        · simp [honly, hnone] at hseveral
      · rintro later ⟨⟩
        rcases hconfig with hplain | ⟨placed, config, honly, -, hnone, hof, hset⟩
        · exact Or.inl hplain
        · exact Or.inr ⟨placed, config, honly, hnone, hof, hset⟩

section Instances

/-- A marked struct in an inline module. -/
def settingsText : String :=
  "mod settings \x7b #[tablegen_config(default_schema = \"hr\")] struct Config; \x7d struct Plain;"

/-- A file without a marked struct. -/
def plainText : String := "mod inner { struct Employee { id: i32 } }"

/-- The keys of the configurations that two files set. -/
def configKey? (first second : String) : Option (Option Key) := do
  let first ← parseFile? first
  let second ← parseFile? second
  let later ← (empty.addFiles [("crate", first), ("crate::model", second)]).toOption
  return later.config.map (·.key)

theorem exists_files_of_configKey? {first second : String} {key : Key}
    (hkey : configKey? first second = some (some key)) : ∃ file other later config,
      parseFile? first = some file ∧ parseFile? second = some other ∧
        empty.addFiles [("crate", file), ("crate::model", other)] = .ok later ∧
        later.config = some config ∧ config.key = key := by
  obtain ⟨file, hfile, hkey⟩ := Option.bind_eq_some_iff.mp hkey
  obtain ⟨other, hother, hkey⟩ := Option.bind_eq_some_iff.mp hkey
  obtain ⟨later, hlater, hkey⟩ := Option.bind_eq_some_iff.mp hkey
  obtain ⟨config, hset, hown⟩ := Option.map_eq_some_iff.mp (Option.some.inj hkey)
  refine ⟨file, other, later, config, hfile, hother, ?_, hset, hown⟩
  cases hadded : empty.addFiles [("crate", file), ("crate::model", other)] with
  | error error =>
      rw [hadded] at hlater
      cases hlater
  | ok added =>
      rw [hadded] at hlater
      exact congrArg Except.ok (Option.some.inj hlater)

/-- The marker of a struct in an inline module is the configuration of the unit. -/
theorem addFiles_configured_settings : ∃ file other later placed config,
    parseFile? settingsText = some file ∧ parseFile? plainText = some other ∧
      empty.addFiles [("crate", file), ("crate::model", other)] = .ok later ∧
      markedStructs [("crate", file), ("crate::model", other)] = [placed] ∧
      config.IsOf placed ∧ later.config = some config ∧
      config.key = ⟨"crate::settings::Config"⟩ := by
  have hkey : configKey? settingsText plainText = some (some ⟨"crate::settings::Config"⟩) := by
    decide +kernel
  obtain ⟨file, other, later, config, hfile, hother, hok, hset, hown⟩ :=
    exists_files_of_configKey? hkey
  have hfiles : ∀ named ∈ [("crate", file), ("crate::model", other)], IsFile named.2 := by
    intro named hmem
    simp only [List.mem_cons, List.not_mem_nil, or_false] at hmem
    rcases hmem with rfl | rfl
    · exact isFile_of_parseFile? hfile
    · exact isFile_of_parseFile? hother
  rcases (addFiles_configured hfiles).2.2 later hok with
    ⟨-, hkept⟩ | ⟨placed, own, honly, -, hof, heq⟩
  · rw [hkept] at hset
    cases hset
  · rw [heq] at hset
    cases hset
    exact ⟨file, other, later, placed, config, hfile, hother, hok, honly, hof, heq, hown⟩

/-- A marker on a trait is not looked at: its file is added, and nothing is configured. -/
theorem addText_marked_trait : ∃ later,
    empty.addText "crate::model" "#[tablegen_config] trait C {}" = (later, none) ∧
      later.config = none ∧ later.declarations.map (·.kind) = [.trait] := by
  have hadded : (fun result : SourceUnit × Option Error => (result.2.isNone,
      result.1.config.isNone, result.1.declarations.map (·.kind)))
        (empty.addText "crate::model" "#[tablegen_config] trait C {}") =
          (true, true, [.trait]) := by
    decide +kernel
  generalize empty.addText "crate::model" "#[tablegen_config] trait C {}" = result at hadded
  obtain ⟨later, error⟩ := result
  simp only [Prod.mk.injEq, Option.isNone_iff_eq_none] at hadded
  obtain ⟨rfl, hconfig, hkinds⟩ := hadded
  exact ⟨later, rfl, hconfig, hkinds⟩

end Instances

end SourceUnit

end EntityTables
