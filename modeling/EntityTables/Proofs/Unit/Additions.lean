import EntityTables.Proofs.Unit.Growth

/-!
# Any sequence of files

Files are added to a unit one after another, also after one that was refused midway. Each of them
adds the declarations of its items up to the refused one, less those whose keys are taken. So after
any sequence of files every key has one declaration, which is the first that was offered under it,
and the index has its position. What is added later moves nothing.
-/

namespace EntityTables

open EntityTables.Syntax

/-- The declarations that an item offers to a unit; it offers at most one. -/
def PlacedItem.declarations (placed : PlacedItem) : List Declaration :=
  match placed.contents with
  | .ok contents => contents.declarations
  | .error _ => []

namespace SourceUnit

variable {unit next added : SourceUnit} {placed : PlacedItem} {files : List (String × Node)}
  {key : Key}

/-- The unit after files are added one after another, each as far as it is accepted. -/
def after (unit : SourceUnit) (files : List (String × Node)) : SourceUnit :=
  files.foldl (fun unit file => (unit.addFile file.1 file.2).1) unit

/-- What items offer to a unit, up to the first item that the unit refuses. A declaration is offered
whether its key is taken or not. -/
def offered (unit : SourceUnit) : List PlacedItem → List Declaration
  | [] => []
  | placed :: rest =>
    match unit.addItem placed with
    | .ok next => placed.declarations ++ next.offered rest
    | .error _ => []

/-- What files offer to a unit, one after another. -/
def offeredByFiles (unit : SourceUnit) : List (String × Node) → List Declaration
  | [] => []
  | file :: rest =>
    unit.offered (placeItems file.1 (file.2.parts.drop 1)) ++
      (unit.addFile file.1 file.2).1.offeredByFiles rest

theorem after_cons (unit : SourceUnit) (file : String × Node) (rest : List (String × Node)) :
    unit.after (file :: rest) = (unit.addFile file.1 file.2).1.after rest := rfl

/-! ### What every accepted item keeps -/

theorem addItems_induction {motive : SourceUnit → Prop} (hunit : motive unit)
    (hstep : ∀ {unit placed next}, motive unit → unit.addItem placed = .ok next → motive next)
    (items : List PlacedItem) : motive (unit.addItems items).1 := by
  induction items generalizing unit with
  | nil => exact hunit
  | cons placed rest ih =>
      rw [addItems]
      cases hplaced : unit.addItem placed with
      | ok next => exact ih (hstep hunit hplaced)
      | error error => exact hunit

/-- What every accepted item keeps is kept by any sequence of files. -/
theorem after_induction {motive : SourceUnit → Prop} (hunit : motive unit)
    (hstep : ∀ {unit placed next}, motive unit → unit.addItem placed = .ok next → motive next)
    (files : List (String × Node)) : motive (unit.after files) := by
  induction files generalizing unit with
  | nil => exact hunit
  | cons file rest ih => exact ih (addItems_induction hunit hstep _)

theorem DistinctKeys.after (hunit : unit.DistinctKeys) (files : List (String × Node)) :
    (unit.after files).DistinctKeys :=
  after_induction hunit .addItem files

theorem declarations_after (unit : SourceUnit) (files : List (String × Node)) :
    unit.declarations <+: (unit.after files).declarations :=
  after_induction (motive := fun later => unit.declarations <+: later.declarations)
    List.prefix_rfl (fun hgrown hok => hgrown.trans (declarations_addItem hok)) files

/-! ### What is found under a key -/

/-- Under a key that is taken the declaration stays; under any other there is what is added. -/
theorem get?_join (unit added : SourceUnit) (key : Key) :
    (unit.join added).get? key = (unit.get? key).or (added.get? key) := by
  rw [get?, declarations_join, List.find?_append, ← get?]
  cases htaken : unit.get? key with
  | some declaration => rfl
  | none =>
      rw [Option.none_or, Option.none_or, List.find?_filter, get?]
      refine List.find?_congr fun declaration _ => ?_
      by_cases hkey : declaration.key = key
      · simp [hkey, htaken]
      · simp [hkey]

theorem get?_addItem (hok : unit.addItem placed = .ok next) (key : Key) :
    next.get? key = (unit.get? key).or (placed.declarations.find? (·.key = key)) := by
  obtain ⟨added, hadded, -, rfl⟩ := addItem_eq_ok_iff.mp hok
  rw [get?_join, PlacedItem.declarations, hadded]
  rfl

theorem get?_addItems (unit : SourceUnit) (items : List PlacedItem) (key : Key) :
    (unit.addItems items).1.get? key =
      (unit.get? key).or ((unit.offered items).find? (·.key = key)) := by
  induction items generalizing unit with
  | nil => simp [addItems, offered]
  | cons placed rest ih =>
      rw [addItems, offered]
      cases hplaced : unit.addItem placed with
      | ok next =>
          simp only [ih, get?_addItem hplaced, List.find?_append, Option.or_assoc]
      | error error => simp

/-- Under every key there is what a unit had there, or else the first that was offered. -/
theorem get?_after (unit : SourceUnit) (files : List (String × Node)) (key : Key) :
    (unit.after files).get? key =
      (unit.get? key).or ((unit.offeredByFiles files).find? (·.key = key)) := by
  induction files generalizing unit with
  | nil => simp [after, offeredByFiles]
  | cons file rest ih =>
      rw [after_cons, ih, addFile, get?_addItems, offeredByFiles, addFile, List.find?_append,
        Option.or_assoc]

/-! ### The index -/

/-- With one declaration of a key, the index has the key of each declaration with its position. -/
theorem lookup_index_eq_some_iff (hdistinct : unit.DistinctKeys) {position : Nat} :
    unit.index.lookup key = some position ↔
      ∃ declaration, unit.declarations[position]? = some declaration ∧ declaration.key = key := by
  rw [lookup_index, List.findIdx?_eq_some_iff_getElem]
  constructor
  · rintro ⟨hlength, hkey, -⟩
    exact ⟨_, List.getElem?_eq_getElem hlength, of_decide_eq_true hkey⟩
  · rintro ⟨declaration, hdeclaration, hkey⟩
    obtain ⟨hlength, rfl⟩ := List.getElem?_eq_some_iff.mp hdeclaration
    refine ⟨hlength, decide_eq_true hkey, fun earlier hearlier hsame => ?_⟩
    have hkeys : (unit.declarations.map (·.key))[earlier]? =
        (unit.declarations.map (·.key))[position]? := by
      rw [List.getElem?_map, List.getElem?_map, hdeclaration,
        List.getElem?_eq_getElem (hearlier.trans hlength), Option.map_some, Option.map_some, hkey,
        of_decide_eq_true hsame]
    have hbound : earlier < (unit.declarations.map (·.key)).length := by
      rw [List.length_map]
      exact hearlier.trans hlength
    exact hearlier.ne ((List.getElem?_inj hbound hdistinct).mp hkeys)

/-- **The index of a unit.** After any sequence of files, with refused ones and with repeated keys,
no two declarations have a key in common, the index maps the key of each to its position and has no
other keys, and it finds the first declaration that was offered under a key. Files that are added
later leave every declaration as it is and where it is. -/
theorem index_after (files : List (String × Node)) :
    (empty.after files).DistinctKeys ∧
    (∀ key position, (empty.after files).index.lookup key = some position ↔
      ∃ declaration, (empty.after files).declarations[position]? = some declaration ∧
        declaration.key = key) ∧
    (∀ key, (empty.after files).indexed? key =
      (empty.offeredByFiles files).find? (·.key = key)) ∧
    ∀ later, (empty.after files).declarations <+: ((empty.after files).after later).declarations := by
  have hempty : empty.DistinctKeys := List.nodup_nil
  refine ⟨hempty.after files, fun key position => ?_, fun key => ?_, declarations_after _⟩
  · exact lookup_index_eq_some_iff (hempty.after files)
  · rw [indexed?_eq_get?, get?_after]
    rfl

/-- The first file is refused at its second item. What stands behind that was never offered. -/
example :
    let refused := (empty.addText "crate"
      "enum Level {} #[tablegen_config] struct Config { id: i32 } enum Grade {}").1
    let unit := (refused.addText "crate" "struct Level; struct Grade;").1
    unit.index = [(⟨"crate::Level"⟩, 0), (⟨"crate::Grade"⟩, 1)] ∧
      unit.declarations.map (·.kind) = [.enum, .unitStruct] := by
  decide +kernel

end SourceUnit

end EntityTables
