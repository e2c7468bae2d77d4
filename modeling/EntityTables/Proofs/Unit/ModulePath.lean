import EntityTables.Proofs.Text.QualifiedName
import EntityTables.Unit.ModulePath

/-!
# Which module a file is

A file below a root is the module of its directories and its name. A file `mod` stands for its
directory, and so do `lib` and `main` in the root itself. So two files are the same module only as
the two ways to write it, beside its directory and in it, or as the files that stand for the root.
-/

namespace EntityTables

open EntityTables.Text

/-! ### Cutting at a separator -/

section Cutting

variable {sep : Char}

theorem splitAtChar_ne_nil (sep : Char) (chars : List Char) : splitAtChar sep chars ≠ [] := by
  cases chars with
  | nil => exact List.cons_ne_nil _ _
  | cons c rest =>
      rw [splitAtChar]
      split
      · exact List.cons_ne_nil _ _
      · split <;> exact List.cons_ne_nil _ _

theorem splitAtChar_of_not_mem {part : List Char} (hpart : sep ∉ part) :
    splitAtChar sep part = [part] := by
  induction part with
  | nil => rfl
  | cons c rest ih =>
      rw [List.mem_cons, not_or] at hpart
      rw [splitAtChar, if_neg (Ne.symm hpart.1), ih hpart.2]

theorem splitAtChar_append (front rest : List Char) :
    splitAtChar sep (front ++ sep :: rest) = splitAtChar sep front ++ splitAtChar sep rest := by
  induction front with
  | nil => exact if_pos rfl
  | cons c front ih =>
      rw [List.cons_append, splitAtChar, splitAtChar, ih]
      split
      · rfl
      · cases hparts : splitAtChar sep front with
        | nil => exact absurd hparts (splitAtChar_ne_nil sep front)
        | cons part parts => rfl

end Cutting

/-! ### Parts of paths -/

/-- What stands at the front of the parts of a path: the root, or a dot. -/
def frontParts (chars : List Char) : List PathPart :=
  if chars.head? == some '/' then [.root]
  else if (splitAtChar '/' chars).head? == some ['.'] then [.current]
  else []

theorem pathParts_eq (path : String) : pathParts path =
    frontParts path.toList ++ (splitAtChar '/' path.toList).filterMap PathPart.ofText? := by
  unfold pathParts frontParts
  dsimp only
  split
  · rfl
  · split <;> rfl

/-- What follows a separator has no part in the front of a path. -/
theorem frontParts_append (front rest : List Char) :
    frontParts (front ++ '/' :: rest) = frontParts (front ++ ['/']) := by
  have hhead : (splitAtChar '/' (front ++ '/' :: rest)).head? = (splitAtChar '/' front).head? := by
    rw [splitAtChar_append, List.head?_append_of_ne_nil _ (splitAtChar_ne_nil _ _)]
  have hshort : (splitAtChar '/' (front ++ ['/'])).head? = (splitAtChar '/' front).head? := by
    rw [splitAtChar_append, List.head?_append_of_ne_nil _ (splitAtChar_ne_nil _ _)]
  unfold frontParts
  rw [hhead, hshort]
  cases front <;> rfl

theorem frontParts_separator {front : List Char} (hfront : front ≠ []) :
    frontParts (front ++ ['/']) = frontParts front := by
  unfold frontParts
  rw [splitAtChar_append, List.head?_append_of_ne_nil _ (splitAtChar_ne_nil _ _),
    List.head?_append_of_ne_nil _ hfront]

/-- The parts of what follows a separator stand behind those of what is before it. -/
theorem pathParts_append (root path : String) : pathParts (root ++ "/" ++ path) =
    pathParts (root ++ "/") ++ (splitAtChar '/' path.toList).filterMap PathPart.ofText? := by
  have hpath : (root ++ "/" ++ path).toList = root.toList ++ '/' :: path.toList := by simp
  have hroot : (root ++ "/").toList = root.toList ++ ['/'] := by simp
  rw [pathParts_eq, pathParts_eq, hpath, hroot, frontParts_append, splitAtChar_append,
    splitAtChar_append, List.filterMap_append, List.filterMap_append, List.append_assoc,
    List.append_assoc]
  rfl

theorem pathParts_separator {root : String} (hroot : root ≠ "") :
    pathParts (root ++ "/") = pathParts root := by
  have hchars : root.toList ≠ [] := by simpa using hroot
  have htoList : (root ++ "/").toList = root.toList ++ ['/'] := by simp
  rw [pathParts_eq, pathParts_eq, htoList, frontParts_separator hchars, splitAtChar_append,
    List.filterMap_append]
  exact congrArg _ (List.append_nil _)

theorem afterFront?_append {α : Type} [DecidableEq α] (front rest : List α) :
    afterFront? front (front ++ rest) = some rest := by
  induction front with
  | nil => rfl
  | cons a front ih => rw [List.cons_append, afterFront?, if_pos rfl, ih]

/-- A path from a directory; a separator at the end of the directory is not repeated. -/
def pathBelow (root path : String) : String :=
  if root = "" ∨ root.toList.getLast? = some '/' then root ++ path else root ++ "/" ++ path

/-- The parts of a path below a root stand behind those of the root. -/
theorem pathParts_pathBelow (root : String) {path : String} (hpath : frontParts path.toList = []) :
    pathParts (pathBelow root path) =
      pathParts root ++ (splitAtChar '/' path.toList).filterMap PathPart.ofText? := by
  unfold pathBelow
  by_cases hempty : root = ""
  · rw [if_pos (Or.inl hempty), hempty, String.empty_append, pathParts_eq, hpath]
    rfl
  · by_cases hlast : root.toList.getLast? = some '/'
    · obtain ⟨front, hfront⟩ := List.getLast?_eq_some_iff.mp hlast
      have hroot : root = String.ofList front ++ "/" := by
        rw [← String.toList_inj]
        simp [hfront]
      rw [if_pos (Or.inr hlast), hroot, pathParts_append]
    · rw [if_neg (not_or.mpr ⟨hempty, hlast⟩), pathParts_append, pathParts_separator hempty]

/-! ### Source files -/

/-- A part of a path that is a name of its own: not empty, without separators, dots and colons. -/
def IsPlainPart (part : String) : Prop :=
  part ≠ "" ∧ ∀ c ∈ part.toList, c ≠ '/' ∧ c ≠ '.' ∧ c ≠ ':'

/-- A source file below some root: the directories that lead to it and its name without the
extension. -/
@[ext]
structure SourceFile where
  directories : List String
  name : String
  plain : ∀ part ∈ directories ++ [name], IsPlainPart part

namespace SourceFile

/-- The parts of the path of a file. -/
def parts (file : SourceFile) : List String := file.directories ++ [file.name ++ ".rs"]

def path (file : SourceFile) : String := "/".intercalate file.parts

/-- The path of a file below a root. -/
def below (file : SourceFile) (root : String) : String := pathBelow root file.path

/-- A file stands for its directory: every `mod`, and in the root also `lib` and `main`. -/
def StandsForDirectory (file : SourceFile) : Prop :=
  file.name = "mod" ∨ (file.directories = [] ∧ (file.name = "lib" ∨ file.name = "main"))

instance (file : SourceFile) : Decidable file.StandsForDirectory :=
  inferInstanceAs (Decidable (_ ∨ _))

/-- The names of the module of a file, below the root of the crate. -/
def names (file : SourceFile) : List String :=
  if file.StandsForDirectory then file.directories else file.directories ++ [file.name]

/-- A file is the `mod` of the directory that has the name of another file beside it. -/
def IsModOf (file other : SourceFile) : Prop :=
  file.name = "mod" ∧ file.directories = other.directories ++ [other.name] ∧
    ¬ other.StandsForDirectory

/-- A file in the root that stands for it. -/
def IsRoot (file : SourceFile) : Prop := file.directories = [] ∧ file.StandsForDirectory

variable {file other : SourceFile}

theorem plain_of_mem_directories {part : String} (hmem : part ∈ file.directories) :
    IsPlainPart part :=
  file.plain part (List.mem_append_left _ hmem)

theorem plain_name (file : SourceFile) : IsPlainPart file.name :=
  file.plain file.name (List.mem_append_right _ (List.mem_singleton_self _))

theorem withoutExtension_append {name : String} (hname : IsPlainPart name) :
    withoutExtension (name ++ ".rs") = name := by
  have hplain : ∀ c ∈ name.toList.reverse, c ≠ '.' := fun c hmem =>
    (hname.2 c (List.mem_reverse.mp hmem)).2.1
  have hreversed : (name ++ ".rs").toList.reverse = 's' :: 'r' :: '.' :: name.toList.reverse := by
    simp
  have hdrop : (name ++ ".rs").toList.reverse.dropWhile (· != '.') = '.' :: name.toList.reverse := by
    rw [hreversed]
    rfl
  unfold withoutExtension
  dsimp only
  rw [hdrop]
  cases hstem : name.toList.reverse with
  | nil => exact absurd (by simpa using hstem) hname.1
  | cons last rest =>
      have hlast := hplain last (hstem ▸ List.mem_cons_self)
      split
      · next heq => cases heq
      · next heq => cases heq
      · next heq =>
          cases heq
          exact absurd rfl hlast
      · next heq =>
          cases heq
          rw [← hstem, List.reverse_reverse, String.ofList_toList]

theorem ofText?_toList {part : String} (hempty : part ≠ "") (hdot : part ≠ ".")
    (hdots : part ≠ "..") : PathPart.ofText? part.toList = some (.name part) := by
  have hchars : ∀ other, part ≠ other → part.toList ≠ other.toList := fun other hne heq =>
    hne (String.toList_inj.mp heq)
  have hnil : part.toList ≠ [] := hchars "" hempty
  have hone : part.toList ≠ ['.'] := hchars "." hdot
  have htwo : part.toList ≠ ['.', '.'] := hchars ".." hdots
  simp [PathPart.ofText?, hnil, hone, htwo]

theorem splitAtChar_intercalate {parts : List String} (hne : parts ≠ [])
    (hparts : ∀ part ∈ parts, '/' ∉ part.toList) :
    splitAtChar '/' ("/".intercalate parts).toList = parts.map String.toList := by
  induction parts with
  | nil => exact absurd rfl hne
  | cons part rest ih =>
      have hpart := splitAtChar_of_not_mem (hparts part List.mem_cons_self)
      cases rest with
      | nil => rw [String.intercalate_singleton, hpart, List.map_singleton]
      | cons second others =>
          have htoList : ("/".intercalate (part :: second :: others)).toList =
              part.toList ++ '/' :: ("/".intercalate (second :: others)).toList := by
            simp [String.intercalate_cons_cons]
          rw [htoList, splitAtChar_append, hpart, ih (List.cons_ne_nil _ _) fun other hmem =>
            hparts other (List.mem_cons_of_mem _ hmem)]
          rfl

theorem frontParts_eq_nil {chars : List Char} {first : List Char} {rest : List (List Char)}
    (hcut : splitAtChar '/' chars = first :: rest) (hempty : first ≠ []) (hdot : first ≠ ['.']) :
    frontParts chars = [] := by
  have hhead : chars.head? ≠ some '/' := by
    intro hhead
    obtain ⟨tail, rfl⟩ := List.head?_eq_some_iff.mp hhead
    exact hempty (List.cons.inj hcut).1.symm
  simp [frontParts, hhead, hcut, hdot]

/-! ### The parts of source files -/

/-- Directories and files are names that no step in a path is written as. -/
theorem ne_of_mem_parts {part : String} (hmem : part ∈ file.parts) :
    part ≠ "" ∧ part ≠ "." ∧ part ≠ ".." ∧ '/' ∉ part.toList := by
  rcases List.mem_append.mp hmem with hmem | hmem
  · obtain ⟨hempty, hplain⟩ := file.plain_of_mem_directories hmem
    refine ⟨hempty, ?_, ?_, fun hslash => (hplain '/' hslash).1 rfl⟩
    · rintro rfl
      exact (hplain '.' (by simp)).2.1 rfl
    · rintro rfl
      exact (hplain '.' (by simp)).2.1 rfl
  · obtain rfl := List.mem_singleton.mp hmem
    have hne : ∀ short : String, short.length < 3 → file.name ++ ".rs" ≠ short := by
      rintro short hshort rfl
      rw [String.length_append] at hshort
      exact absurd hshort (Nat.not_lt.mpr (Nat.le_add_left 3 _))
    refine ⟨hne "" (by decide), hne "." (by decide), hne ".." (by decide), ?_⟩
    simp only [String.toList_append, List.mem_append, not_or]
    exact ⟨fun hslash => (file.plain_name.2 '/' hslash).1 rfl, by decide⟩

/-- Below a root the parts of the path of a file are its directories and its name. -/
theorem pathParts_below (file : SourceFile) (root : String) :
    pathParts (file.below root) = pathParts root ++ file.parts.map .name := by
  have hne : file.parts ≠ [] := by simp [parts]
  have hcut : splitAtChar '/' file.path.toList = file.parts.map String.toList :=
    splitAtChar_intercalate hne fun part hmem => (ne_of_mem_parts hmem).2.2.2
  have hfront : frontParts file.path.toList = [] := by
    cases hparts : file.parts with
    | nil => exact absurd hparts hne
    | cons first rest =>
        rw [hparts] at hcut
        obtain ⟨hempty, hdot, -, -⟩ := ne_of_mem_parts (hparts ▸ List.mem_cons_self)
        exact frontParts_eq_nil hcut (fun heq => hempty (String.toList_inj.mp heq))
          fun heq => hdot (String.toList_inj.mp heq)
  have hnames : (file.parts.map String.toList).filterMap PathPart.ofText? =
      file.parts.map .name := by
    rw [List.filterMap_map, ← List.filterMap_eq_map]
    refine List.filterMap_congr fun part hmem => ?_
    obtain ⟨hempty, hdot, hdots, -⟩ := ne_of_mem_parts hmem
    exact ofText?_toList hempty hdot hdots
  rw [below, pathParts_pathBelow root hfront, hcut, hnames]

theorem moduleNames_parts (file : SourceFile) :
    moduleNames (file.parts.map .name) = file.names := by
  have hlast : (file.parts.map PathPart.name).getLast? = some (.name (file.name ++ ".rs")) := by
    simp [parts]
  have hfront : (file.parts.map PathPart.name).dropLast.map PathPart.text = file.directories := by
    simp [parts, Function.comp_def, PathPart.text]
  unfold moduleNames names
  rw [hlast]
  dsimp only
  simp only [hfront, withoutExtension_append file.plain_name]
  refine if_congr ?_ rfl rfl
  simp [StandsForDirectory]

theorem moduleOfFile_eq (file : SourceFile) (root : String) :
    moduleOfFile root (file.below root) = joinNames ("crate" :: file.names) := by
  unfold moduleOfFile
  dsimp only
  rw [pathParts_below, afterFront?_append, Option.getD_some, moduleNames_parts]

/-! ### Files of the same module -/

theorem isName_of_mem {name : String} (hmem : name ∈ "crate" :: file.names) : IsName name := by
  have hplain : ∀ part, IsPlainPart part → IsName part := fun part hpart =>
    ⟨hpart.1, fun hcolon => (hpart.2 ':' hcolon).2.2 rfl⟩
  rcases List.mem_cons.mp hmem with rfl | hmem
  · exact ⟨by decide, by decide⟩
  · apply hplain
    unfold names at hmem
    split at hmem
    · exact file.plain_of_mem_directories hmem
    · exact file.plain name hmem

/-- Different names make different modules. -/
theorem names_eq_of_moduleOfFile {root : String}
    (hsame : moduleOfFile root (file.below root) = moduleOfFile root (other.below root)) :
    file.names = other.names := by
  rw [moduleOfFile_eq, moduleOfFile_eq] at hsame
  have hparts := congrArg nameParts hsame
  rw [nameParts_joinNames (List.cons_ne_nil _ _) fun _ => isName_of_mem,
    nameParts_joinNames (List.cons_ne_nil _ _) fun _ => isName_of_mem] at hparts
  exact (List.cons.inj hparts).2

theorem names_of_stands (hstands : file.StandsForDirectory) : file.names = file.directories :=
  if_pos hstands

theorem names_of_not_stands (hstands : ¬ file.StandsForDirectory) :
    file.names = file.directories ++ [file.name] :=
  if_neg hstands

/-- Two files that stand for their directories have the same names if they stand for the same one:
for the root, or as its only `mod`. -/
theorem names_eq_iff_of_stand (hfile : file.StandsForDirectory) (hother : other.StandsForDirectory) :
    file.names = other.names ↔ file = other ∨ (file.IsRoot ∧ other.IsRoot) := by
  rw [names_of_stands hfile, names_of_stands hother]
  constructor
  · intro hsame
    by_cases hroot : file.directories = []
    · exact Or.inr ⟨⟨hroot, hfile⟩, hsame ▸ hroot, hother⟩
    · have hmod : file.name = "mod" := hfile.resolve_right fun h => hroot h.1
      have hotherMod : other.name = "mod" := hother.resolve_right fun h => hroot (hsame.trans h.1)
      exact Or.inl (SourceFile.ext hsame (hmod.trans hotherMod.symm))
  · rintro (rfl | ⟨hroot, hotherRoot⟩)
    · rfl
    · exact hroot.1.trans hotherRoot.1.symm

/-- A file that stands for its directory has the names of a file beside that directory. -/
theorem names_eq_iff_isModOf (hfile : file.StandsForDirectory)
    (hother : ¬ other.StandsForDirectory) : file.names = other.names ↔ file.IsModOf other := by
  rw [names_of_stands hfile, names_of_not_stands hother]
  refine ⟨fun hsame => ⟨?_, hsame, hother⟩, fun hmod => hmod.2.1⟩
  have hroot : file.directories ≠ [] := by
    rw [hsame]
    exact List.concat_ne_nil _ _
  exact hfile.resolve_right fun h => hroot h.1

/-- Which files have the same names: besides the same file only the two ways to write a module, and
the files that stand for the root. -/
theorem names_eq_iff : file.names = other.names ↔
    file = other ∨ file.IsModOf other ∨ other.IsModOf file ∨ (file.IsRoot ∧ other.IsRoot) := by
  have hstands : ∀ {first second : SourceFile}, first.IsModOf second →
      first.StandsForDirectory ∧ ¬ second.StandsForDirectory := fun hmod => ⟨Or.inl hmod.1, hmod.2.2⟩
  constructor
  · intro hsame
    by_cases hfile : file.StandsForDirectory
    · by_cases hother : other.StandsForDirectory
      · rcases (names_eq_iff_of_stand hfile hother).mp hsame with heq | hroots
        · exact Or.inl heq
        · exact Or.inr (Or.inr (Or.inr hroots))
      · exact Or.inr (Or.inl ((names_eq_iff_isModOf hfile hother).mp hsame))
    · by_cases hother : other.StandsForDirectory
      · exact Or.inr (Or.inr (Or.inl ((names_eq_iff_isModOf hother hfile).mp hsame.symm)))
      · rw [names_of_not_stands hfile, names_of_not_stands hother] at hsame
        obtain ⟨hdirectories, hname⟩ := List.append_inj' hsame rfl
        exact Or.inl (SourceFile.ext hdirectories (List.singleton_inj.mp hname))
  · rintro (rfl | hmod | hmod | ⟨hroot, hotherRoot⟩)
    · rfl
    · exact (names_eq_iff_isModOf (hstands hmod).1 (hstands hmod).2).mpr hmod
    · exact ((names_eq_iff_isModOf (hstands hmod).1 (hstands hmod).2).mpr hmod).symm
    · exact (names_eq_iff_of_stand hroot.2 hotherRoot.2).mpr (Or.inr ⟨hroot, hotherRoot⟩)

/-- **Files and their modules.** Below every root a file is the module of its directories and its
name, without the name if the file stands for its directory. Two files are the same module only if
one is the `mod` in the directory that is named as the other, or both stand for the root. -/
theorem moduleOfFile_below (root : String) (file other : SourceFile) :
    moduleOfFile root (file.below root) = joinNames ("crate" :: file.names) ∧
      (moduleOfFile root (file.below root) = moduleOfFile root (other.below root) ↔
        file = other ∨ file.IsModOf other ∨ other.IsModOf file ∨
          (file.IsRoot ∧ other.IsRoot)) := by
  refine ⟨file.moduleOfFile_eq root, ?_⟩
  rw [← names_eq_iff]
  refine ⟨names_eq_of_moduleOfFile, fun hnames => ?_⟩
  rw [moduleOfFile_eq, moduleOfFile_eq, hnames]

/-- Only in the root a `lib` stands for its directory. -/
example : moduleOfFile "src" "src/model/lib.rs" = "crate::model::lib" := by
  decide +kernel

end SourceFile

end EntityTables
