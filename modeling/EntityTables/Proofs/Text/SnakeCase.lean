import EntityTables.Proofs.Text.CharClass
import EntityTables.Proofs.Text.Plural
import EntityTables.Proofs.Text.Words
import Mathlib.Data.List.Chain

/-!
# Names in snake case

Converting the words of a name to one case destroys what they were cut by, and joining them with
underscores keeps the cuts: a text of flat words, which have no capitals or no lower case letters, is
cut at its underscores and nowhere else. On ASCII a conversion forgets the one before it, so a name
in snake case, converted again, is what the name itself gives.
-/

namespace EntityTables.Text

/-! ### Flat words -/

/-- A text that is cut nowhere: it has letters only, and none of one of the two cases. -/
structure IsFlatWord (word : List Char) : Prop where
  ne_nil : word ≠ []
  letters : ∀ c ∈ word, isSeparator c = false
  flat : (∀ c ∈ word, isUpper c = false) ∨ ∀ c ∈ word, isLower c = false

section Flat

variable {word tail : List Char} {a b : Char}

/-- Behind a word stands nothing, or an underscore. -/
def EndsWord (tail : List Char) : Prop := ∀ c ∈ tail.head?, c = '_'

theorem startsWord_of_flat (hflat : (∀ c ∈ a :: b :: word, isUpper c = false) ∨
    ∀ c ∈ a :: b :: word, isLower c = false) (htail : EndsWord tail) :
    startsWord (some a) b (word ++ tail) = false := by
  rw [startsWord]
  rcases hflat with hupper | hlower
  · rw [hupper b (by simp), Bool.false_and]
  · have hnext : startsLower (word ++ tail) = false := by
      cases word with
      | cons c rest => exact hlower c (by simp)
      | nil =>
          cases tail with
          | nil => rfl
          | cons c rest =>
              obtain rfl : c = '_' := htail c rfl
              rfl
    rw [hlower a (by simp), hnext, Bool.false_and, Bool.or_false, Bool.and_false]

/-- A flat text that continues a word ends where a separator or nothing follows. -/
theorem wordsAfter_append (hletters : ∀ c ∈ word, isSeparator c = false)
    (hflat : (∀ c ∈ a :: word, isUpper c = false) ∨ ∀ c ∈ a :: word, isLower c = false)
    (htail : EndsWord tail) :
    wordsAfter (some a) (word ++ tail) = (word, wordsOf tail) := by
  induction word generalizing a with
  | nil =>
      cases tail with
      | nil => rfl
      | cons c rest =>
          obtain rfl : c = '_' := htail c rfl
          rfl
  | cons b rest ih =>
      have hrest := ih (fun c hc => hletters c (List.mem_cons_of_mem _ hc))
        (hflat.imp (fun h c hc => h c (List.mem_cons_of_mem _ hc))
          fun h c hc => h c (List.mem_cons_of_mem _ hc))
      rw [List.cons_append, wordsAfter, if_neg (by simp [hletters b]), hrest,
        startsWord_of_flat hflat htail]
      rfl

theorem IsFlatWord.wordsOf_append (hword : IsFlatWord word) (htail : EndsWord tail) :
    wordsOf (word ++ tail) = word :: wordsOf tail := by
  cases word with
  | nil => exact absurd rfl hword.ne_nil
  | cons a rest =>
      have hrest := wordsAfter_append (fun c hc => hword.letters c (List.mem_cons_of_mem _ hc))
        hword.flat htail
      rw [wordsOf, List.cons_append, wordsAfter, if_neg (by simp [hword.letters a]), hrest]
      rfl

/-- Flat words that are joined by underscores are the words of the text. -/
theorem wordsOf_intercalate {words : List (List Char)} (hwords : ∀ word ∈ words, IsFlatWord word) :
    wordsOf (['_'].intercalate words) = words := by
  induction words with
  | nil => rfl
  | cons word rest ih =>
      have hword := hwords word List.mem_cons_self
      have hrest := ih fun other hother => hwords other (List.mem_cons_of_mem _ hother)
      cases rest with
      | nil =>
          rw [List.intercalate_singleton, ← List.append_nil word,
            hword.wordsOf_append (by simp [EndsWord])]
          simp [wordsOf, wordsAfter]
      | cons second others =>
          rw [List.intercalate_cons_cons, List.append_assoc, hword.wordsOf_append (by simp [EndsWord])]
          exact congrArg (word :: ·) hrest

/-- Words that were converted and joined may be converted again as words. -/
theorem joinWords_wordsOf {first second third : List Char → List Char} {words : List (List Char)}
    (hflat : ∀ word ∈ words, IsFlatWord (first word))
    (hconvert : ∀ word ∈ words, second (first word) = third word) :
    joinWords second (wordsOf (joinWords first words)) = joinWords third words := by
  have hwords : wordsOf (joinWords first words) = words.map first :=
    wordsOf_intercalate (List.forall_mem_map.mpr hflat)
  rw [hwords, joinWords, joinWords, List.map_map]
  exact congrArg _ (List.map_congr_left hconvert)

end Flat

/-! ### The form of joined words -/

/-- A text in snake case: it has no hyphens and no blanks, and its underscores stand alone inside. -/
structure IsSnake (text : List Char) : Prop where
  plain : ∀ c ∈ text, c ≠ '-' ∧ isSpace c = false
  first : text.head? ≠ some '_'
  last : text.getLast? ≠ some '_'
  single : text.IsChain fun a b => a ≠ '_' ∨ b ≠ '_'

section Joined

variable {c : Char} {word : List Char} {words : List (List Char)}

theorem ne_of_letter (hletter : isSeparator c = false) :
    c ≠ '_' ∧ c ≠ '-' ∧ isSpace c = false := by
  simpa [isSeparator, and_assoc] using hletter

/-- Letters are in snake case. -/
theorem IsSnake.of_letters (hletters : ∀ c ∈ word, isSeparator c = false) : IsSnake word where
  plain c hc := (ne_of_letter (hletters c hc)).2
  first hfirst := (ne_of_letter (hletters _ (List.mem_of_head? hfirst))).1 rfl
  last hlast := (ne_of_letter (hletters _ (List.mem_of_getLast? hlast))).1 rfl
  single := List.Pairwise.isChain (List.pairwise_of_forall_mem_list fun a ha _ _ =>
    Or.inl (ne_of_letter (hletters a ha)).1)

/-- Two texts in snake case, neither of them empty, may be joined. -/
theorem IsSnake.join {first second : List Char} (hfirst : IsSnake first) (hsecond : IsSnake second)
    (hfirstNe : first ≠ []) (hsecondNe : second ≠ []) : IsSnake (first ++ '_' :: second) where
  plain c hc := by
    rcases List.mem_append.mp hc with hc | hc
    · exact hfirst.plain c hc
    · rcases List.mem_cons.mp hc with rfl | hc
      · decide
      · exact hsecond.plain c hc
  first := by
    rw [List.head?_append_of_ne_nil _ hfirstNe]
    exact hfirst.first
  last := by
    rw [List.getLast?_append_of_ne_nil _ (List.cons_ne_nil _ _), List.getLast?_cons_of_ne_nil hsecondNe]
    exact hsecond.last
  single := by
    refine List.isChain_append.mpr ⟨hfirst.single, List.isChain_cons.mpr ⟨?_, hsecond.single⟩, ?_⟩
    · rintro c hc
      exact Or.inr fun hunderscore => hsecond.first (hunderscore ▸ hc)
    · rintro c hc _ -
      exact Or.inl fun hunderscore => hfirst.last (hunderscore ▸ hc)

/-- Words that are joined leave something unless there are none. -/
theorem intercalate_eq_nil_iff (hwords : ∀ word ∈ words, word ≠ []) :
    ['_'].intercalate words = [] ↔ words = [] := by
  match words, hwords with
  | [], _ => simp
  | [word], hwords =>
    rw [List.intercalate_singleton]
    simpa using hwords word List.mem_cons_self
  | word :: second :: others, _ =>
    rw [List.intercalate_cons_cons]
    simp

theorem isSnake_intercalate (hwords : ∀ word ∈ words, IsFlatWord word) :
    IsSnake (['_'].intercalate words) := by
  induction words with
  | nil => exact IsSnake.of_letters (by simp)
  | cons word rest ih =>
      have hword := hwords word List.mem_cons_self
      have hsnake := IsSnake.of_letters hword.letters
      have hrest := ih fun other hother => hwords other (List.mem_cons_of_mem _ hother)
      cases rest with
      | nil => rwa [List.intercalate_singleton]
      | cons second others =>
          rw [List.intercalate_cons_cons, List.append_assoc, List.singleton_append]
          refine hsnake.join hrest hword.ne_nil fun hnone => ?_
          rw [intercalate_eq_nil_iff fun other hother =>
            (hwords other (List.mem_cons_of_mem _ hother)).ne_nil] at hnone
          cases hnone

end Joined

/-! ### Conversion of ASCII letters -/

section Narrow

variable {c : Char} {word : List Char}

/-- What a conversion to one case does to a letter, beside another conversion. -/
structure Flattens (avoided : Char → Bool) (convert other : Char → List Char) (c : Char) : Prop where
  ne_nil : convert c ≠ []
  letters : ∀ image ∈ convert c, isWide image = false ∧ isSeparator image = false ∧
    avoided image = false
  again : (convert c).flatMap convert = convert c
  forgets : (convert c).flatMap other = other c

-- An instance that was found for the letters could go through all characters there are.
instance (avoided : Char → Bool) (convert other : Char → List Char) (c : Char) :
    Decidable (Flattens avoided convert other c) :=
  decidable_of_iff (convert c ≠ [] ∧ ((convert c).all fun image => !isWide image &&
      (!isSeparator image && !avoided image)) ∧
      (convert c).flatMap convert = convert c ∧ (convert c).flatMap other = other c)
    ⟨fun ⟨hne, hletters, hagain, hforgets⟩ => ⟨hne, by simpa using hletters, hagain, hforgets⟩,
      fun ⟨hne, hletters, hagain, hforgets⟩ => ⟨hne, by simpa using hletters, hagain, hforgets⟩⟩

theorem flattens_lowerChar (hnarrow : isWide c = false) (hletter : isSeparator c = false) :
    Flattens isUpper lowerChar upperChar c :=
  forall_narrow (P := fun c => isSeparator c = false → Flattens isUpper lowerChar upperChar c)
    (by decide +kernel) hnarrow hletter

theorem flattens_upperChar (hnarrow : isWide c = false) (hletter : isSeparator c = false) :
    Flattens isLower upperChar lowerChar c :=
  forall_narrow (P := fun c => isSeparator c = false → Flattens isLower upperChar lowerChar c)
    (by decide +kernel) hnarrow hletter

/-! ### Conversion of ASCII words -/

theorem lowercaseAfter_eq_flatMap (before : List Char) (hsigma : 'Σ' ∉ word) :
    lowercaseAfter before word = word.flatMap lowerChar := by
  induction word generalizing before with
  | nil => rfl
  | cons c rest ih =>
      rw [List.mem_cons, not_or] at hsigma
      rw [lowercaseAfter, if_neg (by simpa using Ne.symm hsigma.1), ih _ hsigma.2, List.flatMap_cons]

/-- ASCII text has no letter whose lower case depends on what stands around it. -/
theorem lowercase_eq_flatMap (hnarrow : ∀ c ∈ word, isWide c = false) :
    lowercase word = word.flatMap lowerChar :=
  lowercaseAfter_eq_flatMap [] fun hsigma => by cases hnarrow _ hsigma

section Convert

variable {avoided : Char → Bool} {convert other : Char → List Char}
  (hflattens : ∀ c ∈ word, Flattens avoided convert other c)

include hflattens

theorem narrow_of_flattens : ∀ c ∈ word.flatMap convert, isWide c = false := by
  intro image himage
  obtain ⟨c, hc, himage⟩ := List.mem_flatMap.mp himage
  exact ((hflattens c hc).letters image himage).1

theorem flatMap_again : (word.flatMap convert).flatMap convert = word.flatMap convert := by
  rw [List.flatMap_assoc]
  exact List.flatMap_congr fun c hc => (hflattens c hc).again

theorem flatMap_forgets : (word.flatMap convert).flatMap other = word.flatMap other := by
  rw [List.flatMap_assoc]
  exact List.flatMap_congr fun c hc => (hflattens c hc).forgets

theorem isFlatWord_flatMap (hne : word ≠ [])
    (havoided : avoided = isUpper ∨ avoided = isLower) : IsFlatWord (word.flatMap convert) where
  ne_nil hnone := by
    obtain ⟨c, hc⟩ := List.exists_mem_of_ne_nil word hne
    exact (hflattens c hc).ne_nil (List.flatMap_eq_nil_iff.mp hnone c hc)
  letters image himage := by
    obtain ⟨c, hc, himage⟩ := List.mem_flatMap.mp himage
    exact ((hflattens c hc).letters image himage).2.1
  flat := by
    have hall : ∀ image ∈ word.flatMap convert, avoided image = false := by
      intro image himage
      obtain ⟨c, hc, himage⟩ := List.mem_flatMap.mp himage
      exact ((hflattens c hc).letters image himage).2.2
    rcases havoided with rfl | rfl
    · exact Or.inl hall
    · exact Or.inr hall

end Convert

end Narrow

/-! ### Names -/

/-- A word of ASCII letters. -/
structure IsNarrowWord (word : List Char) : Prop where
  ne_nil : word ≠ []
  letters : ∀ c ∈ word, isWide c = false ∧ isSeparator c = false

namespace IsNarrowWord

variable {word : List Char} (hword : IsNarrowWord word)

include hword

theorem flattens_lower : ∀ c ∈ word, Flattens isUpper lowerChar upperChar c := fun c hc =>
  flattens_lowerChar (hword.letters c hc).1 (hword.letters c hc).2

theorem flattens_upper : ∀ c ∈ word, Flattens isLower upperChar lowerChar c := fun c hc =>
  flattens_upperChar (hword.letters c hc).1 (hword.letters c hc).2

theorem lowercase_eq : lowercase word = word.flatMap lowerChar :=
  lowercase_eq_flatMap fun c hc => (hword.letters c hc).1

theorem isFlatWord_lowercase : IsFlatWord (lowercase word) := by
  rw [hword.lowercase_eq]
  exact isFlatWord_flatMap hword.flattens_lower hword.ne_nil (Or.inl rfl)

theorem isFlatWord_uppercase : IsFlatWord (uppercase word) :=
  isFlatWord_flatMap hword.flattens_upper hword.ne_nil (Or.inr rfl)

theorem lowercase_lowercase : lowercase (lowercase word) = lowercase word := by
  rw [hword.lowercase_eq, lowercase_eq_flatMap (narrow_of_flattens hword.flattens_lower)]
  exact flatMap_again hword.flattens_lower

theorem uppercase_lowercase : uppercase (lowercase word) = uppercase word := by
  rw [hword.lowercase_eq]
  exact flatMap_forgets hword.flattens_lower

theorem lowercase_uppercase : lowercase (uppercase word) = lowercase word := by
  rw [hword.lowercase_eq, uppercase,
    lowercase_eq_flatMap (narrow_of_flattens hword.flattens_upper)]
  exact flatMap_forgets hword.flattens_upper

theorem uppercase_uppercase : uppercase (uppercase word) = uppercase word :=
  flatMap_again hword.flattens_upper

end IsNarrowWord

/-- **Snake case is reached in one step.** A name in ASCII that was converted to snake case, lower or
upper, gives what the name itself gives when it is converted again. What comes out has no hyphens
and no blanks, and no underscores beside each other or at an end. -/
theorem snake_normal {name : String} (hascii : ∀ c ∈ name.toList, isWide c = false) :
    lowerSnake (lowerSnake name) = lowerSnake name ∧
      upperSnake (upperSnake name) = upperSnake name ∧
      lowerSnake (upperSnake name) = lowerSnake name ∧
      upperSnake (lowerSnake name) = upperSnake name ∧
      IsSnake (lowerSnake name).toList ∧ IsSnake (upperSnake name).toList := by
  have hwords : ∀ word ∈ wordsOf name.toList, IsNarrowWord word := fun word hword =>
    ⟨ne_nil_of_mem_wordsAfter hword, fun c hc =>
      (mem_of_mem_word hword hc).imp_left (hascii c)⟩
  have hlower := fun word hword => (hwords word hword).isFlatWord_lowercase
  have hupper := fun word hword => (hwords word hword).isFlatWord_uppercase
  unfold lowerSnake upperSnake
  simp only [String.toList_ofList]
  refine ⟨congrArg _ (joinWords_wordsOf hlower fun word hword => ?_),
    congrArg _ (joinWords_wordsOf hupper fun word hword => ?_),
    congrArg _ (joinWords_wordsOf hupper fun word hword => ?_),
    congrArg _ (joinWords_wordsOf hlower fun word hword => ?_),
    isSnake_intercalate (List.forall_mem_map.mpr hlower),
    isSnake_intercalate (List.forall_mem_map.mpr hupper)⟩
  · exact (hwords word hword).lowercase_lowercase
  · exact (hwords word hword).uppercase_uppercase
  · exact (hwords word hword).lowercase_uppercase
  · exact (hwords word hword).uppercase_lowercase

section Instance

/-- Capitals side by side, a digit, and separators of all kinds. -/
theorem snake_normal_ioUtils :
    (∀ c ∈ "IOUtils- _A2CCount ".toList, isWide c = false) ∧
      lowerSnake "IOUtils- _A2CCount " = "io_utils_a2c_count" ∧
      upperSnake (lowerSnake "IOUtils- _A2CCount ") = upperSnake "IOUtils- _A2CCount " ∧
      IsSnake (lowerSnake "IOUtils- _A2CCount ").toList := by
  have hall : "IOUtils- _A2CCount ".toList.all (!isWide ·) = true := by decide
  have hascii : ∀ c ∈ "IOUtils- _A2CCount ".toList, isWide c = false := fun c hc => by
    simpa using List.all_eq_true.mp hall c hc
  obtain ⟨-, -, -, hupper, hsnake, -⟩ := snake_normal hascii
  exact ⟨hascii, by decide +kernel, hupper, hsnake⟩

end Instance

/-! ### Empty names -/

section Empty

variable {word : List Char} {words : List (List Char)} {name : String}

/-- A name without any letter. -/
def IsBlank (name : String) : Prop := ∀ c ∈ name.toList, isSeparator c = true

instance : DecidablePred IsBlank :=
  fun name => decidable_of_iff (name.toList.all isSeparator = true) List.all_eq_true

set_option maxRecDepth 100000 in
theorem upperExpansions_ne_nil : CaseTable.upperExpansions.entries.toList.all (fun entry =>
    !entry.2.isEmpty) = true := by
  unfold CaseTable.upperExpansions CaseExpansions.parse tableWords
  rw [String.toList_ofList]
  decide +kernel

theorem upperChar_ne_nil (c : Char) : upperChar c ≠ [] := by
  unfold upperChar
  split
  · cases hexpansion : CaseTable.upperExpansions.find? c with
    | none => exact List.cons_ne_nil _ _
    | some image =>
        obtain ⟨entry, hentry, rfl⟩ := Option.map_eq_some_iff.mp hexpansion
        rw [← Array.find?_toList] at hentry
        simpa using List.all_eq_true.mp upperExpansions_ne_nil entry
          (List.mem_of_find?_eq_some hentry)
  · exact List.cons_ne_nil _ _

theorem lowercase_ne_nil (hne : word ≠ []) : lowercase word ≠ [] := by
  cases word with
  | nil => exact absurd rfl hne
  | cons c rest =>
      rw [lowercase, lowercaseAfter]
      refine List.append_ne_nil_of_left_ne_nil ?_ _
      split
      · exact List.cons_ne_nil _ _
      · exact (eq_y_of_lowerChar c).1

theorem uppercase_ne_nil (hne : word ≠ []) : uppercase word ≠ [] := by
  cases word with
  | nil => exact absurd rfl hne
  | cons c rest => exact List.append_ne_nil_of_left_ne_nil (upperChar_ne_nil c) _

/-- The words of a name leave something when they are joined unless the name has no letters. -/
theorem joinWords_eq_nil_iff {convert : List Char → List Char}
    (hconvert : ∀ word, word ≠ [] → convert word ≠ []) :
    joinWords convert (wordsOf name.toList) = [] ↔ IsBlank name := by
  have hwords : ∀ word ∈ (wordsOf name.toList).map convert, word ≠ [] :=
    List.forall_mem_map.mpr fun word hword => hconvert word (ne_nil_of_mem_wordsAfter hword)
  rw [joinWords, intercalate_eq_nil_iff hwords, List.map_eq_nil_iff, wordsOf_eq_nil_iff, IsBlank]

theorem lowerSnake_eq_empty_iff : lowerSnake name = "" ↔ IsBlank name := by
  rw [lowerSnake, String.ofList_eq_empty_iff, joinWords_eq_nil_iff fun _ => lowercase_ne_nil]

theorem upperSnake_eq_empty_iff : upperSnake name = "" ↔ IsBlank name := by
  rw [upperSnake, String.ofList_eq_empty_iff, joinWords_eq_nil_iff fun _ => uppercase_ne_nil]

end Empty

end EntityTables.Text
