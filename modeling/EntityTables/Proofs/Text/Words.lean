import EntityTables.Text.Words
import Mathlib.Data.List.Basic

/-!
# Where a name is cut

The words of a name are its letters, which are all characters but the separators, cut between some
that stand side by side. Two letters tell with the character behind them whether there is a cut
between them: the second one is a capital, and either the first one is lower case, or the capital
begins a word in lower case behind another capital or a digit. Letters with a separator between them
are always in different words.

`wordAt?` numbers the words as the letters of the name lie in them. The scan that cuts a text meets
the end of a word first, so the induction is over the pieces of a text: the end of the word that it
continues, then its words.
-/

namespace EntityTables.Text

/-! ### Which of several joined lists has a position -/

section Holder

variable {α : Type}

/-- The number of the list that has a position if the lists are joined. -/
def holder? : List (List α) → Nat → Option Nat
  | [], _ => none
  | word :: words, position =>
    if position < word.length then some 0
    else (holder? words (position - word.length)).map (· + 1)

theorem holder?_nil_cons (words : List (List α)) (position : Nat) :
    holder? ([] :: words) position = (holder? words position).map (· + 1) := by
  simp [holder?]

theorem holder?_cons_succ (a : α) (word : List α) (words : List (List α)) (position : Nat) :
    holder? ((a :: word) :: words) (position + 1) = holder? (word :: words) position := by
  simp [holder?]

/-- What stands at a position is in the list that has the position. -/
theorem exists_holder {words : List (List α)} {position : Nat} {a : α}
    (ha : words.flatten[position]? = some a) : ∃ number word,
      holder? words position = some number ∧ words[number]? = some word ∧ a ∈ word := by
  induction words generalizing position with
  | nil => simp at ha
  | cons word rest ih =>
      rw [List.flatten_cons] at ha
      by_cases hposition : position < word.length
      · rw [List.getElem?_append_left hposition] at ha
        exact ⟨0, word, by rw [holder?, if_pos hposition], rfl, List.mem_of_getElem? ha⟩
      · rw [List.getElem?_append_right (Nat.le_of_not_lt hposition)] at ha
        obtain ⟨number, found, hnumber, hfound, hmem⟩ := ih ha
        exact ⟨number + 1, found, by rw [holder?, if_neg hposition, hnumber]; rfl, hfound, hmem⟩

end Holder

/-! ### Letters -/

/-- The characters of a text that are no separators. -/
def letters (text : List Char) : List Char := text.filter (!isSeparator ·)

def lettersBefore (text : List Char) (position : Nat) : Nat :=
  (letters (text.take position)).length

section Letters

variable {text rest : List Char} {c : Char} {position : Nat}

theorem letters_cons_separator (hseparator : isSeparator c = true) :
    letters (c :: rest) = letters rest := by
  simp [letters, hseparator]

theorem letters_cons_letter (hletter : isSeparator c = false) :
    letters (c :: rest) = c :: letters rest := by
  simp [letters, hletter]

theorem mem_letters : c ∈ letters text ↔ c ∈ text ∧ isSeparator c = false := by
  simp [letters]

theorem getElem?_letters (hc : text[position]? = some c) (hletter : isSeparator c = false) :
    (letters text)[lettersBefore text position]? = some c := by
  obtain ⟨hposition, rfl⟩ := List.getElem?_eq_some_iff.mp hc
  have hsplit : text = text.take position ++ text[position] :: text.drop (position + 1) := by
    rw [← List.drop_eq_getElem_cons hposition, List.take_append_drop]
  have hletters : letters text = letters (text.take position) ++
      text[position] :: letters (text.drop (position + 1)) := by
    conv_lhs => rw [hsplit]
    rw [letters, List.filter_append, ← letters, ← letters, letters_cons_letter hletter]
  rw [hletters, lettersBefore, List.getElem?_append_right (Nat.le_refl _)]
  simp

end Letters

/-! ### The pieces of a text -/

section Pieces

variable {before : Option Char} {text rest : List Char} {c : Char}

/-- The end of the word that a text continues, then the words behind it. -/
def piecesAfter (before : Option Char) (text : List Char) : List (List Char) :=
  (wordsAfter before text).1 :: (wordsAfter before text).2

theorem piecesAfter_none (text : List Char) : piecesAfter none text = [] :: wordsOf text := by
  have hend : (wordsAfter none text).1 = [] := by
    cases text with
    | nil => rfl
    | cons c rest =>
        rw [wordsAfter]
        split
        · rfl
        · simp [startsWord]
  rw [piecesAfter, hend, wordsOf]

theorem piecesAfter_separator (hseparator : isSeparator c = true) :
    piecesAfter before (c :: rest) = piecesAfter none rest := by
  rw [piecesAfter_none, piecesAfter, wordsAfter, if_pos hseparator]
  rfl

theorem piecesAfter_cut (hletter : isSeparator c = false)
    (hcut : startsWord before c rest = true) : piecesAfter before (c :: rest) =
      [] :: (c :: (wordsAfter (some c) rest).1) :: (wordsAfter (some c) rest).2 := by
  simp [piecesAfter, wordsAfter, hletter, hcut]

theorem piecesAfter_within (hletter : isSeparator c = false)
    (hcut : startsWord before c rest = false) : piecesAfter before (c :: rest) =
      (c :: (wordsAfter (some c) rest).1) :: (wordsAfter (some c) rest).2 := by
  simp [piecesAfter, wordsAfter, hletter, hcut]

/-- Nothing but separators is lost. -/
theorem flatten_piecesAfter (before : Option Char) (text : List Char) :
    (piecesAfter before text).flatten = letters text := by
  induction text generalizing before with
  | nil => rfl
  | cons c rest ih =>
      cases hseparator : isSeparator c with
      | true => rw [piecesAfter_separator hseparator, ih, letters_cons_separator hseparator]
      | false =>
          have hrest := ih (some c)
          rw [piecesAfter, List.flatten_cons] at hrest
          rw [letters_cons_letter hseparator, ← hrest]
          cases hcut : startsWord before c rest with
          | true => rw [piecesAfter_cut hseparator hcut]; rfl
          | false => rw [piecesAfter_within hseparator hcut]; rfl

theorem ne_nil_of_mem_wordsAfter {word : List Char}
    (hword : word ∈ (wordsAfter before text).2) : word ≠ [] := by
  induction text generalizing before with
  | nil => cases hword
  | cons c rest ih =>
      have hmem : word ∈ (piecesAfter before (c :: rest)).tail := hword
      cases hseparator : isSeparator c with
      | true =>
          rw [piecesAfter_separator hseparator] at hmem
          exact ih hmem
      | false =>
          cases hcut : startsWord before c rest with
          | true =>
              rw [piecesAfter_cut hseparator hcut] at hmem
              rcases List.mem_cons.mp hmem with rfl | hmem
              · exact List.cons_ne_nil _ _
              · exact ih hmem
          | false =>
              rw [piecesAfter_within hseparator hcut] at hmem
              exact ih hmem

theorem flatten_wordsOf (text : List Char) : (wordsOf text).flatten = letters text := by
  rw [← flatten_piecesAfter none, piecesAfter_none]
  rfl

/-- Words are made of letters of the text. -/
theorem mem_of_mem_word {word : List Char} (hword : word ∈ wordsOf text) (hc : c ∈ word) :
    c ∈ text ∧ isSeparator c = false := by
  have hmem : c ∈ (wordsOf text).flatten := List.mem_flatten.mpr ⟨word, hword, hc⟩
  rwa [flatten_wordsOf, mem_letters] at hmem

/-- A text has no words exactly if it is made of separators. -/
theorem wordsOf_eq_nil_iff : wordsOf text = [] ↔ ∀ c ∈ text, isSeparator c = true := by
  constructor
  · intro hnone c hc
    by_contra hletter
    have hmem : c ∈ letters text := mem_letters.mpr ⟨hc, Bool.not_eq_true _ ▸ hletter⟩
    rw [← flatten_wordsOf, hnone] at hmem
    cases hmem
  · intro hall
    refine List.eq_nil_iff_forall_not_mem.mpr fun word hword => ?_
    obtain ⟨c, hc⟩ := List.exists_mem_of_ne_nil word (ne_nil_of_mem_wordsAfter hword)
    obtain ⟨hmem, hletter⟩ := mem_of_mem_word hword hc
    rw [hall c hmem] at hletter
    cases hletter

end Pieces

/-! ### The piece of a letter -/

section Places

variable {before : Option Char} {text rest : List Char} {a b c : Char} {i j k : Nat}

/-- The number of the piece that has the letter at a position. -/
def pieceAt? (before : Option Char) (text : List Char) (position : Nat) : Option Nat :=
  holder? (piecesAfter before text) (lettersBefore text position)

theorem pieceAt?_none (text : List Char) (position : Nat) : pieceAt? none text position =
    (holder? (wordsOf text) (lettersBefore text position)).map (· + 1) := by
  rw [pieceAt?, piecesAfter_none, holder?_nil_cons]

/-- How many pieces end in front of a letter. -/
def cutsBefore (before : Option Char) (c : Char) (rest : List Char) : Nat :=
  if startsWord before c rest then 1 else 0

theorem pieceAt?_zero (hletter : isSeparator c = false) :
    pieceAt? before (c :: rest) 0 = some (cutsBefore before c rest) := by
  unfold pieceAt? cutsBefore
  cases hcut : startsWord before c rest with
  | true => rw [piecesAfter_cut hletter hcut, holder?_nil_cons]; rfl
  | false => rw [piecesAfter_within hletter hcut]; rfl

theorem pieceAt?_succ_separator (hseparator : isSeparator c = true) (position : Nat) :
    pieceAt? before (c :: rest) (position + 1) = pieceAt? none rest position := by
  rw [pieceAt?, piecesAfter_separator hseparator, lettersBefore, List.take_succ_cons,
    letters_cons_separator hseparator]
  rfl

/-- The letters behind a letter are in the pieces that they make of their own, moved on by the piece
that ends in front of it. -/
theorem pieceAt?_succ_letter (hletter : isSeparator c = false) (position : Nat) :
    pieceAt? before (c :: rest) (position + 1) =
      (pieceAt? (some c) rest position).map (· + cutsBefore before c rest) := by
  rw [pieceAt?, lettersBefore, List.take_succ_cons, letters_cons_letter hletter, List.length_cons]
  unfold cutsBefore
  cases hcut : startsWord before c rest with
  | true =>
      rw [piecesAfter_cut hletter hcut, holder?_nil_cons, holder?_cons_succ]
      rfl
  | false =>
      rw [piecesAfter_within hletter hcut, holder?_cons_succ]
      simp [pieceAt?, piecesAfter, lettersBefore]

/-- Whether two letters are in one piece is decided behind the characters in front of both. -/
theorem exists_pieceAt_ne_iff (before : Option Char) (c : Char) (rest : List Char) :
    ∃ before', ∀ i j, pieceAt? before (c :: rest) (i + 1) ≠ pieceAt? before (c :: rest) (j + 1) ↔
      pieceAt? before' rest i ≠ pieceAt? before' rest j := by
  cases hseparator : isSeparator c with
  | true => exact ⟨none, fun i j => by simp only [pieceAt?_succ_separator hseparator]⟩
  | false =>
      refine ⟨some c, fun i j => ?_⟩
      rw [pieceAt?_succ_letter hseparator, pieceAt?_succ_letter hseparator]
      exact (Option.map_injective fun _ _ => Nat.add_right_cancel).ne_iff

/-- Between letters side by side there is a cut exactly where a word starts. -/
theorem pieceAt?_ne_succ_iff (before : Option Char) (ha : text[i]? = some a)
    (hb : text[i + 1]? = some b) (hfirst : isSeparator a = false) (hsecond : isSeparator b = false) :
    pieceAt? before text i ≠ pieceAt? before text (i + 1) ↔
      startsWord (some a) b (text.drop (i + 2)) = true := by
  induction i generalizing before text with
  | zero =>
      obtain ⟨rest, rfl⟩ : ∃ rest, text = a :: b :: rest := by
        match text, ha, hb with
        | _ :: _ :: rest, rfl, rfl => exact ⟨rest, rfl⟩
      rw [pieceAt?_zero hfirst, pieceAt?_succ_letter hfirst, pieceAt?_zero hsecond]
      simp [cutsBefore]
  | succ i ih =>
      match text, ha with
      | c :: rest, ha =>
        obtain ⟨before', hiff⟩ := exists_pieceAt_ne_iff before c rest
        rw [hiff]
        exact ih before' ha hb

/-- A letter behind a separator is in no piece that was begun in front of it. -/
theorem exists_pieceAt_succ (before : Option Char) (hj : text[j]? = some c)
    (hseparator : isSeparator c = true) (hlt : j < k) (hk : text[k]? = some b)
    (hletter : isSeparator b = false) : ∃ number, pieceAt? before text k = some (number + 1) := by
  induction j generalizing before text k with
  | zero =>
      obtain ⟨k, rfl⟩ := Nat.exists_eq_succ_of_ne_zero (Nat.ne_of_gt hlt)
      obtain ⟨rest, rfl⟩ : ∃ rest, text = c :: rest := by
        match text, hj with
        | _ :: rest, rfl => exact ⟨rest, rfl⟩
      have hplace := getElem?_letters hk hletter
      rw [letters_cons_separator hseparator, lettersBefore, List.take_succ_cons,
        letters_cons_separator hseparator, ← flatten_wordsOf] at hplace
      obtain ⟨number, -, hnumber, -⟩ := exists_holder hplace
      refine ⟨number, ?_⟩
      rw [pieceAt?_succ_separator hseparator, pieceAt?_none, lettersBefore, hnumber]
      rfl
  | succ j ih =>
      obtain ⟨k, rfl⟩ := Nat.exists_eq_succ_of_ne_zero (Nat.ne_zero_of_lt hlt)
      match text, hj with
      | d :: rest, hj =>
        have hlt : j < k := Nat.lt_of_succ_lt_succ hlt
        cases hd : isSeparator d with
        | true =>
            rw [pieceAt?_succ_separator hd]
            exact ih none hj hlt hk
        | false =>
            obtain ⟨number, hnumber⟩ := ih (some d) hj hlt hk
            refine ⟨number + cutsBefore before d rest, ?_⟩
            rw [pieceAt?_succ_letter hd, hnumber, Option.map_some, Nat.add_right_comm]

theorem pieceAt?_ne_of_separator (before : Option Char) (hij : i < j) (hjk : j < k)
    (ha : text[i]? = some a) (hj : text[j]? = some c) (hk : text[k]? = some b)
    (hfirst : isSeparator a = false) (hseparator : isSeparator c = true)
    (hsecond : isSeparator b = false) : pieceAt? before text i ≠ pieceAt? before text k := by
  induction i generalizing before text j k with
  | zero =>
      obtain ⟨j, rfl⟩ := Nat.exists_eq_succ_of_ne_zero (Nat.ne_of_gt hij)
      obtain ⟨k, rfl⟩ := Nat.exists_eq_succ_of_ne_zero (Nat.ne_zero_of_lt hjk)
      obtain ⟨rest, rfl⟩ : ∃ rest, text = a :: rest := by
        match text, ha with
        | _ :: rest, rfl => exact ⟨rest, rfl⟩
      rw [List.getElem?_cons_succ] at hj hk
      obtain ⟨number, hnumber⟩ := exists_pieceAt_succ (some a) hj hseparator
        (Nat.lt_of_succ_lt_succ hjk) hk hsecond
      rw [pieceAt?_zero hfirst, pieceAt?_succ_letter hfirst, hnumber, Option.map_some, ne_eq,
        Option.some.injEq]
      omega
  | succ i ih =>
      obtain ⟨j, rfl⟩ := Nat.exists_eq_succ_of_ne_zero (Nat.ne_zero_of_lt hij)
      obtain ⟨k, rfl⟩ := Nat.exists_eq_succ_of_ne_zero (Nat.ne_zero_of_lt hjk)
      match text, ha with
      | d :: rest, ha =>
        obtain ⟨before', hiff⟩ := exists_pieceAt_ne_iff before d rest
        rw [hiff]
        exact ih before' (Nat.lt_of_succ_lt_succ hij) (Nat.lt_of_succ_lt_succ hjk) ha hj hk

end Places

/-! ### The words of a name -/

section Names

variable {name : String}

/-- The number of the word that has the letter at a position of a name. -/
def wordAt? (name : String) (position : Nat) : Option Nat :=
  holder? ((splitWords name).map String.toList) (lettersBefore name.toList position)

theorem map_toList_splitWords (name : String) :
    (splitWords name).map String.toList = wordsOf name.toList := by
  rw [splitWords, List.map_map]
  exact List.map_id'' (fun _ => String.toList_ofList) _

theorem wordAt?_ne_iff (i j : Nat) : wordAt? name i ≠ wordAt? name j ↔
    pieceAt? none name.toList i ≠ pieceAt? none name.toList j := by
  rw [pieceAt?_none, pieceAt?_none, wordAt?, wordAt?, map_toList_splitWords]
  exact (Option.map_injective fun _ _ => Nat.add_right_cancel).ne_iff.symm

theorem startsLower_drop_iff (text : List Char) (position : Nat) :
    startsLower (text.drop position) = true ↔ ∃ c, text[position]? = some c ∧ isLower c = true := by
  rw [← List.head?_drop]
  cases text.drop position with
  | nil => simp [startsLower]
  | cons c rest => simp [startsLower]

/-- **Where a name is cut.** The words of a name joined are the name without its separators, and each
of them is a part of it without separators, and not empty. Of two letters side by side, the second
one is in another word exactly if it is a capital and either the first one is lower case, or the
character behind is lower case and the first one is a capital or a digit. Letters with a separator
between them are in different words. -/
theorem splitWords_cuts (name : String) :
    let text := name.toList
    String.join (splitWords name) = String.ofList (text.filter (!isSeparator ·)) ∧
      (∀ word ∈ splitWords name, word ≠ "" ∧ ∀ c ∈ word.toList, isSeparator c = false) ∧
      (∀ i a, text[i]? = some a → isSeparator a = false → ∃ number word,
        wordAt? name i = some number ∧ (splitWords name)[number]? = some word ∧ a ∈ word.toList) ∧
      (∀ i a b, text[i]? = some a → text[i + 1]? = some b → isSeparator a = false →
        isSeparator b = false → (wordAt? name i ≠ wordAt? name (i + 1) ↔ isUpper b ∧
          (isLower a ∨ (∃ c, text[i + 2]? = some c ∧ isLower c) ∧ (isUpper a ∨ isDigit a)))) ∧
      ∀ i j k a c b, i < j → j < k → text[i]? = some a → text[j]? = some c → text[k]? = some b →
        isSeparator a = false → isSeparator c = true → isSeparator b = false →
          wordAt? name i ≠ wordAt? name k := by
  intro text
  refine ⟨?_, fun word hword => ?_, fun i a ha hletter => ?_, fun i a b ha hb hfirst hsecond => ?_,
    fun i j k a c b hij hjk ha hc hb hfirst hseparator hsecond => ?_⟩
  · apply String.toList_injective
    rw [String.toList_join, List.flatMap_def, map_toList_splitWords, flatten_wordsOf,
      String.toList_ofList, letters]
  · obtain ⟨letters, hletters, rfl⟩ := List.mem_map.mp hword
    refine ⟨fun hempty => ne_nil_of_mem_wordsAfter hletters ?_, fun c hc => ?_⟩
    · rw [← String.toList_ofList (l := letters), hempty]
      rfl
    · rw [String.toList_ofList] at hc
      exact (mem_of_mem_word hletters hc).2
  · have hplace := getElem?_letters ha hletter
    rw [← flatten_wordsOf, ← map_toList_splitWords] at hplace
    obtain ⟨number, letters, hnumber, hword, hmem⟩ := exists_holder hplace
    rw [List.getElem?_map, Option.map_eq_some_iff] at hword
    obtain ⟨word, hword, rfl⟩ := hword
    exact ⟨number, word, hnumber, hword, hmem⟩
  · rw [wordAt?_ne_iff, pieceAt?_ne_succ_iff none ha hb hfirst hsecond, startsWord]
    simp only [Bool.and_eq_true, Bool.or_eq_true, startsLower_drop_iff, text]
  · rw [wordAt?_ne_iff]
    exact pieceAt?_ne_of_separator none hij hjk ha hc hb hfirst hseparator hsecond

/-- The second capital of `CC` begins a word, and the one behind the digit does not. -/
theorem splitWords_cuts_count :
    splitWords "A2CCount_x" = ["A2C", "Count", "x"] ∧
      wordAt? "A2CCount_x" 1 = wordAt? "A2CCount_x" 2 ∧
      wordAt? "A2CCount_x" 2 ≠ wordAt? "A2CCount_x" 3 ∧
      wordAt? "A2CCount_x" 7 ≠ wordAt? "A2CCount_x" 9 := by
  obtain ⟨-, -, -, hcut, hseparated⟩ := splitWords_cuts "A2CCount_x"
  refine ⟨by decide +kernel, ?_, ?_, ?_⟩
  · refine not_ne_iff.mp fun hne => absurd ((hcut 1 '2' 'C' rfl rfl rfl rfl).mp hne) ?_
    rintro ⟨-, hlower | ⟨⟨c, hc, hlower⟩, -⟩⟩
    · exact absurd hlower (by decide)
    · obtain rfl : c = 'C' := (Option.some.inj hc).symm
      exact absurd hlower (by decide)
  · exact (hcut 2 'C' 'C' rfl rfl rfl rfl).mpr ⟨rfl, Or.inr ⟨⟨'o', rfl, rfl⟩, Or.inl rfl⟩⟩
  · exact hseparated 7 8 9 't' '_' 'x' (by omega) (by omega) rfl rfl rfl rfl rfl rfl

end Names

end EntityTables.Text
