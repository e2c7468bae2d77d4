import EntityTables.Text.Words
import Mathlib.Data.List.Basic

/-!
# The cut of a plural

The plural of a name that ends in a `y` drops the last character of the name. Which names these are
is read off the lower case of the name, and case conversion may change the length of a text; but no
letter other than `y` itself has a lower case that ends in `y`, and that letter is a single byte.
-/

namespace EntityTables.Text

/-! ### The case tables -/

section Tables

variable {c d : Char}

set_option maxRecDepth 100000 in
theorem lower_avoids_y : CaseTable.lower.runs.toList.all (fun run =>
    !(decide (run.first ≤ 'y'.toNat - run.shift) && decide ('y'.toNat - run.shift ≤ run.last))) =
      true := by
  unfold CaseTable.lower CaseRuns.parse tableWords
  rw [String.toList_ofList]
  decide +kernel

theorem lowerExpansions_avoid_y : CaseTable.lowerExpansions.entries.toList.all (fun entry =>
    !entry.2.isEmpty && entry.2.getLast? != some 'y') = true := by
  unfold CaseTable.lowerExpansions CaseExpansions.parse tableWords
  rw [String.toList_ofList]
  decide +kernel

theorem toNat_of_ofNat_eq {code : Nat} (heq : Char.ofNat code = 'y') : code = 'y'.toNat := by
  by_cases hvalid : code.isValidChar
  · rw [Char.ofNat, dif_pos hvalid] at heq
    exact congrArg Char.toNat heq
  · rw [Char.ofNat, dif_neg hvalid] at heq
    exact absurd heq (by decide)

theorem lower_find?_ne_y (hfound : CaseTable.lower.find? c = some d) : d ≠ 'y' := by
  rintro rfl
  unfold CaseRuns.find? at hfound
  obtain ⟨run, hrun, hcode⟩ := Option.map_eq_some_iff.mp hfound
  rw [← Array.find?_toList] at hrun
  have havoids := List.all_eq_true.mp lower_avoids_y run (List.mem_of_find?_eq_some hrun)
  have hinside := List.find?_some hrun
  have hvalue := toNat_of_ofNat_eq hcode
  simp only [Bool.and_eq_true, decide_eq_true_eq, Bool.not_eq_true', Bool.and_eq_false_iff,
    decide_eq_false_iff_not] at havoids hinside
  have hy : 'y'.toNat = 121 := rfl
  omega

theorem lowerExpansions_find? {image : List Char}
    (hfound : CaseTable.lowerExpansions.find? c = some image) :
    image ≠ [] ∧ image.getLast? ≠ some 'y' := by
  unfold CaseExpansions.find? at hfound
  obtain ⟨entry, hentry, rfl⟩ := Option.map_eq_some_iff.mp hfound
  rw [← Array.find?_toList] at hentry
  have havoids := List.all_eq_true.mp lowerExpansions_avoid_y entry
    (List.mem_of_find?_eq_some hentry)
  simpa using havoids

/-- The lower case of a character is not empty, and ends in `y` for that letter alone. -/
theorem eq_y_of_lowerChar (c : Char) :
    lowerChar c ≠ [] ∧ ((lowerChar c).getLast? = some 'y' → c = 'y' ∨ c = 'Y') := by
  unfold lowerChar
  split
  · next hwide =>
      cases hexpansion : CaseTable.lowerExpansions.find? c with
      | some image =>
          obtain ⟨hne, hlast⟩ := lowerExpansions_find? hexpansion
          exact ⟨hne, fun hy => absurd hy hlast⟩
      | none =>
          refine ⟨List.cons_ne_nil _ _, fun hy => ?_⟩
          have hd : (CaseTable.lower.find? c).getD c = 'y' := Option.some.inj hy
          cases hlower : CaseTable.lower.find? c with
          | some d =>
              rw [hlower] at hd
              exact absurd hd (lower_find?_ne_y hlower)
          | none =>
              rw [hlower] at hd
              exact Or.inl hd
  · refine ⟨List.cons_ne_nil _ _, fun hy => ?_⟩
    have hd : (if 'A' ≤ c ∧ c ≤ 'Z' then Char.ofNat (c.toNat + 32) else c) = 'y' :=
      Option.some.inj hy
    split at hd
    · have hcode := toNat_of_ofNat_eq hd
      have hY : c.toNat = 'Y'.toNat := by
        have hy : 'y'.toNat = 121 := rfl
        have hY : 'Y'.toNat = 89 := rfl
        omega
      exact Or.inr (Char.toNat_inj.mp hY)
    · exact Or.inl hd

end Tables

/-! ### The last character -/

theorem exists_lowercaseAfter_concat (before front : List Char) (c : Char) :
    ∃ image others, lowercaseAfter before (front ++ [c]) = others ++ image ∧
      (image = lowerChar c ∨ image = ['ς'] ∨ image = ['σ']) := by
  induction front generalizing before with
  | nil =>
      rw [List.nil_append, lowercaseAfter, lowercaseAfter, List.append_nil]
      split
      · split
        · exact ⟨_, [], rfl, Or.inr (Or.inl rfl)⟩
        · exact ⟨_, [], rfl, Or.inr (Or.inr rfl)⟩
      · exact ⟨_, [], rfl, Or.inl rfl⟩
  | cons first rest ih =>
      obtain ⟨image, others, hrest, himage⟩ := ih (first :: before)
      rw [List.cons_append, lowercaseAfter, hrest, ← List.append_assoc]
      exact ⟨image, _, rfl, himage⟩

/-- A text whose lower case ends in `y` ends in that letter. -/
theorem last_of_lowercase {front : List Char} {c : Char}
    (hends : (lowercase (front ++ [c])).getLast? = some 'y') : c = 'y' ∨ c = 'Y' := by
  obtain ⟨image, others, hlower, himage⟩ := exists_lowercaseAfter_concat [] front c
  obtain ⟨hne, hy⟩ := eq_y_of_lowerChar c
  have hlast : image ≠ [] → image.getLast? = some 'y' := fun hne => by
    rw [lowercase, hlower, List.getLast?_append, List.getLast?_eq_some_getLast hne,
      Option.some_or] at hends
    rw [List.getLast?_eq_some_getLast hne, hends]
  rcases himage with rfl | rfl | rfl
  · exact hy (hlast hne)
  · exact absurd (hlast (List.cons_ne_nil _ _)) (by decide)
  · exact absurd (hlast (List.cons_ne_nil _ _)) (by decide)

/-- What a plural drops from a name is one byte at its end. -/
theorem eq_append_byte_of_endsIn_y {name : String}
    (hends : endsInAny (lowercase name.toList) ["y"] = true) :
    ∃ last, name = String.ofList name.toList.dropLast ++ last ∧ last.utf8ByteSize = 1 := by
  have hsuffix : ['y'] <:+ lowercase name.toList := by
    simpa [endsInAny] using hends
  obtain ⟨others, hothers⟩ := hsuffix
  cases hlast : name.toList.getLast? with
  | none =>
      rw [List.getLast?_eq_none_iff.mp hlast] at hothers
      simp [lowercase, lowercaseAfter] at hothers
  | some c =>
      have hname := List.dropLast_append_getLast? _ hlast
      have hy : c = 'y' ∨ c = 'Y' := by
        apply @last_of_lowercase name.toList.dropLast
        rw [hname, ← hothers, List.getLast?_concat]
      refine ⟨String.singleton c, ?_, ?_⟩
      · apply String.toList_injective
        rw [String.toList_append, String.toList_ofList, String.toList_singleton, hname]
      · rcases hy with rfl | rfl
        · rfl
        · rfl

end EntityTables.Text
