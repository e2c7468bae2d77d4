import EntityTables.Text.CharClass
import Mathlib.Data.List.TakeWhile

/-!
# Characters of identifiers

Every character that may start an identifier may also continue one, so a text that is an identifier
is one behind any other. Beyond ASCII two tables decide, and the ranges of the one lie inside of
those of the other.
-/

namespace EntityTables.Text

/-- Whether each of some ranges lies inside of one of the outer ranges, both in ascending order. -/
def covers : List (Nat × Nat) → List (Nat × Nat) → Bool
  | [], inners => inners.isEmpty
  | outer :: outers, inners =>
    covers outers (inners.dropWhile fun inner => outer.1 ≤ inner.1 && inner.2 ≤ outer.2)

theorem exists_outer_of_covers {outers inners : List (Nat × Nat)}
    (hcovers : covers outers inners = true) {inner : Nat × Nat} (hmem : inner ∈ inners) :
    ∃ outer ∈ outers, outer.1 ≤ inner.1 ∧ inner.2 ≤ outer.2 := by
  induction outers generalizing inners with
  | nil =>
      rw [covers, List.isEmpty_iff] at hcovers
      rw [hcovers] at hmem
      cases hmem
  | cons first rest ih =>
      let inside (range : Nat × Nat) : Bool := first.1 ≤ range.1 && range.2 ≤ first.2
      rw [← List.takeWhile_append_dropWhile (p := inside) (l := inners)] at hmem
      rcases List.mem_append.mp hmem with hmem | hmem
      · have hinside : inside inner = true := List.mem_takeWhile_imp hmem
        simp only [inside, Bool.and_eq_true, decide_eq_true_eq] at hinside
        exact ⟨first, List.mem_cons_self, hinside⟩
      · obtain ⟨outer, houter, hbounds⟩ := ih hcovers hmem
        exact ⟨outer, List.mem_cons_of_mem _ houter, hbounds⟩

theorem contains_of_covers {large small : CodeRanges}
    (hcovers : covers large.ranges.toList small.ranges.toList = true) {c : Char}
    (hcontains : small.contains c = true) : large.contains c = true := by
  unfold CodeRanges.contains at hcontains ⊢
  rw [← Array.any_toList, List.any_eq_true] at hcontains ⊢
  obtain ⟨inner, hmem, hinner⟩ := hcontains
  obtain ⟨outer, houter, hbounds⟩ := exists_outer_of_covers hcovers hmem
  refine ⟨outer, houter, ?_⟩
  simp only [Bool.and_eq_true, decide_eq_true_eq] at hinner ⊢
  omega

set_option maxRecDepth 100000 in
theorem covers_identContinue : covers CharTable.identContinue.ranges.toList
    CharTable.identStart.ranges.toList = true := by
  unfold CharTable.identContinue CharTable.identStart CodeRanges.parse tableWords
  rw [String.toList_ofList, String.toList_ofList]
  decide +kernel

/-- A character that may start an identifier may continue one. -/
theorem isIdentContinue_of_isIdentStart {c : Char} (hstart : isIdentStart c = true) :
    isIdentContinue c = true := by
  unfold isIdentStart at hstart
  unfold isIdentContinue
  rcases Bool.or_eq_true_iff.mp hstart with hunderscore | hletter
  · obtain rfl : c = '_' := by simpa using hunderscore
    rfl
  · by_cases hwide : isWide c = true
    · rw [if_pos hwide] at hletter ⊢
      exact contains_of_covers covers_identContinue hletter
    · rw [if_neg hwide] at hletter ⊢
      rw [hletter, Bool.true_or, Bool.true_or]

/-- The digits of a number may continue an identifier. -/
theorem isIdentContinue_of_isDigit {c : Char} (hdigit : c.isDigit = true) :
    isIdentContinue c = true := by
  rw [Char.isDigit, Bool.and_eq_true, decide_eq_true_eq, decide_eq_true_eq] at hdigit
  have hlast : c.toNat ≤ 57 := UInt32.le_iff_toNat_le.mp hdigit.2
  have hnarrow : isWide c = false := by
    rw [isWide, decide_eq_false_iff_not]
    omega
  have hown : isDigit c = true := by
    rw [isDigit, Bool.and_eq_true, decide_eq_true_eq, decide_eq_true_eq]
    exact hdigit
  rw [isIdentContinue, hnarrow, hown]
  simp

/-- A fact about all ASCII characters can be checked by their codes. -/
theorem forall_narrow {c : Char} {P : Char → Prop} (hall : ∀ code < 128, P (Char.ofNat code))
    (hnarrow : isWide c = false) : P c := by
  have hcode : c.toNat < 128 := by simpa [isWide] using hnarrow
  simpa [Char.ofNat_toNat] using hall c.toNat hcode

/-- Two tables of ranges have no code in common. -/
def CodeRanges.disjoint (first second : CodeRanges) : Bool :=
  first.ranges.toList.all fun range => second.ranges.toList.all fun other =>
    other.2 < range.1 || range.2 < other.1

theorem CodeRanges.not_contains_of_disjoint {first second : CodeRanges} {c : Char}
    (hdisjoint : first.disjoint second = true) (hfirst : first.contains c = true) :
    second.contains c = false := by
  rw [Bool.eq_false_iff]
  intro hsecond
  rw [CodeRanges.contains, ← Array.any_toList, List.any_eq_true] at hfirst hsecond
  obtain ⟨range, hrange, hin⟩ := hfirst
  obtain ⟨other, hother, hotherIn⟩ := hsecond
  have hapart := List.all_eq_true.mp (List.all_eq_true.mp hdisjoint range hrange) other hother
  simp only [Bool.and_eq_true, Bool.or_eq_true, decide_eq_true_eq] at hin hotherIn hapart
  omega

set_option maxRecDepth 100000 in
theorem disjoint_whiteSpace :
    CharTable.whiteSpace.disjoint CharTable.identContinue = true := by
  unfold CharTable.whiteSpace CharTable.identContinue CodeRanges.parse tableWords
  rw [String.toList_ofList, String.toList_ofList]
  decide +kernel

end EntityTables.Text
