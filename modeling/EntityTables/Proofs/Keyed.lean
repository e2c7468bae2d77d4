import EntityTables.Keyed
import Mathlib.Data.List.Nodup
import Mathlib.Order.Defs.Unbundled

/-!
# Keyed entries in order

Setting or removing an entry changes what is found under its key and nothing else, and keeps the
keys in ascending order. Entries whose keys ascend are told apart by what is found in them.
-/

namespace EntityTables.Keyed

variable {κ α : Type} [DecidableEq κ] {entries : Keyed κ α} {key : κ} {value : α}

theorem find?_eq_none (hfree : ∀ entry ∈ entries, entry.1 ≠ key) : entries.find? key = none := by
  induction entries with
  | nil => rfl
  | cons entry rest ih =>
      rw [find?, if_neg (hfree entry (by simp))]
      exact ih fun other hmem => hfree other (List.mem_cons_of_mem _ hmem)

theorem find?_insert [LT κ] [DecidableLT κ] (entries : Keyed κ α) (key other : κ) (value : α) :
    (entries.insert key value).find? other =
      if key = other then some value else entries.find? other := by
  induction entries with
  | nil => rfl
  | cons entry rest ih =>
      obtain ⟨k, a⟩ := entry
      by_cases hkey : k = key
      · subst hkey
        rw [insert, if_pos rfl]
        by_cases hother : k = other
        · rw [find?, if_pos hother, if_pos hother]
        · rw [find?, if_neg hother, if_neg hother, find?, if_neg hother]
      · by_cases hlt : key < k
        · rw [insert, if_neg hkey, if_pos hlt, find?]
        · rw [insert, if_neg hkey, if_neg hlt, find?, ih]
          by_cases hother : k = other
          · have hne : key ≠ other := fun h => hkey (hother.trans h.symm)
            rw [if_pos hother, if_neg hne, find?, if_pos hother]
          · rw [if_neg hother, find?, if_neg hother]

theorem contains_iff : entries.contains key = true ↔ ∃ value, entries.find? key = some value := by
  rw [contains, Option.isSome_iff_exists]

theorem erase_sublist (entries : Keyed κ α) (key : κ) : (entries.erase key).Sublist entries := by
  induction entries with
  | nil => exact .slnil
  | cons entry rest ih =>
      obtain ⟨k, a⟩ := entry
      rw [erase]
      split
      · exact List.sublist_cons_self _ _
      · exact ih.cons_cons _

/-- What is found under other keys stays, in whatever order the entries are. -/
theorem find?_erase_of_ne (entries : Keyed κ α) {key other : κ} (hne : other ≠ key) :
    (entries.erase key).find? other = entries.find? other := by
  induction entries with
  | nil => rfl
  | cons entry rest ih =>
      obtain ⟨k, a⟩ := entry
      by_cases hkey : k = key
      · rw [erase, if_pos hkey, find?, if_neg (hkey ▸ hne.symm)]
      · rw [erase, if_neg hkey, find?, find?, ih]

section Sorted

variable [LT κ]

/-- The keys ascend. -/
def Sorted (entries : Keyed κ α) : Prop := entries.Pairwise (·.1 < ·.1)

theorem Sorted.erase (hsorted : entries.Sorted) (key : κ) : (entries.erase key).Sorted :=
  hsorted.sublist (erase_sublist entries key)

theorem mem_insert [DecidableLT κ] {entry : κ × α} (hmem : entry ∈ entries.insert key value) :
    entry = (key, value) ∨ entry ∈ entries := by
  induction entries with
  | nil => exact Or.inl (List.mem_singleton.mp hmem)
  | cons head rest ih =>
      obtain ⟨k, a⟩ := head
      rw [insert] at hmem
      split at hmem
      · rcases List.mem_cons.mp hmem with hhead | hrest
        · exact Or.inl hhead
        · exact Or.inr (List.mem_cons_of_mem _ hrest)
      · split at hmem
        · exact List.mem_cons.mp hmem
        · rcases List.mem_cons.mp hmem with hhead | hrest
          · exact Or.inr (hhead ▸ List.mem_cons_self)
          · exact (ih hrest).imp_right (List.mem_cons_of_mem _)

variable [IsStrictTotalOrder κ (· < ·)]

omit [DecidableEq κ] in
theorem Sorted.not_mem_tail (hsorted : Sorted ((key, value) :: entries)) :
    ∀ entry ∈ entries, entry.1 ≠ key := by
  intro entry hmem hkey
  have hlt := (List.pairwise_cons.mp hsorted).1 entry hmem
  exact irrefl_of (· < ·) key (hkey ▸ hlt)

theorem find?_erase (hsorted : entries.Sorted) (key other : κ) :
    (entries.erase key).find? other = if key = other then none else entries.find? other := by
  induction entries with
  | nil => simp [erase, find?]
  | cons head rest ih =>
      obtain ⟨k, a⟩ := head
      have hih := ih (List.pairwise_cons.mp hsorted).2
      by_cases hkey : k = key
      · subst hkey
        rw [erase, if_pos rfl]
        by_cases hother : k = other
        · rw [if_pos hother]
          exact find?_eq_none (hother ▸ hsorted.not_mem_tail)
        · rw [if_neg hother, find?, if_neg hother]
      · rw [erase, if_neg hkey, find?, find?, hih]
        by_cases hother : k = other
        · have hne : key ≠ other := fun h => hkey (hother.trans h.symm)
          rw [if_pos hother, if_neg hne, if_pos hother]
        · rw [if_neg hother, if_neg hother]

theorem mem_iff_find? (hsorted : entries.Sorted) :
    (key, value) ∈ entries ↔ entries.find? key = some value := by
  refine ⟨fun hmem => ?_, mem_of_find?⟩
  induction entries with
  | nil => cases hmem
  | cons head rest ih =>
      obtain ⟨k, a⟩ := head
      rcases List.mem_cons.mp hmem with heq | hmem
      · cases heq
        rw [find?, if_pos rfl]
      · have hne : k ≠ key := fun h => hsorted.not_mem_tail (key, value) hmem h.symm
        rw [find?, if_neg hne]
        exact ih (List.pairwise_cons.mp hsorted).2 hmem

/-- The keys of the entries that pass a test. -/
theorem mem_keys_filter (hsorted : entries.Sorted) {test : κ × α → Bool} :
    key ∈ Keyed.keys (entries.filter test) ↔
      ∃ value, entries.find? key = some value ∧ test (key, value) = true := by
  constructor
  · intro hmem
    obtain ⟨⟨own, value⟩, hentry, rfl⟩ := List.mem_map.mp hmem
    obtain ⟨hentry, htest⟩ := List.mem_filter.mp hentry
    exact ⟨value, (mem_iff_find? hsorted).mp hentry, htest⟩
  · rintro ⟨value, hfind, htest⟩
    exact List.mem_map.mpr ⟨_, List.mem_filter.mpr ⟨mem_of_find? hfind, htest⟩, rfl⟩

omit [DecidableEq κ] [IsStrictTotalOrder κ (· < ·)] in
theorem Sorted.keys_filter (hsorted : entries.Sorted) (test : κ × α → Bool) :
    (Keyed.keys (entries.filter test)).Pairwise (· < ·) :=
  List.pairwise_map.mpr (hsorted.filter test)

/-- Entries in order are determined by what is found in them. -/
theorem Sorted.ext {others : Keyed κ α} (hsorted : entries.Sorted) (hothers : others.Sorted)
    (hfind : ∀ key, entries.find? key = others.find? key) : entries = others := by
  have hirrefl : Std.Irrefl fun first second : κ × α => first.1 < second.1 :=
    ⟨fun entry => irrefl_of (· < ·) entry.1⟩
  have hmem : ∀ entry, entry ∈ entries ↔ entry ∈ others := fun ⟨key, value⟩ => by
    rw [mem_iff_find? hsorted, mem_iff_find? hothers, hfind]
  refine List.Perm.eq_of_pairwise (fun first second _ _ hlt hgt => ?_) hsorted hothers
    ((List.perm_ext_iff_of_nodup hsorted.nodup hothers.nodup).mpr hmem)
  exact absurd hgt (asymm_of (· < ·) hlt)

theorem Sorted.insert [DecidableLT κ] (hsorted : entries.Sorted) (key : κ) (value : α) :
    (entries.insert key value).Sorted := by
  induction entries with
  | nil => exact List.pairwise_singleton _ _
  | cons head rest ih =>
      obtain ⟨k, a⟩ := head
      obtain ⟨hhead, hrest⟩ := List.pairwise_cons.mp hsorted
      rw [Keyed.insert]
      split
      · next hkey => exact List.pairwise_cons.mpr ⟨hkey ▸ hhead, hrest⟩
      · next hkey =>
          split
          · next hlt =>
              refine List.pairwise_cons.mpr ⟨fun entry hmem => ?_, hsorted⟩
              rcases List.mem_cons.mp hmem with rfl | hmem
              · exact hlt
              · exact Trans.trans hlt (hhead entry hmem)
          · next hnot =>
              have hlt : k < key := by
                rcases trichotomous_of (· < ·) k key with h | h | h
                · exact h
                · exact absurd h hkey
                · exact absurd h hnot
              refine List.pairwise_cons.mpr ⟨fun entry hmem => ?_, ih hrest⟩
              rcases mem_insert hmem with rfl | hmem
              · exact hlt
              · exact hhead entry hmem

end Sorted

end EntityTables.Keyed
