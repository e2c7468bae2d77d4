import Mathlib.Data.List.Forall2

/-!
# Steps that may fail

When a step that may fail succeeds, and when a chain of such steps does, with what it succeeds; and
the step to which a failure goes back.
-/

namespace EntityTables

variable {α β : Type} {ε : Type}

theorem ofExcept_eq_self (result : Except ε α) : (ofExcept result : Except ε α) = result := by
  cases result <;> rfl

theorem pure_eq_ok_iff {a b : α} : (pure a : Except ε α) = .ok b ↔ b = a :=
  ⟨fun heq => (Except.ok.inj heq).symm, fun heq => congrArg Except.ok heq.symm⟩

theorem bind_eq_ok_iff {result : Except ε α} {next : α → Except ε β} {b : β} :
    (result >>= next) = .ok b ↔ ∃ a, result = .ok a ∧ next a = .ok b := by
  cases result with
  | ok a => simp [bind, Except.bind]
  | error error => simp [bind, Except.bind]

theorem bind_eq_error_iff {result : Except ε α} {next : α → Except ε β} {error : ε} :
    (result >>= next) = .error error ↔
      result = .error error ∨ ∃ a, result = .ok a ∧ next a = .error error := by
  cases result with
  | ok a => simp [bind, Except.bind]
  | error other => simp [bind, Except.bind]

theorem mapError_eq_ok_iff {ε' : Type} {f : ε → ε'} {result : Except ε α} {a : α} :
    result.mapError f = .ok a ↔ result = .ok a := by
  cases result <;> simp [Except.mapError]

theorem mapM_eq_ok_iff {step : α → Except ε β} {items : List α} {results : List β} :
    items.mapM step = .ok results ↔ List.Forall₂ (fun a b => step a = .ok b) items results := by
  induction items generalizing results with
  | nil => simp [pure, Except.pure, eq_comm]
  | cons item rest ih =>
      rw [List.mapM_cons, bind_eq_ok_iff]
      constructor
      · rintro ⟨first, hfirst, hrest⟩
        obtain ⟨others, hothers, hresults⟩ := bind_eq_ok_iff.mp hrest
        cases hresults
        exact .cons hfirst (ih.mp hothers)
      · rintro (_ | ⟨hfirst, hrest⟩)
        exact ⟨_, hfirst, bind_eq_ok_iff.mpr ⟨_, ih.mpr hrest, rfl⟩⟩

theorem mapM_ok_mono {first second : α → Except ε β} {items : List α} {results : List β}
    (hok : items.mapM first = .ok results)
    (hmono : ∀ item ∈ items, ∀ b, first item = .ok b → second item = .ok b) :
    items.mapM second = .ok results := by
  rw [mapM_eq_ok_iff] at hok ⊢
  induction hok with
  | nil => exact .nil
  | cons hitem hrest ih =>
      exact .cons (hmono _ (by simp) _ hitem)
        (ih fun item hmem => hmono item (List.mem_cons_of_mem _ hmem))

theorem exists_mem_of_mapM_ok {step : α → Except ε β} {items : List α} {results : List β}
    (hok : items.mapM step = .ok results) {item : α} (hmem : item ∈ items) :
    ∃ b ∈ results, step item = .ok b := by
  rw [mapM_eq_ok_iff] at hok
  induction hok with
  | nil => cases hmem
  | cons hitem hrest ih =>
      rcases List.mem_cons.mp hmem with rfl | hmem
      · exact ⟨_, List.mem_cons_self, hitem⟩
      · obtain ⟨b, hb, hstep⟩ := ih hmem
        exact ⟨b, List.mem_cons_of_mem _ hb, hstep⟩

theorem exists_of_mapM_ok {step : α → Except ε β} {items : List α} {results : List β}
    (hok : items.mapM step = .ok results) {item : α} (hmem : item ∈ items) :
    ∃ b, step item = .ok b := by
  obtain ⟨b, -, hstep⟩ := exists_mem_of_mapM_ok hok hmem
  exact ⟨b, hstep⟩

theorem exists_of_mem_mapM_ok {step : α → Except ε β} {items : List α}
    {results : List β} (hok : items.mapM step = .ok results) {result : β}
    (hmem : result ∈ results) : ∃ item ∈ items, step item = .ok result := by
  rw [mapM_eq_ok_iff] at hok
  induction hok with
  | nil => cases hmem
  | cons hitem hrest ih =>
      rcases List.mem_cons.mp hmem with rfl | hmem
      · exact ⟨_, List.mem_cons_self, hitem⟩
      · obtain ⟨item, hitems, hstep⟩ := ih hmem
        exact ⟨item, List.mem_cons_of_mem _ hitems, hstep⟩

theorem exists_of_mapM_error {step : α → Except ε β} {items : List α} {error : ε}
    (herror : items.mapM step = .error error) : ∃ item ∈ items, step item = .error error := by
  induction items with
  | nil => simp [pure, Except.pure] at herror
  | cons item rest ih =>
      rw [List.mapM_cons, bind_eq_error_iff] at herror
      rcases herror with hitem | ⟨first, -, hrest⟩
      · exact ⟨item, by simp, hitem⟩
      · rcases bind_eq_error_iff.mp hrest with hrest | ⟨others, -, hpure⟩
        · obtain ⟨failed, hmem, hfailed⟩ := ih hrest
          exact ⟨failed, List.mem_cons_of_mem _ hmem, hfailed⟩
        · cases hpure

theorem toOption_eq_some_iff {result : Except ε α} {a : α} :
    result.toOption = some a ↔ result = .ok a := by
  cases result <;> simp [Except.toOption]

theorem exists_ok_of_toOption {γ : Type} {result : Except ε α} {view : α → γ} {c : γ}
    (hview : result.toOption.map view = some c) : ∃ a, result = .ok a ∧ view a = c := by
  obtain ⟨a, hresult, hown⟩ := Option.map_eq_some_iff.mp hview
  exact ⟨a, toOption_eq_some_iff.mp hresult, hown⟩

end EntityTables
