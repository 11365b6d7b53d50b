import Mathlib.Data.List.Forall2

/-! Computations that may fail, taken apart: a sequence succeeds when each of its parts does. -/
namespace JavaLint

variable {ε α β : Type}

theorem bind_eq_ok {x : Except ε α} {f : α → Except ε β} {b : β} :
    (x >>= f) = .ok b ↔ ∃ a, x = .ok a ∧ f a = .ok b := by
  cases x with
  | error e => simp [bind, Except.bind]
  | ok a => simp [bind, Except.bind]

theorem map_eq_ok {x : Except ε α} {f : α → β} {b : β} :
    x.map f = .ok b ↔ ∃ a, x = .ok a ∧ f a = b := by
  cases x with
  | error e => simp [Except.map]
  | ok a => simp [Except.map]

/-- A list of computations succeeds when each of them does, with their results in order. -/
theorem mapM_eq_ok_iff {f : α → Except ε β} {items : List α} {results : List β} :
    items.mapM f = .ok results ↔
      List.Forall₂ (fun item result => f item = .ok result) items results := by
  induction items generalizing results with
  | nil => simp [pure, Except.pure, eq_comm]
  | cons item rest ih =>
    rw [List.mapM_cons, bind_eq_ok]
    constructor
    · rintro ⟨first, hf, h⟩
      obtain ⟨others, ho, h⟩ := bind_eq_ok.mp h
      cases h
      exact List.Forall₂.cons hf (ih.mp ho)
    · intro h
      cases h with
      | cons hf ho => exact ⟨_, hf, bind_eq_ok.mpr ⟨_, ih.mpr ho, rfl⟩⟩

theorem exists_mapM_eq_ok {f : α → Except ε β} {items : List α} :
    (∃ results, items.mapM f = .ok results) ↔ ∀ item ∈ items, ∃ result, f item = .ok result := by
  simp only [mapM_eq_ok_iff]
  induction items with
  | nil => simp
  | cons item rest ih =>
    rw [List.forall_mem_cons, ← ih]
    constructor
    · rintro ⟨results, h⟩
      cases h with
      | cons hf ho => exact ⟨⟨_, hf⟩, _, ho⟩
    · rintro ⟨⟨first, hf⟩, others, ho⟩
      exact ⟨_, .cons hf ho⟩

end JavaLint
