import Mathlib.Data.List.Forall2

/-!
# Computations that may fail

A computation of several steps succeeds where each of its steps does, with what the steps
before it have found.
-/

namespace WorkflowAudit

variable {ε α β : Type}

theorem bind_eq_ok_iff {x : Except ε α} {f : α → Except ε β} {b : β} :
    x >>= f = .ok b ↔ ∃ a, x = .ok a ∧ f a = .ok b := by
  cases x with
  | error e => exact ⟨fun h => (nomatch h), fun ⟨_, h, _⟩ => (nomatch h)⟩
  | ok a => exact ⟨fun h => ⟨a, rfl, h⟩, fun ⟨_, h, hf⟩ => by cases h; exact hf⟩

theorem pure_eq_ok (a : α) : (pure a : Except ε α) = .ok a := rfl

theorem throw_eq_error (fault : ε) : (throw fault : Except ε α) = .error fault := rfl

theorem exists_ok_of_isSome {x : Except ε α} (hsome : x.toOption.isSome = true) :
    ∃ a, x = .ok a := by
  cases x with
  | ok a => exact ⟨a, rfl⟩
  | error fault => cases hsome

theorem mapM_eq_ok_iff {f : α → Except ε β} {items : List α} {results : List β} :
    items.mapM f = .ok results ↔
      List.Forall₂ (fun item result => f item = .ok result) items results := by
  induction items generalizing results with
  | nil => simp [pure_eq_ok, eq_comm]
  | cons item rest ih =>
      rw [List.mapM_cons, List.forall₂_cons_left_iff]
      simp [bind_eq_ok_iff, pure_eq_ok, ih, @eq_comm _ results]

theorem exists_mapM_iff {f : α → Except ε β} {items : List α} :
    (∃ results, items.mapM f = .ok results) ↔ ∀ item ∈ items, ∃ result, f item = .ok result := by
  induction items with
  | nil => simp [pure_eq_ok]
  | cons item rest ih => simp [bind_eq_ok_iff, pure_eq_ok, ih]

theorem exists_of_mem_of_forall₂ {r : α → β → Prop} {left : List α} {right : List β}
    (hall : List.Forall₂ r left right) {a : α} (ha : a ∈ left) : ∃ b ∈ right, r a b := by
  induction hall with
  | nil => cases ha
  | cons hfirst _ ih =>
      rcases List.mem_cons.1 ha with rfl | ha
      · exact ⟨_, List.mem_cons_self, hfirst⟩
      · obtain ⟨b, hb, hr⟩ := ih ha
        exact ⟨b, .tail _ hb, hr⟩

theorem exists_of_forall₂_append {r : α → β → Prop} {before after : List α} {right : List β}
    (hall : List.Forall₂ r (before ++ after) right) :
    ∃ first second, right = first ++ second ∧ List.Forall₂ r before first ∧
      List.Forall₂ r after second := by
  induction before generalizing right with
  | nil => exact ⟨[], right, rfl, .nil, hall⟩
  | cons a before ih =>
      obtain ⟨b, rest, hfirst, hrest, rfl⟩ := List.forall₂_cons_left_iff.1 hall
      obtain ⟨first, second, rfl, hbefore, hafter⟩ := ih hrest
      exact ⟨b :: first, second, rfl, .cons hfirst hbefore, hafter⟩

end WorkflowAudit
