import Mathlib.Data.List.Induction
import Mathlib.Data.List.Nodup
import WorkflowAudit.Proofs.Definition.Places

/-!
# First occurrences

Whatever is made once for each key and kept, in a walk over a list, is made at the items
whose key none before them has.  These items stand at ascending positions; no two of them
have the same key, and each item of the list has the key of one of them.
-/

namespace WorkflowAudit

variable {α κ : Type} {key : α → κ} {items : List α} {item other : α}

/-- An item stands at a position of a list, and none before it has its key. -/
def FirstAt (key : α → κ) (items : List α) (position : Nat) (item : α) : Prop :=
  items[position]? = some item ∧ ∀ earlier ∈ items.take position, key earlier ≠ key item

theorem firstAt_append_singleton_iff {position : Nat} :
    FirstAt key (items ++ [other]) position item ↔
      FirstAt key items position item ∨
        position = items.length ∧ item = other ∧ key other ∉ items.map key := by
  unfold FirstAt
  rcases Nat.lt_trichotomy position items.length with hlt | rfl | hgt
  · rw [List.getElem?_append_left hlt, List.take_append_of_le_length (Nat.le_of_lt hlt)]
    simp [Nat.ne_of_lt hlt]
  · simp only [List.getElem?_concat_length, List.take_left, Option.some.injEq, true_and,
      List.getElem?_length, reduceCtorEq, false_and, false_or, List.mem_map, not_exists, not_and]
    constructor
    · rintro ⟨rfl, hnew⟩
      exact ⟨rfl, hnew⟩
    · rintro ⟨rfl, hnew⟩
      exact ⟨rfl, hnew⟩
  · have hlength : (items ++ [other]).length ≤ position := by
      rw [List.length_append, List.length_singleton]
      exact hgt
    rw [List.getElem?_eq_none hlength, List.getElem?_eq_none (Nat.le_of_lt hgt)]
    simp [Nat.ne_of_gt hgt]

variable [DecidableEq κ]

/-- The items of a list whose key none before them has, in their order. -/
def firstsBy (key : α → κ) (items : List α) : List α :=
  items.foldl (fun firsts item => if key item ∈ firsts.map key then firsts else firsts ++ [item]) []

theorem mem_map_firstsBy_iff {k : κ} : k ∈ (firstsBy key items).map key ↔ k ∈ items.map key := by
  induction items using List.reverseRecOn with
  | nil => rfl
  | append_singleton items item ih =>
      have hstep : firstsBy key (items ++ [item]) = if key item ∈ (firstsBy key items).map key
          then firstsBy key items else firstsBy key items ++ [item] := List.foldl_concat ..
      rw [hstep, List.map_append, List.mem_append, ← ih, List.map_singleton, List.mem_singleton]
      by_cases hseen : key item ∈ (firstsBy key items).map key
      · rw [if_pos hseen]
        exact ⟨.inl, fun hmem => hmem.elim id fun heq => heq ▸ hseen⟩
      · rw [if_neg hseen, List.map_append, List.mem_append, List.map_singleton, List.mem_singleton]

theorem firstsBy_append_singleton (key : α → κ) (items : List α) (item : α) :
    firstsBy key (items ++ [item]) =
      if key item ∈ items.map key then firstsBy key items else firstsBy key items ++ [item] := by
  have hstep : firstsBy key (items ++ [item]) = if key item ∈ (firstsBy key items).map key
      then firstsBy key items else firstsBy key items ++ [item] := List.foldl_concat ..
  simp only [hstep, mem_map_firstsBy_iff]

theorem mem_of_mem_firstsBy (hmem : item ∈ firstsBy key items) : item ∈ items := by
  induction items using List.reverseRecOn with
  | nil => exact hmem
  | append_singleton items last ih =>
      rw [firstsBy_append_singleton] at hmem
      split at hmem
      · exact List.mem_append_left _ (ih hmem)
      · rcases List.mem_append.1 hmem with hmem | hmem
        · exact List.mem_append_left _ (ih hmem)
        · exact List.mem_append_right _ hmem

theorem nodup_map_firstsBy (key : α → κ) (items : List α) :
    ((firstsBy key items).map key).Nodup := by
  induction items using List.reverseRecOn with
  | nil => exact List.nodup_nil
  | append_singleton items item ih =>
      rw [firstsBy_append_singleton]
      split
      · exact ih
      · next hnew =>
          rw [List.map_append, List.map_singleton, ← List.concat_eq_append]
          apply List.Nodup.concat _ ih
          exact fun hmem => hnew (mem_map_firstsBy_iff.1 hmem)

/-- The first occurrences stand at their positions, and they are all that stands there. -/
theorem listedBy_firstsBy (key : α → κ) (items : List α) :
    ListedBy (· < ·) (FirstAt key items) (firstsBy key items) := by
  induction items using List.reverseRecOn with
  | nil => exact ⟨[], rfl, .nil, fun position item => by simp [FirstAt]⟩
  | append_singleton items item ih =>
      rw [firstsBy_append_singleton]
      by_cases hseen : key item ∈ items.map key
      · rw [if_pos hseen]
        refine ih.congr fun position other => ?_
        rw [firstAt_append_singleton_iff]
        exact ⟨.inl, fun hfirst => hfirst.resolve_right fun hlast => hlast.2.2 hseen⟩
      · rw [if_neg hseen]
        refine (ih.append (listedBy_toList items.length (some item)) ?_).congr ?_
        · rintro position other _ _ ⟨hget, -⟩ ⟨rfl, -⟩
          exact (List.getElem?_eq_some_iff.1 hget).1
        · intro position other
          rw [firstAt_append_singleton_iff]
          simp [hseen, eq_comm]

end WorkflowAudit
