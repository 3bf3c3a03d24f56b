import Mathlib.Data.List.Nodup

/-!
# Looking up in tables

A table is a list of keys with their values, and a key is looked up from the front.  Where
no key stands twice, what is found is what the table holds, in whatever order.
-/

namespace WorkflowAudit

variable {κ α : Type} [BEq κ] [LawfulBEq κ] {items others : List (κ × α)} {key : κ} {value : α}

theorem mem_of_lookup_eq_some (hlookup : items.lookup key = some value) : (key, value) ∈ items := by
  obtain ⟨before, after, rfl, -⟩ := List.lookup_eq_some_iff.1 hlookup
  exact List.mem_append_right _ List.mem_cons_self

/-- Where all items under a key agree, any of them is found. -/
theorem lookup_eq_some_iff_mem
    (hunique : ∀ other, (key, other) ∈ items → (key, value) ∈ items → value = other) :
    items.lookup key = some value ↔ (key, value) ∈ items := by
  refine ⟨mem_of_lookup_eq_some, fun hmem => ?_⟩
  cases hlookup : items.lookup key with
  | none => simpa using List.lookup_eq_none_iff.1 hlookup _ hmem
  | some other => rw [hunique other (mem_of_lookup_eq_some hlookup) hmem]

theorem lookup_eq_some_iff_mem_of_nodup (hkeys : (items.map Prod.fst).Nodup) :
    items.lookup key = some value ↔ (key, value) ∈ items := by
  apply lookup_eq_some_iff_mem
  intro other hother hvalue
  exact congrArg Prod.snd (List.inj_on_of_nodup_map hkeys hvalue hother rfl)

end WorkflowAudit
