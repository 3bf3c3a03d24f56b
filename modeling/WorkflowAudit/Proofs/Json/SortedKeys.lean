import Mathlib.Data.List.Nodup
import Mathlib.Data.String.Basic
import WorkflowAudit.Json.Basic

/-!
# Sorted keys

Sorting the keys of a value changes the order of entries and nothing else: what stands at the
end of a path through objects and lists stands there afterwards, with its own keys sorted.
Where no object has a key twice, the keys of every object are then strictly ascending.
-/

namespace WorkflowAudit.Json

/-! ## Entries in order -/

section

variable {key : String} {value : Json} {entries : List (String × Json)}

theorem insertEntry_perm (key : String) (value : Json) (entries : List (String × Json)) :
    (insertEntry key value entries).Perm ((key, value) :: entries) := by
  induction entries with
  | nil => exact .refl _
  | cons entry rest ih =>
      rw [insertEntry]
      split
      · exact .refl _
      · exact (ih.cons entry).trans (.swap _ _ _)

/-- An entry is never inserted behind one with the same key. -/
theorem lookup_insertEntry (name : String) :
    (insertEntry key value entries).lookup name = ((key, value) :: entries).lookup name := by
  induction entries with
  | nil => rfl
  | cons entry rest ih =>
      obtain ⟨other, old⟩ := entry
      rw [insertEntry]
      split
      · rfl
      · next hbehind =>
          have hne : key ≠ other := by
            rintro rfl
            exact hbehind (decide_eq_true (le_refl key))
          rw [List.lookup_cons, ih]
          simp only [List.lookup_cons]
          by_cases hother : name = other
          · have hkey : (name == key) = false := beq_eq_false_iff_ne.2 (hother ▸ hne.symm)
            rw [hkey, beq_iff_eq.2 hother]
          · rw [beq_eq_false_iff_ne.2 hother]

theorem pairwise_insertEntry (hentries : entries.Pairwise fun left right => left.1 ≤ right.1) :
    (insertEntry key value entries).Pairwise fun left right => left.1 ≤ right.1 := by
  induction entries with
  | nil => exact List.pairwise_singleton _ _
  | cons entry rest ih =>
      obtain ⟨hfirst, hrest⟩ := List.pairwise_cons.1 hentries
      rw [insertEntry]
      split
      · next hle =>
          have hkey : key ≤ entry.1 := of_decide_eq_true hle
          refine List.pairwise_cons.2 ⟨fun other hother => ?_, hentries⟩
          rcases List.mem_cons.1 hother with rfl | hother
          · exact hkey
          · exact hkey.trans (hfirst other hother)
      · next hlt =>
          have hkey : entry.1 ≤ key := (le_total key entry.1).resolve_left (mt decide_eq_true hlt)
          refine List.pairwise_cons.2 ⟨fun other hother => ?_, ih hrest⟩
          rcases List.mem_cons.1 ((insertEntry_perm ..).mem_iff.1 hother) with rfl | hother
          · exact hkey
          · exact hfirst other hother

theorem insertEntry_of_le (hfirst : ∀ entry ∈ entries, key ≤ entry.1) :
    insertEntry key value entries = (key, value) :: entries := by
  cases entries with
  | nil => rfl
  | cons entry rest =>
      exact if_pos (decide_eq_true (hfirst entry List.mem_cons_self))

theorem sortItems_eq (items : List Json) : sortItems items = items.map sortKeys := by
  induction items with
  | nil => rfl
  | cons item rest ih => rw [sortItems, ih, List.map_cons]

theorem sortEntries_perm (entries : List (String × Json)) :
    (sortEntries entries).Perm (entries.map fun entry => (entry.1, entry.2.sortKeys)) := by
  induction entries with
  | nil => exact .refl _
  | cons entry rest ih => exact (insertEntry_perm ..).trans (ih.cons _)

theorem map_fst_sortEntries_perm (entries : List (String × Json)) :
    ((sortEntries entries).map Prod.fst).Perm (entries.map Prod.fst) := by
  have hperm := (sortEntries_perm entries).map Prod.fst
  rwa [List.map_map] at hperm

theorem pairwise_sortEntries (entries : List (String × Json)) :
    (sortEntries entries).Pairwise fun left right => left.1 ≤ right.1 := by
  induction entries with
  | nil => exact .nil
  | cons entry rest ih => exact pairwise_insertEntry ih

theorem lookup_sortEntries (entries : List (String × Json)) (name : String) :
    (sortEntries entries).lookup name = (entries.lookup name).map sortKeys := by
  induction entries with
  | nil => rfl
  | cons entry rest ih =>
      rw [sortEntries, lookup_insertEntry, List.lookup_cons, List.lookup_cons, ih]
      cases name == entry.1 <;> rfl

/-- Entries that are in order already, with values that are, stay as they are. -/
theorem sortEntries_of_pairwise (hentries : entries.Pairwise fun left right => left.1 ≤ right.1)
    (hvalues : ∀ entry ∈ entries, entry.2.sortKeys = entry.2) : sortEntries entries = entries := by
  induction entries with
  | nil => rfl
  | cons entry rest ih =>
      obtain ⟨hfirst, hrest⟩ := List.pairwise_cons.1 hentries
      obtain ⟨hvalue, hvalues⟩ := List.forall_mem_cons.1 hvalues
      rw [sortEntries, ih hrest hvalues, hvalue, insertEntry_of_le hfirst]

end

/-! ## Sorting whole values -/

theorem get?_sortKeys (value : Json) (name : String) :
    value.sortKeys.get? name = (value.get? name).map sortKeys := by
  cases value with
  | obj entries => exact lookup_sortEntries entries name
  | _ => rfl

/-- What holds of a list or an object when it holds of all members, and of everything else,
holds of every value. -/
theorem induction_members {motive : Json → Prop} (null : motive .null)
    (bool : ∀ value, motive (.bool value)) (int : ∀ value, motive (.int value))
    (real : ∀ value, motive (.real value)) (str : ∀ value, motive (.str value))
    (arr : ∀ items, (∀ item ∈ items, motive item) → motive (.arr items))
    (obj : ∀ entries, (∀ entry ∈ entries, motive entry.2) → motive (.obj entries)) :
    ∀ value, motive value
  | .null => null
  | .bool value => bool value
  | .int value => int value
  | .real value => real value
  | .str value => str value
  | .arr items => arr items fun item hitem =>
      have hlt : sizeOf item < sizeOf (Json.arr items) :=
        (List.sizeOf_lt_of_mem hitem).trans (by simp)
      induction_members null bool int real str arr obj item
  | .obj entries => obj entries fun (key, value) hentry =>
      have hlt : sizeOf value < sizeOf (Json.obj entries) := by
        have hmember := List.sizeOf_lt_of_mem hentry
        simp only [Prod.mk.sizeOf_spec] at hmember
        simp only [Json.obj.sizeOf_spec]
        omega
      induction_members null bool int real str arr obj value
termination_by value => sizeOf value
decreasing_by all_goals exact hlt

/-- What is sorted stays as it is. -/
theorem sortKeys_sortKeys (value : Json) : value.sortKeys.sortKeys = value.sortKeys := by
  induction value using induction_members with
  | null => rfl
  | bool value => rfl
  | int value => rfl
  | real value => rfl
  | str value => rfl
  | arr items ih =>
      rw [sortKeys, sortKeys, sortItems_eq, sortItems_eq, List.map_map]
      exact congrArg Json.arr (List.map_congr_left ih)
  | obj entries ih =>
      rw [sortKeys, sortKeys]
      refine congrArg Json.obj (sortEntries_of_pairwise (pairwise_sortEntries entries) ?_)
      intro entry hentry
      obtain ⟨old, hold, rfl⟩ := List.mem_map.1 ((sortEntries_perm entries).mem_iff.1 hentry)
      exact ih old hold

/-! ## Paths through values -/

/-- A step into a value: to the entry under a key, or to an item of a list. -/
inductive Step where
  | key (name : String)
  | item (index : Nat)
  deriving DecidableEq, Repr

def child? : Step → Json → Option Json
  | .key name, value => value.get? name
  | .item index, .arr items => items[index]?
  | .item _, _ => none

/-- What stands at the end of a path. -/
def at? : List Step → Json → Option Json
  | [], value => some value
  | step :: path, value => (value.child? step).bind (at? path)

theorem child?_sortKeys (step : Step) (value : Json) :
    value.sortKeys.child? step = (value.child? step).map sortKeys := by
  cases step with
  | key name => exact get?_sortKeys value name
  | item index =>
      cases value with
      | arr items => rw [sortKeys, sortItems_eq]; exact List.getElem?_map
      | _ => rfl

theorem at?_sortKeys (path : List Step) (value : Json) :
    value.sortKeys.at? path = (value.at? path).map sortKeys := by
  induction path generalizing value with
  | nil => rfl
  | cons step path ih =>
      rw [at?, at?, child?_sortKeys]
      cases value.child? step with
      | none => rfl
      | some next => exact ih next

/-- No object has a key twice. -/
def HasDistinctKeys (value : Json) : Prop :=
  ∀ path entries, value.at? path = some (.obj entries) → (entries.map Prod.fst).Nodup

/-- Every object, at whatever depth, has strictly ascending keys. -/
def HasAscendingKeys (value : Json) : Prop :=
  ∀ path entries, value.at? path = some (.obj entries) → (entries.map Prod.fst).Pairwise (· < ·)

theorem hasAscendingKeys_sortKeys {value : Json} (hvalue : value.HasDistinctKeys) :
    value.sortKeys.HasAscendingKeys := by
  intro path entries hentries
  rw [at?_sortKeys] at hentries
  obtain ⟨found, hfound, hsorted⟩ := Option.map_eq_some_iff.1 hentries
  cases found with
  | obj old =>
      obtain rfl : sortEntries old = entries := Json.obj.inj hsorted
      have hnodup := (map_fst_sortEntries_perm old).nodup_iff.2 (hvalue path old hfound)
      have hordered : ((sortEntries old).map Prod.fst).Pairwise (· ≤ ·) :=
        List.pairwise_map.2 (pairwise_sortEntries old)
      exact hordered.imp₂ (fun _ _ hle hne => lt_of_le_of_ne hle hne) hnodup
  | _ => cases hsorted

end WorkflowAudit.Json
