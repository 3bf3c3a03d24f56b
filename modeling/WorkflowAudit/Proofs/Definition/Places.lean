import Mathlib.Data.List.Basic

/-!
# Places in nested lists

What stands in a list of lists has a place: its position in the outer list, followed by
its place in the inner one.  A walk that takes the items of a list in turn, and lists for
each what the item holds, lists everything in the order of places; and what it lists is
all that has a place.
-/

namespace WorkflowAudit

/-- The order of places.  What holds other things comes before them. -/
abbrev Precedes : List Nat → List Nat → Prop := List.Lex (· < ·)

/-- A place that is the same as another one or comes before it. -/
def NotBehind (place later : List Nat) : Prop := place = later ∨ Precedes place later

theorem NotBehind.refl (place : List Nat) : NotBehind place place := .inl rfl

theorem NotBehind.nil (place : List Nat) : NotBehind [] place := by
  cases place with
  | nil => exact .refl []
  | cons i rest => exact .inr .nil

theorem NotBehind.of_lt {i k : Nat} (hlt : i < k) (place later : List Nat) :
    NotBehind (i :: place) (k :: later) := .inr (.rel hlt)

theorem NotBehind.cons {place later : List Nat} (hplace : NotBehind place later) (i : Nat) :
    NotBehind (i :: place) (i :: later) :=
  hplace.imp (congrArg (i :: ·)) .cons

theorem NotBehind.head_le {i k : Nat} {place later : List Nat}
    (hplace : NotBehind (i :: place) (k :: later)) : i ≤ k := by
  rcases hplace with hsame | hprecedes
  · cases hsame
    exact Nat.le_refl i
  · cases hprecedes with
    | cons _ => exact Nat.le_refl i
    | rel hlt => exact Nat.le_of_lt hlt

variable {ι κ π α β : Type}

/-- The items of a list stand at places that come one before the other, and they are all
that stands at any place. -/
def ListedBy (before : ι → ι → Prop) (stands : ι → α → Prop) (items : List α) : Prop :=
  ∃ listed : List (ι × α), listed.map Prod.snd = items ∧
    listed.Pairwise (fun entry later => before entry.1 later.1) ∧
    ∀ place item, (place, item) ∈ listed ↔ stands place item

variable {before : ι → ι → Prop} {stands other : ι → α → Prop} {items others : List α}

theorem ListedBy.congr (hlisted : ListedBy before stands items)
    (hsame : ∀ place item, stands place item ↔ other place item) :
    ListedBy before other items := by
  obtain ⟨listed, hitems, hascend, hstands⟩ := hlisted
  exact ⟨listed, hitems, hascend, fun place item => (hstands place item).trans (hsame place item)⟩

theorem ListedBy.mem_iff (hlisted : ListedBy before stands items) {item : α} :
    item ∈ items ↔ ∃ place, stands place item := by
  obtain ⟨listed, rfl, -, hstands⟩ := hlisted
  simp [← hstands]

theorem listedBy_nil (hnone : ∀ place item, ¬stands place item) : ListedBy before stands [] :=
  ⟨[], rfl, .nil, fun place item => by simp [hnone]⟩

/-- Each item of a list stands at its position. -/
theorem listedBy_getElem? (items : List α) :
    ListedBy (· < ·) (fun (i : Nat) item => items[i]? = some item) items := by
  refine ⟨items.zipIdx.map Prod.swap, ?_, ?_, fun i item => ?_⟩
  · rw [List.map_map]
    exact List.zipIdx_map_fst 0 items
  · have hpositions : (items.zipIdx.map Prod.snd).Pairwise (· < ·) := by
      rw [List.zipIdx_map_snd]
      exact List.pairwise_lt_range'
    exact List.pairwise_map.2 (List.pairwise_map.1 hpositions)
  · simp [List.mem_zipIdx_iff_getElem?]

/-- Items that all stand at one place. -/
theorem listedBy_at (place : ι) (items : List α) (hself : before place place) :
    ListedBy before (fun here item => here = place ∧ item ∈ items) items := by
  refine ⟨items.map (place, ·), ?_, ?_, fun here item => ?_⟩
  · rw [List.map_map]
    exact List.map_id items
  · exact List.pairwise_map.2 (List.pairwise_of_forall fun _ _ => hself)
  · simp [and_comm, eq_comm]

/-- One item at a place, or none. -/
theorem listedBy_toList (place : ι) (item? : Option α) :
    ListedBy before (fun here item => here = place ∧ item? = some item) item?.toList := by
  refine ⟨item?.toList.map (place, ·), ?_, ?_, fun here item => ?_⟩
  · rw [List.map_map]
    exact List.map_id _
  · cases item? <;> simp
  · simp [and_comm, eq_comm]

theorem ListedBy.append (hitems : ListedBy before stands items)
    (hothers : ListedBy before other others)
    (hbefore : ∀ place item later item', stands place item → other later item' →
      before place later) :
    ListedBy before (fun place item => stands place item ∨ other place item)
      (items ++ others) := by
  obtain ⟨listed, rfl, hascend, hstands⟩ := hitems
  obtain ⟨listed', rfl, hascend', hstands'⟩ := hothers
  refine ⟨listed ++ listed', List.map_append, List.pairwise_append.2 ⟨hascend, hascend', ?_⟩,
    fun place item => ?_⟩
  · rintro ⟨place, item⟩ hentry ⟨later, item'⟩ hentry'
    exact hbefore place item later item' ((hstands _ _).1 hentry) ((hstands' _ _).1 hentry')
  · rw [List.mem_append, hstands, hstands']

/-- Items that are left out stand nowhere, and the others stay where they are. -/
theorem ListedBy.filter (hitems : ListedBy before stands items) (p : α → Bool) :
    ListedBy before (fun place item => stands place item ∧ p item = true) (items.filter p) := by
  obtain ⟨listed, rfl, hascend, hstands⟩ := hitems
  refine ⟨listed.filter (p ∘ Prod.snd), List.filter_map.symm, hascend.filter _,
    fun place item => ?_⟩
  rw [List.mem_filter, hstands, Function.comp_apply]

/-- What is made of an item stands where the item does. -/
theorem ListedBy.filterMap (hitems : ListedBy before stands items) (found : α → Option β) :
    ListedBy before (fun place b => ∃ item, stands place item ∧ found item = some b)
      (items.filterMap found) := by
  obtain ⟨listed, rfl, hascend, hstands⟩ := hitems
  refine ⟨listed.filterMap fun entry => (found entry.2).map (entry.1, ·), ?_, ?_,
    fun place b => ?_⟩
  · rw [List.map_filterMap, List.filterMap_map]
    refine List.filterMap_congr fun entry _ => ?_
    rw [Option.map_map, Function.comp_apply]
    exact congrFun Option.map_id (found entry.2)
  · rw [List.pairwise_filterMap]
    refine hascend.imp fun hbefore here hhere later hlater => ?_
    obtain ⟨_, -, rfl⟩ := Option.map_eq_some_iff.1 hhere
    obtain ⟨_, -, rfl⟩ := Option.map_eq_some_iff.1 hlater
    exact hbefore
  · simp only [List.mem_filterMap, Option.map_eq_some_iff, Prod.mk.injEq, Prod.exists, hstands]
    constructor
    · rintro ⟨_, item, hstand, _, hfound, rfl, rfl⟩
      exact ⟨item, hstand, hfound⟩
    · rintro ⟨item, hstand, hfound⟩
      exact ⟨place, item, hstand, b, hfound, rfl, rfl⟩

/-- What the items of a list hold stands at places that are put together from the place of
an item and a place within it. -/
theorem ListedBy.flatMap {within : κ → κ → Prop} {after : π → π → Prop}
    {holds : α → κ → β → Prop} {found : α → List β} (place : ι → κ → π)
    (hitems : ListedBy before stands items)
    (hfound : ∀ item, ListedBy within (holds item) (found item))
    (hlater : ∀ i i' k k', before i i' → after (place i k) (place i' k'))
    (hwithin : ∀ i k k', within k k' → after (place i k) (place i k')) :
    ListedBy after
      (fun here b => ∃ i k item, here = place i k ∧ stands i item ∧ holds item k b)
      (items.flatMap found) := by
  obtain ⟨listed, rfl, hascend, hstands⟩ := hitems
  choose inner hinner hascend' hholds using hfound
  refine ⟨listed.flatMap fun entry => (inner entry.2).map fun held => (place entry.1 held.1, held.2),
    ?_, ?_, fun here b => ?_⟩
  · rw [List.map_flatMap, List.flatMap_map]
    refine List.flatMap_congr fun entry _ => ?_
    rw [List.map_map, ← hinner entry.2]
    rfl
  · rw [List.pairwise_flatMap]
    refine ⟨fun entry _ => List.pairwise_map.2 ((hascend' entry.2).imp (hwithin _ _ _)),
      hascend.imp fun hless x hx y hy => ?_⟩
    obtain ⟨held, -, rfl⟩ := List.mem_map.1 hx
    obtain ⟨held', -, rfl⟩ := List.mem_map.1 hy
    exact hlater _ _ _ _ hless
  · simp only [List.mem_flatMap, List.mem_map, Prod.exists, Prod.mk.injEq, hstands, hholds]
    constructor
    · rintro ⟨i, item, hstand, k, _, hhold, rfl, rfl⟩
      exact ⟨i, k, item, rfl, hstand, hhold⟩
    · rintro ⟨i, k, item, rfl, hstand, hhold⟩
      exact ⟨i, item, hstand, k, b, hhold, rfl, rfl⟩

/-- The same where each place begins with the position of an item in a list. -/
theorem listedBy_flatMap_cons {holds : α → List Nat → β → Prop} {found : α → List β}
    (items : List α) (hfound : ∀ item, ListedBy Precedes (holds item) (found item)) :
    ListedBy Precedes
      (fun here b => ∃ i rest item, here = i :: rest ∧ items[i]? = some item ∧ holds item rest b)
      (items.flatMap found) :=
  (listedBy_getElem? items).flatMap List.cons hfound
    (fun _ _ _ _ hlt => .rel hlt) (fun _ _ _ hprecedes => .cons hprecedes)

end WorkflowAudit
