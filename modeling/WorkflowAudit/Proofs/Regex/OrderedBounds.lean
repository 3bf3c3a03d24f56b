import WorkflowAudit.Proofs.Regex.Repetition
import WorkflowAudit.Proofs.Regex.Semantics

/-!
# Bounds of what has been read are in order

The only place where bounds are read refuses a least number above the greatest, and
no other step changes the bounds of an item.  So every expression that is read from
a text has its bounds in order.
-/

namespace WorkflowAudit.Regex

theorem le_of_readBounds {verbose : Bool} {text after : List Char} {least : Nat}
    {most : Option Nat} (hread : readBounds verbose text = .ok ((least, most), after)) :
    ∀ bound ∈ most, least ≤ bound := by
  unfold readBounds at hread
  split at hread
  · cases hread
    rintro bound ⟨⟩
    exact Nat.le_refl _
  · split at hread
    · cases hread
      rintro bound ⟨⟩
    · split at hread
      · split at hread
        · next hle =>
            cases hread
            rintro bound ⟨⟩
            exact hle
        · cases hread
      · cases hread
  · cases hread

namespace GroupBody

/-- All items that a group has collected have their bounds in order. -/
def IsOrdered (body : GroupBody) : Prop :=
  (∀ item ∈ body.branches, item.regex.IsOrdered) ∧ ∀ item ∈ body.items, item.regex.IsOrdered

theorem IsOrdered.branch {body : GroupBody} (hbody : body.IsOrdered) :
    body.branch.regex.IsOrdered := by
  have hparts : ∀ part ∈ (body.items.filter Item.repeatable).map Item.regex, part.IsOrdered := by
    intro part hpart
    obtain ⟨item, hitem, rfl⟩ := List.mem_map.1 hpart
    exact hbody.2 item (List.mem_filter.1 hitem).1
  unfold GroupBody.branch
  dsimp only
  split
  · trivial
  · next part hone => exact hparts part (hone ▸ List.mem_singleton_self part)
  · next parts _ _ =>
      exact allOrdered_iff.2 fun part hpart => hparts part (List.mem_reverse.1 hpart)

theorem IsOrdered.close {body : GroupBody} (hbody : body.IsOrdered) :
    body.close.regex.IsOrdered := by
  unfold GroupBody.close
  split
  · exact hbody.branch
  · next branches _ =>
      refine allOrdered_iff.2 fun branch hbranch => ?_
      obtain ⟨item, hitem, rfl⟩ := List.mem_map.1 hbranch
      rcases List.mem_cons.1 (List.mem_reverse.1 hitem) with rfl | hitem
      · exact hbody.branch
      · exact hbody.1 item hitem

theorem IsOrdered.push {body : GroupBody} (hbody : body.IsOrdered) {item : Item}
    (hitem : item.regex.IsOrdered) : (body.push item).IsOrdered :=
  ⟨hbody.1, fun _ hmem => (List.mem_cons.1 hmem).elim (· ▸ hitem) (hbody.2 _)⟩

theorem IsOrdered.startBranch {body : GroupBody} (hbody : body.IsOrdered) :
    body.startBranch.IsOrdered :=
  ⟨fun _ hmem => (List.mem_cons.1 hmem).elim (· ▸ hbody.branch) (hbody.1 _),
    fun _ hmem => absurd hmem List.not_mem_nil⟩

end GroupBody

namespace Reader

/-- All items that have been read have their bounds in order. -/
def IsOrdered (s : Reader) : Prop :=
  s.body.IsOrdered ∧ ∀ opened ∈ s.outer, opened.around.IsOrdered

theorem IsLeaf.isOrdered {regex : Regex} (hleaf : IsLeaf regex) : regex.IsOrdered := by
  cases hleaf <;> trivial

theorem IsOrdered.push {s : Reader} (hs : s.IsOrdered) {item : Item}
    (hitem : item.regex.IsOrdered) : (s.push item).IsOrdered :=
  ⟨hs.1.push hitem, hs.2⟩

theorem IsOrdered.openGroup {s : Reader} (hs : s.IsOrdered) (captures : Bool) (flags : Flags) :
    (s.openGroup captures flags).IsOrdered :=
  ⟨⟨by simp [Reader.openGroup], by simp [Reader.openGroup]⟩,
    fun _ hmem => (List.mem_cons.1 hmem).elim (· ▸ hs.1) (hs.2 _)⟩

theorem IsOrdered.applyOpening {s next : Reader} (hs : s.IsOrdered) {opening : Opening}
    (hopen : s.applyOpening opening = .ok next) : next.IsOrdered := by
  cases opening with
  | capture =>
      cases hopen
      exact hs.openGroup ..
  | named name =>
      simp only [Reader.applyOpening] at hopen
      split at hopen
      · cases hopen
      · cases hopen
        exact hs.openGroup true s.flags
  | flagged flags =>
      obtain ⟨_, _, rfl⟩ := map_eq_ok hopen
      exact hs.openGroup ..
  | setting flags =>
      simp only [Reader.applyOpening] at hopen
      split at hopen
      · cases hopen
      · obtain ⟨_, _, rfl⟩ := map_eq_ok hopen
        exact hs.push trivial
  | lookAround => cases hopen

theorem ReadsOperator.le {verbose isLazy : Bool} {c : Char} {rest after : List Char}
    {least : Nat} {most : Option Nat}
    (hread : ReadsOperator verbose c rest least most isLazy after) :
    ∀ bound ∈ most, least ≤ bound := by
  cases hread with
  | counted hbounds _ => exact le_of_readBounds hbounds
  | _ => simp

theorem Stepped.isOrdered {s next : Reader} {c : Char} {rest after : List Char}
    (hstep : Stepped s c rest next after) (hs : s.IsOrdered) : next.IsOrdered := by
  cases hstep with
  | opened _ hopen => exact hs.applyOpening hopen
  | closed hclose =>
      obtain ⟨opened, outer, houter, rfl⟩ := exists_of_closeGroup hclose
      have hall := hs.2
      rw [houter, List.forall_mem_cons] at hall
      exact ⟨hall.1.push hs.1.close, hall.2⟩
  | branched => exact ⟨hs.1.startBranch, hs.2⟩
  | bracketed _ => exact hs.push trivial
  | repeated hread hrepeat =>
      obtain ⟨item, items, hitems, -, rfl⟩ := exists_of_repeatLast hrepeat
      have hall := hs.1.2
      rw [hitems, List.forall_mem_cons] at hall
      refine ⟨⟨hs.1.1, ?_⟩, hs.2⟩
      rw [List.forall_mem_cons]
      exact ⟨⟨hread.le, hall.1⟩, hall.2⟩
  | escaped _ hregex => exact hs.push (isLeaf_primitive hregex).isOrdered
  | plain _ hleaf => exact hs.push hleaf.isOrdered

theorem isOrdered_of_run {s final : Reader} {text : List Char} (hrun : s.run text = .ok final)
    (hs : s.IsOrdered) : final.IsOrdered := by
  fun_induction run s text with
  | case1 =>
      cases hrun
      exact hs
  | case2 => cases hrun
  | case3 s text c rest htext next after hstep ih =>
      exact ih hrun ((stepped_of_step hstep).isOrdered hs)

end Reader

theorem isOrdered_of_parse {text : String} {regex : Regex} (hparse : parse text = .ok regex) :
    regex.IsOrdered := by
  obtain ⟨final, hrun, -, -, rfl⟩ := parse_eq_ok_iff.1 hparse
  have hstart : Reader.IsOrdered {} := by simp [Reader.IsOrdered, GroupBody.IsOrdered]
  exact (Reader.isOrdered_of_run hrun hstart).1.close

end WorkflowAudit.Regex
