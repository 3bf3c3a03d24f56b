import Mathlib.Tactic.Common
import WorkflowAudit.Proofs.Reference.Remote
import WorkflowAudit.Scan.Scanner

/-!
# What a scan asks

A scan walks definitions, rules and references, and the one thing that it passes
on from each to the next is its inquiry.  An inquiry changes only when a pinned
remote reference is verified.  Whatever such questions keep is therefore kept by
a scan, and everything that one step of the walk finds is among the findings of
the whole.
-/

namespace WorkflowAudit

open Text

variable {σ : Type}

namespace Inquiry

/-- The inquiries that questions about pinned remote references lead to. -/
inductive Reaches (verifier : ReferenceVerifier σ) (first : Inquiry σ) : Inquiry σ → Prop
  | refl : Reaches verifier first first
  | ask {inquiry : Inquiry σ} {r : RemoteReference} (hreaches : Reaches verifier first inquiry)
      (hr : r.Grammatical) (hpinned : r.isPinned = true) :
      Reaches verifier first (inquiry.verify verifier r.path r.gitRef).2

theorem Reaches.trans {verifier : ReferenceVerifier σ} {first second third : Inquiry σ}
    (hfirst : Reaches verifier first second) (hsecond : Reaches verifier second third) :
    Reaches verifier first third := by
  induction hsecond with
  | refl => exact hfirst
  | ask _ hr hpinned ih => exact ih.ask hr hpinned

section

variable {α : Type} {verifier : ReferenceVerifier σ}
  {look : α → Inquiry σ → List Violation × Inquiry σ}

theorem reaches_collect
    (hlook : ∀ item inquiry, Reaches verifier inquiry (look item inquiry).2)
    (items : List α) (inquiry : Inquiry σ) :
    Reaches verifier inquiry (collect look items inquiry).2 := by
  induction items generalizing inquiry with
  | nil => exact .refl
  | cons item items ih => exact (hlook item inquiry).trans (ih _)

/-- Each item is looked at on the way, and what is found there is kept. -/
theorem exists_look_of_mem
    (hlook : ∀ item inquiry, Reaches verifier inquiry (look item inquiry).2)
    {items : List α} {item : α} (hmem : item ∈ items) (inquiry : Inquiry σ) :
    ∃ before, Reaches verifier inquiry before ∧
      Reaches verifier (look item before).2 (collect look items inquiry).2 ∧
      (look item before).1 ⊆ (collect look items inquiry).1 := by
  induction items generalizing inquiry with
  | nil => cases hmem
  | cons first items ih =>
      rcases List.mem_cons.1 hmem with rfl | hmem
      · exact ⟨inquiry, .refl, reaches_collect hlook items _, List.subset_append_left _ _⟩
      · obtain ⟨before, hbefore, hafter, hsubset⟩ := ih hmem (look first inquiry).2
        exact ⟨before, (hlook first inquiry).trans hbefore, hafter,
          List.subset_append_of_subset_right _ hsubset⟩

end

/-- A walk over some items and then over others is one walk over all of them. -/
theorem collect_append {α : Type} (look : α → Inquiry σ → List Violation × Inquiry σ)
    (items others : List α) (inquiry : Inquiry σ) :
    collect look (items ++ others) inquiry =
      let first := collect look items inquiry
      let second := collect look others first.2
      (first.1 ++ second.1, second.2) := by
  induction items generalizing inquiry with
  | nil => rfl
  | cons item items ih => simp only [List.cons_append, collect, ih, List.append_assoc]

/-- A walk whose findings at each item do not depend on what it has asked before, as
long as the inquiry keeps a property. -/
theorem collect_eq_flatMap {α : Type} {keeps : Inquiry σ → Prop} {found : α → List Violation}
    {look : α → Inquiry σ → List Violation × Inquiry σ}
    (hlook : ∀ item inquiry, keeps inquiry →
      (look item inquiry).1 = found item ∧ keeps (look item inquiry).2)
    (items : List α) {inquiry : Inquiry σ} (hkeeps : keeps inquiry) :
    (collect look items inquiry).1 = items.flatMap found ∧
      keeps (collect look items inquiry).2 := by
  induction items generalizing inquiry with
  | nil => exact ⟨rfl, hkeeps⟩
  | cons item items ih =>
      obtain ⟨hfirst, hnext⟩ := hlook item inquiry hkeeps
      obtain ⟨hothers, hlast⟩ := ih hnext
      exact ⟨congrArg₂ List.append hfirst hothers, hlast⟩

/-- Two walks over the same items that keep in step, the second reporting less than the
first, do so from the first item to the last. -/
theorem collect_filter {α τ : Type} {p : Violation → Bool} {translate : Inquiry σ → Inquiry τ}
    {look : α → Inquiry σ → List Violation × Inquiry σ}
    {look' : α → Inquiry τ → List Violation × Inquiry τ}
    (hlook : ∀ item inquiry, look' item (translate inquiry) =
      ((look item inquiry).1.filter p, translate (look item inquiry).2))
    (items : List α) (inquiry : Inquiry σ) :
    collect look' items (translate inquiry) =
      ((collect look items inquiry).1.filter p, translate (collect look items inquiry).2) := by
  induction items generalizing inquiry with
  | nil => rfl
  | cons item items ih => simp only [collect, hlook, ih, List.filter_append]

/-- Two walks over the same items that find the same and stay related do so from the first
item to the last. -/
theorem collect_related {α τ : Type} {related : Inquiry σ → Inquiry τ → Prop}
    {look : α → Inquiry σ → List Violation × Inquiry σ}
    {look' : α → Inquiry τ → List Violation × Inquiry τ}
    (hlook : ∀ item inquiry inquiry', related inquiry inquiry' →
      (look item inquiry).1 = (look' item inquiry').1 ∧
        related (look item inquiry).2 (look' item inquiry').2)
    (items : List α) {inquiry : Inquiry σ} {inquiry' : Inquiry τ}
    (hrelated : related inquiry inquiry') :
    (collect look items inquiry).1 = (collect look' items inquiry').1 ∧
      related (collect look items inquiry).2 (collect look' items inquiry').2 := by
  induction items generalizing inquiry inquiry' with
  | nil => exact ⟨rfl, hrelated⟩
  | cons item items ih =>
      obtain ⟨hfirst, hnext⟩ := hlook item inquiry inquiry' hrelated
      obtain ⟨hothers, hlast⟩ := ih hnext
      exact ⟨congrArg₂ List.append hfirst hothers, hlast⟩

/-- What verdicts are kept under tells the reference, and the commit up to its case. -/
theorem path_of_memoKey_eq {r r' : RemoteReference} (hr : r.Grammatical) (hr' : r'.Grammatical)
    (heq : memoKey r.path r.gitRef = memoKey r'.path r'.gitRef) :
    r.path = r'.path ∧ lowerAsciiString r.gitRef = lowerAsciiString r'.gitRef := by
  have hchars := congrArg String.toList heq
  simp only [memoKey, String.toList_append, List.append_assoc] at hchars
  obtain ⟨hpath, hsha⟩ := append_separator_inj hr.at_not_mem hr'.at_not_mem hchars
  exact ⟨String.toList_inj.1 hpath, String.toList_inj.1 hsha⟩

end Inquiry

section

variable (verifier : ReferenceVerifier σ)

theorem grammatical_of_pinningStatus {rule : Rule} {location : Location} {uses : String}
    {r : RemoteReference} (hstatus : pinningStatus rule location uses = .pinned r) :
    StepReference.parse uses = .ok (.remote r) ∧ r.Grammatical ∧ r.isPinned = true := by
  unfold pinningStatus at hstatus
  split at hstatus
  · cases hstatus
  · cases hstatus
  · cases hstatus
  · next remote hread =>
      split at hstatus
      · next hpinned =>
          cases hstatus
          exact ⟨hread, RemoteReference.grammatical_of_step hread, hpinned⟩
      · cases hstatus

theorem reaches_pinningFinding (rule : Rule) (verify : Bool) (location : Location)
    (uses : String) (inquiry : Inquiry σ) :
    inquiry.Reaches verifier (pinningFinding verifier rule verify location uses inquiry).2 := by
  unfold pinningFinding
  split
  · exact .refl
  · next r hstatus =>
      obtain ⟨-, hr, hpinned⟩ := grammatical_of_pinningStatus hstatus
      split
      · exact .ask .refl hr hpinned
      · exact .refl

theorem reaches_pinningFindings (rule : Rule) (verify : Bool)
    (references : List (Location × String)) (inquiry : Inquiry σ) :
    inquiry.Reaches verifier (pinningFindings verifier rule verify references inquiry).2 := by
  apply Inquiry.reaches_collect
  intro reference inquiry
  exact reaches_pinningFinding verifier rule verify reference.1 reference.2 inquiry

theorem exists_pinningFinding_of_mem {rule : Rule} {verify : Bool}
    {references : List (Location × String)} {location : Location} {uses : String}
    (huses : (location, uses) ∈ references) (inquiry : Inquiry σ) :
    ∃ before, inquiry.Reaches verifier before ∧
      (pinningFinding verifier rule verify location uses before).2.Reaches verifier
        (pinningFindings verifier rule verify references inquiry).2 ∧
      (pinningFinding verifier rule verify location uses before).1.toList ⊆
        (pinningFindings verifier rule verify references inquiry).1 := by
  let look (reference : Location × String) (inquiry : Inquiry σ) :=
    let found := pinningFinding verifier rule verify reference.1 reference.2 inquiry
    (found.1.toList, found.2)
  have hlook : ∀ (reference : Location × String) (inquiry : Inquiry σ),
      inquiry.Reaches verifier (look reference inquiry).2 := fun reference =>
    reaches_pinningFinding verifier rule verify reference.1 reference.2
  exact Inquiry.exists_look_of_mem hlook huses inquiry

theorem reaches_applyRule (prepared : PreparedPolicy) (rule : Rule) (d : Definition)
    (inquiry : Inquiry σ) :
    inquiry.Reaches verifier (applyRule verifier prepared rule d inquiry).2 := by
  unfold applyRule
  split
  · exact reaches_pinningFindings verifier ..
  · exact .refl

theorem reaches_applyRules (prepared : PreparedPolicy) (d : Definition) (rules : List Rule)
    (inquiry : Inquiry σ) :
    inquiry.Reaches verifier (applyRules verifier prepared d rules inquiry).2 :=
  Inquiry.reaches_collect (fun rule => reaches_applyRule verifier prepared rule d) _ _

theorem Scanner.reaches_scan (definitions : List Definition) (scanner : Scanner σ) :
    scanner.inquiry.Reaches verifier (scanner.scan verifier definitions).2.inquiry :=
  Inquiry.reaches_collect (fun d => reaches_applyRules verifier _ d _) _ _

/-- Every rule of the policy is applied on the way to every definition. -/
theorem exists_applyRule_of_mem {policy : PreparedPolicy} {rule : Rule}
    (hrule : rule ∈ policy.rules) {definitions : List Definition} {d : Definition}
    (hd : d ∈ definitions) (inquiry : Inquiry σ) :
    ∃ before, inquiry.Reaches verifier before ∧
      (applyRule verifier policy rule d before).2.Reaches verifier
        (scanDefinitions verifier policy definitions inquiry).2 ∧
      (applyRule verifier policy rule d before).1 ⊆
        (scanDefinitions verifier policy definitions inquiry).1 := by
  obtain ⟨beforeRules, hfirst, hlast, hfound⟩ := Inquiry.exists_look_of_mem
    (fun d => reaches_applyRules verifier policy d policy.rules) hd inquiry
  obtain ⟨before, hfirst', hlast', hfound'⟩ := Inquiry.exists_look_of_mem
    (fun rule => reaches_applyRule verifier policy rule d) hrule beforeRules
  exact ⟨before, hfirst.trans hfirst', hlast'.trans hlast, List.Subset.trans hfound' hfound⟩

/-- Every reference of every scanned definition is judged on the way by every rule
that checks pinning. -/
theorem Scanner.exists_pinningFinding {scanner : Scanner σ} {rule : Rule}
    (hrule : rule ∈ scanner.policy.rules) {verify : Bool}
    (hcheck : rule.check = .shaPinning verify) {definitions : List Definition}
    {d : Definition} (hd : d ∈ definitions) {location : Location} {uses : String}
    (huses : (location, uses) ∈ d.references) :
    ∃ before, scanner.inquiry.Reaches verifier before ∧
      (pinningFinding verifier rule verify location uses before).2.Reaches verifier
        (scanner.scan verifier definitions).2.inquiry ∧
      (pinningFinding verifier rule verify location uses before).1.toList ⊆
        (scanner.scan verifier definitions).1 := by
  obtain ⟨beforeRule, hfirst, hlast, hfound⟩ :=
    exists_applyRule_of_mem verifier hrule hd scanner.inquiry
  have hjudges : applyRule verifier scanner.policy rule d beforeRule =
      pinningFindings verifier rule verify d.references beforeRule := by
    rw [applyRule, hcheck]
  rw [hjudges] at hlast hfound
  obtain ⟨before, hfirst', hlast', hfound'⟩ :=
    exists_pinningFinding_of_mem verifier huses beforeRule
  refine ⟨before, hfirst.trans hfirst', hlast'.trans hlast, ?_⟩
  exact List.subset_append_of_subset_right _ (List.Subset.trans hfound' hfound)

end

end WorkflowAudit
