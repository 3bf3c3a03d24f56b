import Mathlib.Data.List.Basic
import WorkflowAudit.Report.Decision

/-!
# Deciding deals violations out

A decision takes the violations of a scan one by one and puts each on one of three
lists.  Which list depends on the exceptions and on the severity alone.  Nothing is
lost, added, changed or put in another order on the way, so that a run passes only if
every error that was found has an exception.
-/

namespace WorkflowAudit

/-- An exception waives the violations of its category and path that agree with the
job, the step and the rule, as far as it gives them. -/
structure Exemption.Waives (e : Exemption) (v : Violation) : Prop where
  category : e.category = v.category
  path : e.path = v.location.path
  job : ∀ job, e.job = some job → v.location.job = some job
  step : ∀ step, e.step = some step → v.location.step = some step
  rule : ∀ rule, e.rule = some rule → v.ruleId = rule

/-- The first of some exceptions that waives a violation. -/
def IsFirstWaiver (exceptions : List Exemption) (v : Violation) (e : Exemption) : Prop :=
  e.Waives v ∧ ∃ before after, exceptions = before ++ e :: after ∧
    ∀ earlier ∈ before, ¬ earlier.Waives v

/-- Violations that are dealt out from the first to the last: to what remains, to the
advisories, and to what is exempted. -/
inductive Dealt (exceptions : List Exemption) :
    List Violation → List Violation → List Violation → List ExemptedViolation → Prop
  | nil : Dealt exceptions [] [] [] []
  | exempted {v : Violation} {e : Exemption} {rest remaining advisories : List Violation}
      {exempted : List ExemptedViolation} (hfirst : IsFirstWaiver exceptions v e)
      (hrest : Dealt exceptions rest remaining advisories exempted) :
      Dealt exceptions (v :: rest) remaining advisories (⟨v, e.rationale⟩ :: exempted)
  | remaining {v : Violation} {rest remaining advisories : List Violation}
      {exempted : List ExemptedViolation} (hnone : ∀ e ∈ exceptions, ¬ e.Waives v)
      (herror : v.severity = .error)
      (hrest : Dealt exceptions rest remaining advisories exempted) :
      Dealt exceptions (v :: rest) (v :: remaining) advisories exempted
  | advisory {v : Violation} {rest remaining advisories : List Violation}
      {exempted : List ExemptedViolation} (hnone : ∀ e ∈ exceptions, ¬ e.Waives v)
      (hwarning : v.severity = .warning)
      (hrest : Dealt exceptions rest remaining advisories exempted) :
      Dealt exceptions (v :: rest) remaining (v :: advisories) exempted

/-! ## The search for an exception -/

theorem Exemption.covers_iff {e : Exemption} {v : Violation} :
    e.covers v = true ↔ e.Waives v := by
  simp only [covers, Bool.and_eq_true, beq_iff_eq, Option.all_eq_true]
  constructor
  · rintro ⟨⟨⟨⟨hcategory, hpath⟩, hjob⟩, hstep⟩, hrule⟩
    exact ⟨hcategory, hpath, hjob, hstep, fun rule heq => (hrule rule heq).symm⟩
  · rintro ⟨hcategory, hpath, hjob, hstep, hrule⟩
    exact ⟨⟨⟨⟨hcategory, hpath⟩, hjob⟩, hstep⟩, fun rule heq => (hrule rule heq).symm⟩

theorem ExceptionSet.find?_eq_some_iff (set : ExceptionSet) {v : Violation} {e : Exemption} :
    set.find? v = some e ↔ IsFirstWaiver set.exceptions v e := by
  simp only [find?, List.find?_eq_some_iff_append, IsFirstWaiver, Exemption.covers_iff,
    Bool.not_eq_true', ← Bool.not_eq_true]

theorem ExceptionSet.find?_eq_none_iff (set : ExceptionSet) {v : Violation} :
    set.find? v = none ↔ ∀ e ∈ set.exceptions, ¬ e.Waives v := by
  simp only [find?, List.find?_eq_none, Exemption.covers_iff]

theorem exists_isFirstWaiver_iff {exceptions : List Exemption} {v : Violation} :
    (∃ e, IsFirstWaiver exceptions v e) ↔ ∃ e ∈ exceptions, e.Waives v := by
  simp only [← ExceptionSet.find?_eq_some_iff ⟨exceptions⟩, ← Option.isSome_iff_exists,
    ExceptionSet.find?, List.find?_isSome, Exemption.covers_iff]

theorem IsFirstWaiver.unique {exceptions : List Exemption} {v : Violation} {e e' : Exemption}
    (hfirst : IsFirstWaiver exceptions v e) (hfirst' : IsFirstWaiver exceptions v e') :
    e = e' := by
  rw [← ExceptionSet.find?_eq_some_iff ⟨exceptions⟩] at hfirst hfirst'
  exact Option.some_inj.1 (hfirst.symm.trans hfirst')

/-! ## One decision -/

theorem dealt_decideRun (violations : List Violation) (set : ExceptionSet)
    (mode : ExecutionMode) :
    Dealt set.exceptions violations (decideRun violations set mode).remaining
      (decideRun violations set mode).advisories (decideRun violations set mode).exempted := by
  induction violations with
  | nil => exact .nil
  | cons v rest ih =>
      unfold decideRun at ih ⊢
      dsimp only at ih ⊢
      cases hfind : set.find? v with
      | some e =>
          simp only [List.filter_cons, List.filterMap_cons, hfind, Option.isNone_some,
            Bool.false_eq_true, if_false, Option.map_some]
          exact .exempted (set.find?_eq_some_iff.1 hfind) ih
      | none =>
          have hnone := set.find?_eq_none_iff.1 hfind
          cases hseverity : v.severity with
          | error =>
              have herror : v.isError = true := by simp [Violation.isError, hseverity]
              simp only [List.filter_cons, List.filterMap_cons, hfind, Option.isNone_none,
                if_true, herror, Bool.not_true, Bool.false_eq_true, if_false, Option.map_none]
              exact .remaining hnone hseverity ih
          | warning =>
              have hwarning : v.isError = false := by simp [Violation.isError, hseverity]
              simp only [List.filter_cons, List.filterMap_cons, hfind, Option.isNone_none,
                if_true, hwarning, Bool.not_false, Bool.false_eq_true, if_false, Option.map_none]
              exact .advisory hnone hseverity ih

/-! ## What dealing out keeps -/

namespace Dealt

variable {exceptions : List Exemption} {violations remaining advisories : List Violation}
  {exempted : List ExemptedViolation}

theorem perm (hdealt : Dealt exceptions violations remaining advisories exempted) :
    violations.Perm (remaining ++ advisories ++ exempted.map ExemptedViolation.violation) := by
  induction hdealt with
  | nil => exact .nil
  | exempted _ _ ih => exact (ih.cons _).trans List.perm_middle.symm
  | remaining _ _ _ ih => exact ih.cons _
  | advisory _ _ _ ih =>
      rw [List.append_assoc] at ih ⊢
      exact (ih.cons _).trans List.perm_middle.symm

theorem sublist (hdealt : Dealt exceptions violations remaining advisories exempted) :
    remaining.Sublist violations ∧ advisories.Sublist violations ∧
      (exempted.map ExemptedViolation.violation).Sublist violations := by
  induction hdealt with
  | nil => exact ⟨.slnil, .slnil, .slnil⟩
  | exempted _ _ ih => exact ⟨ih.1.cons _, ih.2.1.cons _, ih.2.2.cons_cons _⟩
  | remaining _ _ _ ih => exact ⟨ih.1.cons_cons _, ih.2.1.cons _, ih.2.2.cons _⟩
  | advisory _ _ _ ih => exact ⟨ih.1.cons _, ih.2.1.cons_cons _, ih.2.2.cons _⟩

theorem mem_exempted_iff (hdealt : Dealt exceptions violations remaining advisories exempted)
    {v : Violation} {rationale : String} :
    ⟨v, rationale⟩ ∈ exempted ↔
      v ∈ violations ∧ ∃ e, IsFirstWaiver exceptions v e ∧ e.rationale = rationale := by
  induction hdealt with
  | nil => simp
  | @exempted first e _ _ _ _ hfirst _ ih =>
      rw [List.mem_cons, List.mem_cons, ih, ExemptedViolation.mk.injEq, or_and_right]
      refine or_congr_left (and_congr_right ?_)
      rintro rfl
      constructor
      · rintro rfl
        exact ⟨e, hfirst, rfl⟩
      · rintro ⟨e', hfirst', rfl⟩
        rw [hfirst.unique hfirst']
  | remaining hnone _ _ ih =>
      rw [ih, List.mem_cons, or_and_right, or_iff_right]
      rintro ⟨rfl, e, hfirst, -⟩
      obtain ⟨e, hmem, hwaives⟩ := exists_isFirstWaiver_iff.1 ⟨e, hfirst⟩
      exact hnone e hmem hwaives
  | advisory hnone _ _ ih =>
      rw [ih, List.mem_cons, or_and_right, or_iff_right]
      rintro ⟨rfl, e, hfirst, -⟩
      obtain ⟨e, hmem, hwaives⟩ := exists_isFirstWaiver_iff.1 ⟨e, hfirst⟩
      exact hnone e hmem hwaives

/-- What no exception waives stays, by its severity. -/
theorem mem_unwaived_iff (hdealt : Dealt exceptions violations remaining advisories exempted)
    {v : Violation} :
    (v ∈ remaining ↔
      v ∈ violations ∧ (∀ e ∈ exceptions, ¬ e.Waives v) ∧ v.severity = .error) ∧
    (v ∈ advisories ↔
      v ∈ violations ∧ (∀ e ∈ exceptions, ¬ e.Waives v) ∧ v.severity = .warning) := by
  induction hdealt with
  | nil => simp
  | exempted hfirst _ ih =>
      obtain ⟨e, hmem, hwaives⟩ := exists_isFirstWaiver_iff.1 ⟨_, hfirst⟩
      rw [ih.1, ih.2, List.mem_cons, or_and_right, or_and_right, or_iff_right, or_iff_right]
      · exact ⟨.rfl, .rfl⟩
      all_goals
        rintro ⟨rfl, hnone, -⟩
        exact hnone e hmem hwaives
  | remaining hnone herror _ ih =>
      rw [List.mem_cons, List.mem_cons, ih.1, ih.2, or_and_right, or_and_right]
      refine ⟨or_congr_left ⟨?_, And.left⟩, (or_iff_right ?_).symm⟩
      · rintro rfl
        exact ⟨rfl, hnone, herror⟩
      · rintro ⟨rfl, -, hwarning⟩
        cases herror.symm.trans hwarning
  | advisory hnone hwarning _ ih =>
      rw [List.mem_cons, List.mem_cons, ih.1, ih.2, or_and_right, or_and_right]
      refine ⟨(or_iff_right ?_).symm, or_congr_left ⟨?_, And.left⟩⟩
      · rintro ⟨rfl, -, herror⟩
        cases herror.symm.trans hwarning
      · rintro rfl
        exact ⟨rfl, hnone, hwarning⟩

theorem remaining_eq_nil_iff (hdealt : Dealt exceptions violations remaining advisories exempted) :
    remaining = [] ↔
      ∀ v ∈ violations, v.severity = .error → ∃ e ∈ exceptions, e.Waives v := by
  rw [List.eq_nil_iff_forall_not_mem]
  refine forall_congr' fun v => ?_
  rw [hdealt.mem_unwaived_iff.1, not_and, not_and, ← not_forall_not]
  constructor
  · intro hremains hmem herror hnone
    exact hremains hmem (fun e he hwaives => hnone e ⟨he, hwaives⟩) herror
  · intro hwaived hmem hnone herror
    exact hwaived hmem herror fun e he => hnone e he.1 he.2

end Dealt

/-- Deciding deals the violations out, each unchanged to one of three lists, and each
list in the order of the scan.  A violation is exempted if an exception waives it, with
the rationale of the first that does; what no exception waives remains if it is an
error, and is an advisory otherwise.  The run passes if every error is waived, the
summary counts every violation, and the mode is only noted. -/
theorem decideRun_deals_out (violations : List Violation) (set : ExceptionSet)
    (mode : ExecutionMode) :
    let d := decideRun violations set mode
    Dealt set.exceptions violations d.remaining d.advisories d.exempted ∧
    violations.Perm (d.remaining ++ d.advisories ++ d.exempted.map ExemptedViolation.violation) ∧
    (d.remaining.Sublist violations ∧ d.advisories.Sublist violations ∧
      (d.exempted.map ExemptedViolation.violation).Sublist violations) ∧
    (∀ v, (∃ rationale, ⟨v, rationale⟩ ∈ d.exempted) ↔
      v ∈ violations ∧ ∃ e ∈ set.exceptions, e.Waives v) ∧
    (∀ v rationale, ⟨v, rationale⟩ ∈ d.exempted ↔
      v ∈ violations ∧ ∃ e, IsFirstWaiver set.exceptions v e ∧ e.rationale = rationale) ∧
    (∀ v, v ∈ d.remaining ↔
      v ∈ violations ∧ (∀ e ∈ set.exceptions, ¬ e.Waives v) ∧ v.severity = .error) ∧
    (∀ v, v ∈ d.advisories ↔
      v ∈ violations ∧ (∀ e ∈ set.exceptions, ¬ e.Waives v) ∧ v.severity = .warning) ∧
    (d.passes = true ↔
      ∀ v ∈ violations, v.severity = .error → ∃ e ∈ set.exceptions, e.Waives v) ∧
    d.summary.total = violations.length ∧
    d.mode = mode ∧ ∀ other, decideRun violations set other = { d with mode := other } := by
  intro d
  have hdealt : Dealt set.exceptions violations d.remaining d.advisories d.exempted :=
    dealt_decideRun violations set mode
  refine ⟨hdealt, hdealt.perm, hdealt.sublist, fun v => ?_, fun v rationale =>
    hdealt.mem_exempted_iff, fun v => hdealt.mem_unwaived_iff.1, fun v =>
    hdealt.mem_unwaived_iff.2, ?_, ?_, rfl, fun other => rfl⟩
  · simp only [hdealt.mem_exempted_iff, exists_and_left, ← exists_isFirstWaiver_iff]
    exact and_congr_right fun _ =>
      ⟨fun ⟨_, e, hfirst, _⟩ => ⟨e, hfirst⟩, fun ⟨e, hfirst⟩ => ⟨_, e, hfirst, rfl⟩⟩
  · rw [Decision.passes, List.isEmpty_iff]
    exact hdealt.remaining_eq_nil_iff
  · have hlength := hdealt.perm.length_eq
    rw [List.length_append, List.length_append, List.length_map] at hlength
    exact hlength.symm

end WorkflowAudit
