import Mathlib.Data.List.Forall2
import WorkflowAudit.CommandLine.Response
import WorkflowAudit.Proofs.Outcome
import WorkflowAudit.Proofs.Report.Dealing
import WorkflowAudit.Proofs.Scan.Inquiry

/-!
# What a check answers

A check reads policy, exceptions, directories, workflows and bundles, and then either fails
with the first fault that it met, or for want of a client, or reports on everything that it
found.  There is nothing in between: a failed check prints nothing and leaves no file, and a
report counts every definition that was found, each of them scanned by every rule.
-/

namespace WorkflowAudit

/-! ## Reading up to the first fault -/

section

variable {ε α β : Type}

/-- Why there is no result, if there is none. -/
def fault? : Except ε α → Option ε
  | .error fault => some fault
  | .ok _ => none

/-- A result that is the first of some faults, or good where there is none. -/
inductive StopsAt (good : α → Prop) : List ε → Except ε α → Prop
  | fault (first : ε) (later : List ε) : StopsAt good (first :: later) (.error first)
  | result {a : α} (hgood : good a) : StopsAt good [] (.ok a)

namespace StopsAt

variable {good : α → Prop} {good' : β → Prop} {faults later : List ε} {result : Except ε α}

theorem bind {next : α → Except ε β} (hfirst : StopsAt good faults result)
    (hnext : ∀ a, good a → StopsAt good' later (next a)) :
    StopsAt good' (faults ++ later) (result >>= next) := by
  cases hfirst with
  | fault first others => exact .fault first (others ++ later)
  | result hgood => exact hnext _ hgood

theorem map {f : α → β} (hfirst : StopsAt good faults result)
    (hgood : ∀ a, good a → good' (f a)) : StopsAt good' faults (result.map f) := by
  cases hfirst with
  | fault first others => exact .fault first others
  | result ha => exact .result (hgood _ ha)

theorem mapError {ε' : Type} (wrap : ε → ε') (hfirst : StopsAt good faults result) :
    StopsAt good (faults.map wrap) (result.mapError wrap) := by
  cases hfirst with
  | fault first others => exact .fault (wrap first) (others.map wrap)
  | result hgood => exact .result hgood

end StopsAt

end

theorem pairwise_sortFiles (files : List FoundFile) :
    (sortFiles files).Pairwise fun left right => left.path ≤ right.path := by
  have hsorted : (sortFiles files).Pairwise fun left right =>
      decide (left.path ≤ right.path) = true := by
    refine List.pairwise_mergeSort (fun a b c hab hbc => ?_) (fun a b => ?_) files
    · rw [decide_eq_true_eq] at hab hbc ⊢
      exact String.le_trans hab hbc
    · rw [Bool.or_eq_true, decide_eq_true_eq, decide_eq_true_eq]
      exact String.le_total a.path b.path
  exact hsorted.imp of_decide_eq_true

theorem AuditInput.violations_eq {σ : Type} (input : AuditInput) (engine : Pattern.Engine)
    (verifier : ReferenceVerifier σ) (state : σ) :
    input.violations engine verifier state =
      let prepared := input.policy.prepare engine
      input.policy.problems prepared.patterns ++
        (scanDefinitions verifier prepared (input.pipelines ++ input.bundles) { state }).1 := by
  simp only [violations, Scanner.start, Scanner.scan, scanDefinitions, Inquiry.collect_append,
    List.nil_append, List.append_assoc]

namespace CommandLine

/-- Where neither the policy nor the exceptions can be read, the policy is named. -/
example :
    runCheck Pattern.Engine.standard Connector.offline () (fun _ => none) ⟨[]⟩
        { policy := some "policy.yml", exceptions := some "exceptions.yml", report := some "out" } =
      .failed "loading policy: failed to read policy.yml: no such file" := by
  decide +kernel

end CommandLine

end WorkflowAudit
