import WorkflowAudit.Proofs.Scan.Findings
import WorkflowAudit.Proofs.Scan.Inquiry
import WorkflowAudit.Proofs.Verification.SequentialRun

/-!
# Strict and tolerant runs

A strict and a tolerant run of the same scans walk in step.  What they remember differs
only in verdicts on a service that is out of reach, and no question depends on a
verdict, so both ask the service for the same things in the same order.  The tolerant
run reports what the strict one reports, without the violations that say that the
service was out of reach.
-/

namespace WorkflowAudit

variable {σ : Type}

/-! ## What a tolerant run remembers -/

/-- What a tolerant run answers where a strict run gives a verdict. -/
def Verdict.tolerate (verdict : Verdict) : Verdict :=
  if verdict = failed .apiUnreachable then bypass .apiUnreachableLocalSkip else verdict

theorem Verdict.tolerate_ofStatus (status : Nat) :
    (ofStatus status).tolerate = ofStatus status := by
  unfold ofStatus
  split <;> rfl

theorem Verdict.tolerate_ofAnswer (answer : Except TransportFault Nat) :
    (ofAnswer .strict answer).tolerate = ofAnswer .tolerant answer := by
  cases answer with
  | ok status => exact tolerate_ofStatus status
  | error fault => rfl

/-- No rung speaks of the service. -/
theorem VerifierSettings.tolerate_of_settled {settings : VerifierSettings}
    {reference claimed : String} {verdict : Verdict}
    (hrung : settings.admit reference claimed = .settled verdict) :
    verdict.tolerate = verdict := by
  unfold VerifierSettings.admit at hrung
  dsimp only at hrung
  repeat' split at hrung
  all_goals cases hrung
  all_goals rfl

/-- The state of the tolerant run beside a strict one. -/
def Run.tolerate (run : Run σ) : Run σ :=
  { run with verdicts := run.verdicts.map fun entry => (entry.1, entry.2.tolerate) }

/-- The inquiry of a tolerant scan beside a strict one. -/
def Inquiry.tolerate (inquiry : Inquiry (Run σ)) : Inquiry (Run σ) where
  verdicts := inquiry.verdicts.map fun entry => (entry.1, entry.2.tolerate)
  state := inquiry.state.tolerate

theorem Run.list_tolerate (key : LookupKey) (run : Run σ) :
    run.tolerate.list key = (run.list key).tolerate := by
  unfold Run.list
  split <;> split <;> first | rfl | contradiction

/-! ## One call -/

theorem Run.ensureProbed_tolerate (transport : Transport σ) (run : Run σ) :
    run.tolerate.ensureProbed transport =
      ((run.ensureProbed transport).1, (run.ensureProbed transport).2.tolerate) := by
  have hreachable : run.tolerate.reachable = run.reachable := rfl
  unfold Run.ensureProbed
  rw [hreachable]
  cases run.reachable <;> rfl

theorem Run.answerLookup_tolerate (transport : Transport σ) (key : LookupKey) (run : Run σ) :
    run.tolerate.answerLookup transport .tolerant key =
      ((run.answerLookup transport .strict key).1.tolerate,
        (run.answerLookup transport .strict key).2.tolerate) := by
  simp only [Run.answerLookup, Run.tolerate, Verdict.tolerate_ofAnswer, List.map_append,
    List.map_cons, List.map_nil]

theorem Run.ensureLookedUp_tolerate (transport : Transport σ) (key : LookupKey) (run : Run σ) :
    run.tolerate.ensureLookedUp transport .tolerant key =
      ((run.ensureLookedUp transport .strict key).1.tolerate,
        (run.ensureLookedUp transport .strict key).2.tolerate) := by
  unfold Run.ensureLookedUp
  simp only [Run.list_tolerate]
  have hlookup : (run.list key).tolerate.verdicts.lookup key =
      ((run.list key).verdicts.lookup key).map Verdict.tolerate :=
    lookup_map_values ..
  rw [hlookup]
  cases (run.list key).verdicts.lookup key with
  | some verdict => rfl
  | none => exact ((run.list key).send _).answerLookup_tolerate transport key

theorem Verifier.verify_tolerate (settings : VerifierSettings) (transport : Transport σ)
    (reference claimed : String) (run : Run σ) :
    (Verifier.mk settings .tolerant transport).verify reference claimed run.tolerate =
      (((Verifier.mk settings .strict transport).verify reference claimed run).1.tolerate,
        ((Verifier.mk settings .strict transport).verify reference claimed run).2.tolerate) := by
  unfold Verifier.verify
  dsimp only
  cases hrung : settings.admit reference claimed with
  | settled verdict =>
      dsimp only
      rw [VerifierSettings.tolerate_of_settled hrung]
  | lookup key =>
      dsimp only
      rw [Run.ensureProbed_tolerate]
      cases run.ensureProbed transport with
      | mk reachable probed =>
          cases reachable with
          | false => rfl
          | true => exact probed.ensureLookedUp_tolerate transport key

/-! ## One scan -/

section

variable (settings : VerifierSettings) (transport : Transport σ)

theorem Inquiry.verify_tolerate (reference claimed : String) (inquiry : Inquiry (Run σ)) :
    inquiry.tolerate.verify (Verifier.mk settings .tolerant transport).verify reference claimed =
      ((inquiry.verify (Verifier.mk settings .strict transport).verify
          reference claimed).1.tolerate,
        (inquiry.verify (Verifier.mk settings .strict transport).verify
          reference claimed).2.tolerate) := by
  unfold Inquiry.verify
  have hlookup : inquiry.tolerate.verdicts.lookup (memoKey reference claimed) =
      (inquiry.verdicts.lookup (memoKey reference claimed)).map Verdict.tolerate :=
    lookup_map_values ..
  have hstate : inquiry.tolerate.state = inquiry.state.tolerate := rfl
  rw [hlookup, hstate, Verifier.verify_tolerate]
  cases inquiry.verdicts.lookup (memoKey reference claimed) with
  | some verdict => rfl
  | none => simp [Inquiry.tolerate]

/-- A violation that does not say that the service is out of reach. -/
def Violation.isNoOutage (v : Violation) : Bool := v.code != "api_unreachable"

theorem Rule.Reports.isNoOutage {rule : Rule} {v : Violation}
    (hreports : rule.Reports staticCodes v) : v.isNoOutage = true := by
  have hother : ∀ code ∈ staticCodes, (code != "api_unreachable") = true := by decide
  exact hother v.code hreports.code_mem

theorem verdictFinding_tolerate (rule : Rule) (location : Location) (remote : RemoteReference)
    (verdict : Verdict) :
    verdictFinding rule location remote verdict.tolerate =
      (verdictFinding rule location remote verdict).filter Violation.isNoOutage := by
  obtain ⟨ok, kind⟩ := verdict
  cases ok with
  | true => rfl
  | false =>
      cases kind with
      | none => rfl
      | some kind => cases kind <;> rfl

theorem pinningFinding_tolerate (rule : Rule) (verify : Bool) (location : Location)
    (uses : String) (inquiry : Inquiry (Run σ)) :
    pinningFinding (Verifier.mk settings .tolerant transport).verify rule verify location uses
        inquiry.tolerate =
      ((pinningFinding (Verifier.mk settings .strict transport).verify rule verify location uses
          inquiry).1.filter Violation.isNoOutage,
        (pinningFinding (Verifier.mk settings .strict transport).verify rule verify location uses
          inquiry).2.tolerate) := by
  unfold pinningFinding
  cases hstatus : pinningStatus rule location uses with
  | settled finding =>
      cases finding with
      | none => rfl
      | some v =>
          have hkept := (reports_of_pinningStatus hstatus).isNoOutage
          simp only [Option.filter_some, hkept, if_true]
  | pinned remote =>
      dsimp only
      cases verify with
      | false => rfl
      | true => simp only [if_true, Inquiry.verify_tolerate, verdictFinding_tolerate]

theorem applyRule_tolerate (prepared : PreparedPolicy) (rule : Rule) (d : Definition)
    (inquiry : Inquiry (Run σ)) :
    applyRule (Verifier.mk settings .tolerant transport).verify prepared rule d
        inquiry.tolerate =
      ((applyRule (Verifier.mk settings .strict transport).verify prepared rule d
          inquiry).1.filter Violation.isNoOutage,
        (applyRule (Verifier.mk settings .strict transport).verify prepared rule d
          inquiry).2.tolerate) := by
  unfold applyRule
  split
  · apply Inquiry.collect_filter
    rintro ⟨location, uses⟩ inquiry
    dsimp only
    rw [pinningFinding_tolerate, Option.toList_filter]
  · have hkept : (staticFindings prepared rule d).filter Violation.isNoOutage =
        staticFindings prepared rule d :=
      List.filter_eq_self.2 fun v hv => (reports_of_mem_staticFindings hv).isNoOutage
    rw [hkept]

theorem scanDefinitions_tolerate (policy : PreparedPolicy) (definitions : List Definition)
    (inquiry : Inquiry (Run σ)) :
    scanDefinitions (Verifier.mk settings .tolerant transport).verify policy definitions
        inquiry.tolerate =
      ((scanDefinitions (Verifier.mk settings .strict transport).verify policy definitions
          inquiry).1.filter Violation.isNoOutage,
        (scanDefinitions (Verifier.mk settings .strict transport).verify policy definitions
          inquiry).2.tolerate) := by
  apply Inquiry.collect_filter
  intro d inquiry
  apply Inquiry.collect_filter
  intro rule inquiry
  exact applyRule_tolerate settings transport policy rule d inquiry

end

/-! ## Scans in a row -/

namespace Scanner

/-- Scans one list of definitions after the other. -/
def scanEach {τ : Type} (verifier : ReferenceVerifier τ) :
    List (List Definition) → Scanner τ → List (List Violation) × Scanner τ
  | [], scanner => ([], scanner)
  | definitions :: rest, scanner =>
      let (found, scanner) := scanner.scan verifier definitions
      let (others, scanner) := scanner.scanEach verifier rest
      (found :: others, scanner)

/-- The scanner of a tolerant run beside a strict one. -/
def tolerate (scanner : Scanner (Run σ)) : Scanner (Run σ) :=
  { scanner with inquiry := scanner.inquiry.tolerate }

theorem scan_tolerate (settings : VerifierSettings) (transport : Transport σ)
    (definitions : List Definition) {scanner : Scanner (Run σ)}
    (hunreported : ∀ v ∈ scanner.unreported, v.isNoOutage = true) :
    scanner.tolerate.scan (Verifier.mk settings .tolerant transport).verify definitions =
      ((scanner.scan (Verifier.mk settings .strict transport).verify definitions).1.filter
          Violation.isNoOutage,
        (scanner.scan (Verifier.mk settings .strict transport).verify definitions).2.tolerate) := by
  have hinquiry : scanner.tolerate.inquiry = scanner.inquiry.tolerate := rfl
  unfold scan
  rw [hinquiry, scanDefinitions_tolerate, List.filter_append, List.filter_eq_self.2 hunreported]
  rfl

theorem scanEach_tolerate (settings : VerifierSettings) (transport : Transport σ)
    (batches : List (List Definition)) {scanner : Scanner (Run σ)}
    (hunreported : ∀ v ∈ scanner.unreported, v.isNoOutage = true) :
    scanner.tolerate.scanEach (Verifier.mk settings .tolerant transport).verify batches =
      ((scanner.scanEach (Verifier.mk settings .strict transport).verify batches).1.map
          (List.filter Violation.isNoOutage),
        (scanner.scanEach (Verifier.mk settings .strict transport).verify batches).2.tolerate) := by
  induction batches generalizing scanner with
  | nil => rfl
  | cons definitions batches ih =>
      have hreported : ∀ v ∈ (scanner.scan (Verifier.mk settings .strict transport).verify
          definitions).2.unreported, v.isNoOutage = true := by
        intro v hv
        cases hv
      simp only [scanEach, scan_tolerate settings transport definitions hunreported,
        ih hreported, List.map_cons]

theorem isNoOutage_of_start (engine : Pattern.Engine) (policy : Policy) {τ : Type} (state : τ) :
    ∀ v ∈ (start engine policy state).unreported, v.isNoOutage = true := by
  intro v hv
  obtain ⟨rule, -, hproblem⟩ := List.mem_flatMap.1 hv
  exact (reports_of_mem_problems hproblem).isNoOutage

/-- A strict and a tolerant run of the same scans send the same requests in the same
order and get the same answers, and the tolerant run reports exactly what the strict
one reports, less the violations that say that the service is out of reach. -/
theorem mode_changes_only_outages (engine : Pattern.Engine) (policy : Policy)
    (settings : VerifierSettings) (transport : Transport σ) (service : σ)
    (batches : List (List Definition)) :
    let run := fun mode => (start engine policy (Run.fresh service)).scanEach
      (Verifier.mk settings mode transport).verify batches
    (run .tolerant).2.inquiry.state.requests = (run .strict).2.inquiry.state.requests ∧
    (run .tolerant).2.inquiry.state.exchanges = (run .strict).2.inquiry.state.exchanges ∧
    (run .tolerant).1 =
      (run .strict).1.map (List.filter fun v => v.code != "api_unreachable") := by
  intro run
  have hstep : run .tolerant =
      ((run .strict).1.map (List.filter Violation.isNoOutage), (run .strict).2.tolerate) :=
    scanEach_tolerate settings transport batches
      (isNoOutage_of_start engine policy (Run.fresh service))
  rw [hstep]
  exact ⟨rfl, rfl, rfl⟩

end Scanner

end WorkflowAudit
