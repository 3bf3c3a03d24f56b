import WorkflowAudit.Proofs.Reference.Image
import WorkflowAudit.Proofs.Scan.Findings
import WorkflowAudit.Proofs.Scan.Inquiry
import WorkflowAudit.Proofs.Verification.KeptAnswers
import WorkflowAudit.Report.Decision

/-!
# Strict runs fail closed

A strict run that passes has looked at every reference.  Each one is local, or an
image pinned by digest, or pinned to a commit that the service was asked for in
this run and said to exist.  The scanner remembers verdicts by the text of a
reference and the verifier by repository and commit; both memories are tied here
to the answers that the run has received.
-/

namespace WorkflowAudit

open Text

/-- What a strict run may let pass, given what it has exchanged with the service. -/
inductive StepReference.Vouched (exchanges : List Exchange) : StepReference → Prop
  | inside (path : String) : Vouched exchanges (.inside path)
  | image {image : ImageReference} {hex : String} (hdigest : image.digest = some ("sha256:" ++ hex))
      (hlength : hex.toList.length = 64) (hhex : ∀ c ∈ hex.toList, isHexDigit c = true) :
      Vouched exchanges (.image image)
  | remote {r : RemoteReference} (hlength : r.gitRef.toList.length = 40)
      (hhex : ∀ c ∈ r.gitRef.toList, isHexDigit c = true)
      (hanswer : .lookup (r.owner ++ "/" ++ r.repo) (lowerAsciiString r.gitRef) (.ok 200) ∈
        exchanges) : Vouched exchanges (.remote r)

/-- What a job or one of its steps uses. -/
def Definition.Uses (d : Definition) (uses : String) : Prop :=
  ∃ job ∈ d.jobs, job.uses = some uses ∨ ∃ step ∈ job.steps, step.uses = some uses

theorem Definition.exists_reference_of_uses {d : Definition} {uses : String}
    (huses : d.Uses uses) : ∃ location, (location, uses) ∈ d.references := by
  obtain ⟨job, hjob, huses | ⟨step, hstep, huses⟩⟩ := huses
  · refine ⟨Location.inJob d.path job.id, List.mem_flatMap.2 ⟨job, hjob, ?_⟩⟩
    simp [Job.references, huses]
  · refine ⟨Location.atStep d.path job.id step.index, List.mem_flatMap.2 ⟨job, hjob, ?_⟩⟩
    refine List.mem_append_right _ (List.mem_filterMap.2 ⟨step, hstep, ?_⟩)
    rw [huses]
    rfl

/-! ## The two memories -/

section

variable {σ : Type} {verifier : Verifier σ}

/-- Everything that a scan remembers stands for an answer of its run: the cells of
the verifier, and the verdicts of the scanner by the text of a reference. -/
structure Inquiry.Kept (verifier : Verifier σ) (inquiry : Inquiry (Run σ)) : Prop where
  state : inquiry.state.Kept verifier.mode
  verdicts : ∀ key verdict, inquiry.verdicts.lookup key = some verdict →
    ∃ r : RemoteReference, r.Grammatical ∧ r.isPinned = true ∧
      Inquiry.memoKey r.path r.gitRef = key ∧
      verifier.Answers (r.path, r.gitRef) inquiry.state.exchanges verdict

theorem Verifier.Answers.mono {call : String × String} {exchanges more : List Exchange}
    {verdict : Verdict} (hanswers : verifier.Answers call exchanges verdict)
    (hsubset : exchanges ⊆ more) : verifier.Answers call more verdict := by
  cases hanswers with
  | settled hrung => exact .settled hrung
  | unreachable hkey => exact .unreachable hkey
  | received hkey hmem => exact .received hkey (hsubset hmem)

/-- One question keeps the memories, forgets no answer, and is itself answered for
a reference of the same text. -/
theorem Inquiry.Kept.verify {inquiry : Inquiry (Run σ)} (hkept : inquiry.Kept verifier)
    {r : RemoteReference} (hr : r.Grammatical) (hpinned : r.isPinned = true) :
    (inquiry.verify verifier.verify r.path r.gitRef).2.Kept verifier ∧
      inquiry.state.exchanges ⊆
        (inquiry.verify verifier.verify r.path r.gitRef).2.state.exchanges ∧
      ∃ r' : RemoteReference, r'.Grammatical ∧ r'.isPinned = true ∧
        Inquiry.memoKey r'.path r'.gitRef = Inquiry.memoKey r.path r.gitRef ∧
        verifier.Answers (r'.path, r'.gitRef)
          (inquiry.verify verifier.verify r.path r.gitRef).2.state.exchanges
          (inquiry.verify verifier.verify r.path r.gitRef).1 := by
  unfold Inquiry.verify
  cases hmemo : inquiry.verdicts.lookup (Inquiry.memoKey r.path r.gitRef) with
  | some verdict => exact ⟨hkept, List.Subset.refl _, hkept.verdicts _ _ hmemo⟩
  | none =>
      obtain ⟨hstate, hgrows, hanswers⟩ := verifier.verify_kept hkept.state r.path r.gitRef
      dsimp only
      generalize verifier.verify r.path r.gitRef inquiry.state = result at *
      refine ⟨⟨hstate, ?_⟩, hgrows.subset, r, hr, hpinned, rfl, hanswers⟩
      intro key verdict hverdict
      obtain hearlier | ⟨rfl, rfl⟩ := lookup_append_entry hverdict
      · obtain ⟨r', hr', hpinned', hkey, hanswers'⟩ := hkept.verdicts key verdict hearlier
        exact ⟨r', hr', hpinned', hkey, hanswers'.mono hgrows.subset⟩
      · exact ⟨r, hr, hpinned, rfl, hanswers⟩

theorem Inquiry.Reaches.kept {first inquiry : Inquiry (Run σ)}
    (hreaches : first.Reaches verifier.verify inquiry) (hkept : first.Kept verifier) :
    inquiry.Kept verifier ∧ first.state.exchanges ⊆ inquiry.state.exchanges := by
  induction hreaches with
  | refl => exact ⟨hkept, List.Subset.refl _⟩
  | ask _ hr hpinned ih =>
      obtain ⟨hnext, hgrows, -⟩ := ih.1.verify hr hpinned
      exact ⟨hnext, List.Subset.trans ih.2 hgrows⟩

/-- The text of a pinned reference determines its repository and its commit. -/
theorem Inquiry.slug_of_memoKey_eq {r r' : RemoteReference} (hr : r.Grammatical)
    (hr' : r'.Grammatical)
    (heq : Inquiry.memoKey r.path r.gitRef = Inquiry.memoKey r'.path r'.gitRef) :
    r.slug = r'.slug ∧ lowerAsciiString r.gitRef = lowerAsciiString r'.gitRef := by
  obtain ⟨hpath, hsha⟩ := path_of_memoKey_eq hr hr' heq
  exact ⟨hr.slug_of_path_eq hr' hpath, hsha⟩

/-! ## What a silent rule has seen -/

/-- Whatever an enforced rule finds about a reference is an error. -/
theorem isError_of_pinningFinding {rule : Rule} (henforced : rule.mode = .enforced)
    {verify : Bool} {location : Location} {uses : String} {before : Inquiry (Run σ)}
    {v : Violation}
    (hfound : (pinningFinding verifier.verify rule verify location uses before).1 = some v) :
    v.isError = true := by
  have hreports : ∃ codes, rule.Reports codes v := by
    unfold pinningFinding at hfound
    cases hstatus : pinningStatus rule location uses with
    | settled finding =>
        simp only [hstatus] at hfound
        subst hfound
        exact ⟨staticCodes, reports_of_pinningStatus hstatus⟩
    | pinned r =>
        simp only [hstatus] at hfound
        split at hfound
        · exact ⟨verdictCodes, reports_of_verdictFinding hfound⟩
        · cases hfound
  obtain ⟨codes, hreports⟩ := hreports
  rw [Violation.isError, hreports.severity_eq, Rule.severity, henforced]
  rfl

theorem StepReference.Vouched.mono {exchanges more : List Exchange} {reference : StepReference}
    (hvouched : reference.Vouched exchanges) (hsubset : exchanges ⊆ more) :
    reference.Vouched more := by
  cases hvouched with
  | inside path => exact .inside path
  | image hdigest hlength hhex => exact .image hdigest hlength hhex
  | remote hlength hhex hanswer => exact .remote hlength hhex (hsubset hanswer)

/-- A verdict on a pinned reference is a finding, or the service has vouched for the
reference in this run. -/
theorem vouched_of_verdictFinding (henabled : verifier.settings.enabled = true)
    (hstrict : verifier.mode = .strict) {before : Inquiry (Run σ)} (hkept : before.Kept verifier)
    {r : RemoteReference} (hr : r.Grammatical) (hpinned : r.isPinned = true) {rule : Rule}
    {location : Location}
    (hnone : verdictFinding rule location r
      (before.verify verifier.verify r.path r.gitRef).1 = none) :
    (StepReference.remote r).Vouched
      (before.verify verifier.verify r.path r.gitRef).2.state.exchanges := by
  obtain ⟨hlength, hhex⟩ := isFullSha_iff.1 hpinned
  obtain ⟨-, -, r', hr', hpinned', hkey, hanswers⟩ := hkept.verify hr hpinned
  obtain ⟨hslug, hsha⟩ := Inquiry.slug_of_memoKey_eq hr' hr hkey
  generalize before.verify verifier.verify r.path r.gitRef = result at *
  cases hok : result.1.ok with
  | true =>
      have hanswer := hanswers.of_pinned_ok henabled hstrict hr' hpinned' hok
      rw [hslug, hsha] at hanswer
      exact .remote hlength hhex hanswer
  | false =>
      obtain ⟨kind, hkind⟩ := hanswers.failed_of_not_ok hok
      rw [hkind] at hnone
      cases hnone

/-- An enforced rule that finds no fault with a reference has made sure of it. -/
theorem vouched_of_pinningFinding (henabled : verifier.settings.enabled = true)
    (hstrict : verifier.mode = .strict) {rule : Rule} {location : Location} {uses : String}
    {before : Inquiry (Run σ)} (hkept : before.Kept verifier)
    (hnone : (pinningFinding verifier.verify rule true location uses before).1 = none) :
    ∃ reference, StepReference.parse uses = .ok reference ∧
      reference.Vouched
        (pinningFinding verifier.verify rule true location uses before).2.state.exchanges := by
  cases hparse : StepReference.parse uses with
  | error fault => simp [pinningFinding, pinningStatus, hparse] at hnone
  | ok reference =>
      refine ⟨reference, rfl, ?_⟩
      cases reference with
      | inside path => exact .inside path
      | image image =>
          by_cases hpinned : image.isPinned = true
          · obtain ⟨hex, hdigest, hlength, hhex⟩ := ImageReference.isPinned_iff.1 hpinned
            exact .image hdigest hlength hhex
          · simp [pinningFinding, pinningStatus, hparse, hpinned] at hnone
      | remote r =>
          by_cases hpinned : r.isPinned = true
          · have hfinding : pinningFinding verifier.verify rule true location uses before =
                (verdictFinding rule location r
                  (before.verify verifier.verify r.path r.gitRef).1,
                  (before.verify verifier.verify r.path r.gitRef).2) := by
              simp [pinningFinding, pinningStatus, hparse, hpinned]
            rw [hfinding] at hnone ⊢
            exact vouched_of_verdictFinding henabled hstrict hkept
              (RemoteReference.grammatical_of_step hparse) hpinned hnone
          · simp [pinningFinding, pinningStatus, hparse, hpinned] at hnone

theorem isError_eq_false_of_passes {violations : List Violation} {mode : ExecutionMode}
    (hpasses : (decideRun violations {} mode).passes = true) :
    ∀ v ∈ violations, v.isError = false := by
  intro v hv
  have huncovered : (({} : ExceptionSet).find? v).isNone = true := rfl
  simp only [Decision.passes, decideRun, List.isEmpty_iff, List.filter_eq_nil_iff,
    List.mem_filter, and_imp, Bool.not_eq_true] at hpasses
  exact hpasses v hv huncovered

/-- One scan whose findings hold no error has made sure of every reference. -/
theorem Scanner.vouched_of_scan (henabled : verifier.settings.enabled = true)
    (hstrict : verifier.mode = .strict) {scanner : Scanner (Run σ)}
    (hkept : scanner.inquiry.Kept verifier) {rule : Rule}
    (hrule : rule ∈ scanner.policy.rules) (henforced : rule.mode = .enforced)
    (hcheck : rule.check = .shaPinning true) {definitions : List Definition}
    (hsilent : ∀ v ∈ (scanner.scan verifier.verify definitions).1, v.isError = false)
    {d : Definition} (hd : d ∈ definitions) {uses : String} (huses : d.Uses uses) :
    ∃ reference, StepReference.parse uses = .ok reference ∧
      reference.Vouched
        (scanner.scan verifier.verify definitions).2.inquiry.state.exchanges := by
  obtain ⟨location, hmem⟩ := Definition.exists_reference_of_uses huses
  obtain ⟨before, hfirst, hlast, hfound⟩ :=
    Scanner.exists_pinningFinding verifier.verify hrule hcheck hd hmem
  have hbefore := (hfirst.kept hkept).1
  have hjudged := (reaches_pinningFinding verifier.verify rule true location uses
    before).kept hbefore
  have hnone : (pinningFinding verifier.verify rule true location uses before).1 =
      none := by
    rw [Option.eq_none_iff_forall_ne_some]
    intro v hv
    have herror := isError_of_pinningFinding henforced hv
    rw [hsilent v (hfound (by simp [hv]))] at herror
    cases herror
  obtain ⟨reference, hparse, hvouched⟩ :=
    vouched_of_pinningFinding henabled hstrict hbefore hnone
  exact ⟨reference, hparse, hvouched.mono (hlast.kept hjudged.1).2⟩

/-- A strict run with an enforced rule that has references verified, over pipelines
first and bundles second, passes only if every used text is a reference that is
local, an image pinned by digest, or pinned to a commit that the service was asked
for in this run and answered with status 200. -/
theorem Scanner.strict_run_fails_closed (engine : Pattern.Engine) (policy : Policy)
    (rule : Rule) (hrule : rule ∈ policy.rules) (henforced : rule.mode = .enforced)
    (hcheck : rule.check = .shaPinning true) (verifier : Verifier σ)
    (henabled : verifier.settings.enabled = true) (hstrict : verifier.mode = .strict)
    (service : σ) (pipelines bundles : List Definition)
    (hpasses :
      let first := (Scanner.start engine policy (Run.fresh service)).scan verifier.verify pipelines
      let second := first.2.scan verifier.verify bundles
      (decideRun (first.1 ++ second.1) {} .strict).passes = true) :
    let first := (Scanner.start engine policy (Run.fresh service)).scan verifier.verify pipelines
    let second := first.2.scan verifier.verify bundles
    ∀ d ∈ pipelines ++ bundles, ∀ uses, d.Uses uses →
      ∃ reference, StepReference.parse uses = .ok reference ∧
        reference.Vouched second.2.inquiry.state.exchanges := by
  intro first second d hd uses huses
  have hsilent : ∀ v ∈ first.1 ++ second.1, v.isError = false :=
    isError_eq_false_of_passes hpasses
  have hstart : (Scanner.start engine policy (Run.fresh service)).inquiry.Kept verifier :=
    ⟨Run.kept_fresh _ _, fun _ _ hverdict => by cases hverdict⟩
  have hfirst := ((Scanner.start engine policy (Run.fresh service)).reaches_scan verifier.verify
    pipelines).kept hstart
  have hsecond := (first.2.reaches_scan verifier.verify bundles).kept hfirst.1
  rcases List.mem_append.1 hd with hpipeline | hbundle
  · obtain ⟨reference, hparse, hvouched⟩ := Scanner.vouched_of_scan henabled hstrict hstart
      hrule henforced hcheck (fun v hv => hsilent v (List.mem_append_left _ hv))
      hpipeline huses
    exact ⟨reference, hparse, hvouched.mono hsecond.2⟩
  · exact Scanner.vouched_of_scan henabled hstrict hfirst.1 hrule henforced hcheck
      (fun v hv => hsilent v (List.mem_append_right _ hv)) hbundle huses

/-- A workflow with one pinned step, under a service that knows the commit. -/
theorem Scanner.strict_run_fails_closed_one_step :
    let transport : Transport Unit :=
      { probe := fun service => (.ok (), service)
        commitStatus := fun _ _ service => (.ok 200, service) }
    let verifier : Verifier Unit := ⟨{}, .strict, transport⟩
    let policy : Policy := { rules := [{ id := "pinned", check := .shaPinning true }] }
    let uses := "owner/repo/sub@ABCDEF0123456789abcdef0123456789abcdef01"
    let workflow : Definition :=
      { path := "ci.yml", kind := .pipeline,
        jobs := [{ id := "build", steps := [{ index := 0, uses := some uses }] }] }
    let first := (Scanner.start .standard policy (Run.fresh ())).scan verifier.verify [workflow]
    let second := first.2.scan verifier.verify []
    (decideRun (first.1 ++ second.1) {} .strict).passes = true ∧
      ∃ reference, StepReference.parse uses = .ok reference ∧
        reference.Vouched second.2.inquiry.state.exchanges := by
  intro transport verifier policy uses workflow first second
  have hpasses : (decideRun (first.1 ++ second.1) {} .strict).passes = true := by
    decide +kernel
  refine ⟨hpasses, Scanner.strict_run_fails_closed .standard policy _ List.mem_cons_self rfl rfl
    verifier rfl rfl () [workflow] [] hpasses workflow List.mem_cons_self uses ?_⟩
  exact ⟨_, List.mem_cons_self, .inr ⟨_, List.mem_cons_self, rfl⟩⟩

end

end WorkflowAudit
