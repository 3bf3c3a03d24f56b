import WorkflowAudit.Proofs.Scan.Tolerance
import WorkflowAudit.Proofs.Scan.Independence

/-!
# Failed answers are reported

A scan keeps the first answer for each reference and commit and reports it at every
place that uses them.  Its findings can therefore be read off the answers that it holds
in the end: every rule finds at every reference what the recorded answer comes to.  An
answer that allows the reference is reported nowhere, and an answer that refuses it with
a kind is reported once at each place; an answer that refuses it without one is lost.
-/

namespace WorkflowAudit

open Text

variable {σ : Type}

namespace Inquiry

/-- The verdict that is kept for a reference and a commit in lower case. -/
def answer (inquiry : Inquiry σ) (reference sha : String) : Verdict :=
  (inquiry.verdicts.lookup (reference ++ "@" ++ sha)).getD .verified

/-- The verifier has given this verdict when it was first asked for the reference, with
its commit spelled in some case. -/
def Asked (verifier : ReferenceVerifier σ) (first : Inquiry σ) (r : RemoteReference)
    (verdict : Verdict) : Prop :=
  ∃ (before : Inquiry σ) (claimed : String), first.Reaches verifier before ∧
    before.verdicts.lookup (memoKey r.path r.gitRef) = none ∧
    lowerAsciiString claimed = lowerAsciiString r.gitRef ∧
    (verifier r.path claimed before.state).1 = verdict

variable {verifier : ReferenceVerifier σ} {first inquiry last : Inquiry σ}

/-! ## What is recorded -/

theorem lookup_verify (verifier : ReferenceVerifier σ) (reference claimed : String)
    (inquiry : Inquiry σ) :
    (inquiry.verify verifier reference claimed).2.verdicts.lookup (memoKey reference claimed) =
      some (inquiry.verify verifier reference claimed).1 := by
  unfold Inquiry.verify
  split
  · assumption
  · next hnone => simp [List.lookup_append, hnone]

/-- What is recorded stays recorded. -/
theorem Reaches.lookup_eq_some (hreaches : first.Reaches verifier last) {key : String}
    {verdict : Verdict} (hverdict : first.verdicts.lookup key = some verdict) :
    last.verdicts.lookup key = some verdict := by
  induction hreaches with
  | refl => exact hverdict
  | ask _ _ _ ih =>
      unfold Inquiry.verify
      split
      · exact ih
      · rw [List.lookup_append, ih]
        rfl

theorem Reaches.answer_eq {r : RemoteReference}
    (hreaches : (inquiry.verify verifier r.path r.gitRef).2.Reaches verifier last) :
    last.answer r.path (lowerAsciiString r.gitRef) =
      (inquiry.verify verifier r.path r.gitRef).1 := by
  have hkept := hreaches.lookup_eq_some (lookup_verify verifier r.path r.gitRef inquiry)
  rw [answer, ← memoKey, hkept]
  rfl

/-- Everything that is recorded was an answer of the verifier. -/
theorem Reaches.asked (hstart : first.verdicts = []) (hreaches : first.Reaches verifier last)
    {r : RemoteReference} (hr : r.Grammatical) {verdict : Verdict}
    (hverdict : last.verdicts.lookup (memoKey r.path r.gitRef) = some verdict) :
    first.Asked verifier r verdict := by
  induction hreaches generalizing r verdict with
  | refl =>
      rw [hstart] at hverdict
      cases hverdict
  | @ask inquiry asked hreaches hasked _ ih =>
      unfold Inquiry.verify at hverdict
      cases hmemo : inquiry.verdicts.lookup (memoKey asked.path asked.gitRef) with
      | some earlier =>
          rw [hmemo] at hverdict
          exact ih hr hverdict
      | none =>
          rw [hmemo] at hverdict
          obtain hearlier | ⟨hkey, rfl⟩ := lookup_append_entry hverdict
          · exact ih hr hearlier
          · obtain ⟨hpath, hsha⟩ := path_of_memoKey_eq hr hasked hkey
            refine ⟨inquiry, asked.gitRef, hreaches, hkey ▸ hmemo, hsha.symm, ?_⟩
            rw [hpath]

/-! ## A walk read off what is recorded in the end -/

theorem collect_eq_flatMap_of_reaches {α : Type} {found : α → List Violation}
    {look : α → Inquiry σ → List Violation × Inquiry σ}
    (hreach : ∀ item (inquiry : Inquiry σ), inquiry.Reaches verifier (look item inquiry).2)
    (hlook : ∀ item (inquiry : Inquiry σ), (look item inquiry).2.Reaches verifier last →
      (look item inquiry).1 = found item)
    (items : List α) (hlast : (collect look items inquiry).2.Reaches verifier last) :
    (collect look items inquiry).1 = items.flatMap found := by
  induction items generalizing inquiry with
  | nil => rfl
  | cons item items ih =>
      have hfirst := hlook item inquiry ((reaches_collect hreach items _).trans hlast)
      exact congrArg₂ List.append hfirst (ih hlast)

end Inquiry

section

variable {verifier : ReferenceVerifier σ} {inquiry last : Inquiry σ}

theorem pinningFinding_of_reaches {rule : Rule} {verify : Bool} {location : Location}
    {uses : String}
    (hlast : (pinningFinding verifier rule verify location uses inquiry).2.Reaches verifier last) :
    (pinningFinding verifier rule verify location uses inquiry).1 =
      answeredFinding last.answer rule verify location uses := by
  unfold pinningFinding at hlast ⊢
  unfold answeredFinding
  cases hstatus : pinningStatus rule location uses with
  | settled finding => rfl
  | pinned r =>
      rw [hstatus] at hlast
      cases verify with
      | false => rfl
      | true => exact congrArg (verdictFinding rule location r) hlast.answer_eq.symm

theorem applyRule_of_reaches {prepared : PreparedPolicy} {rule : Rule} {d : Definition}
    (hlast : (applyRule verifier prepared rule d inquiry).2.Reaches verifier last) :
    (applyRule verifier prepared rule d inquiry).1 =
      rule.findings last.answer prepared d := by
  unfold applyRule at hlast ⊢
  unfold Rule.findings
  cases hcheck : rule.check with
  | shaPinning verify =>
      rw [hcheck] at hlast
      refine Inquiry.collect_eq_flatMap_of_reaches ?_ ?_ d.references hlast
      · rintro ⟨location, uses⟩ inquiry
        exact reaches_pinningFinding verifier rule verify location uses inquiry
      · rintro ⟨location, uses⟩ inquiry hreaches
        exact congrArg Option.toList (pinningFinding_of_reaches hreaches)
  | _ => rfl

theorem scanDefinitions_of_reaches {policy : PreparedPolicy} {definitions : List Definition}
    (hlast : (scanDefinitions verifier policy definitions inquiry).2.Reaches verifier last) :
    (scanDefinitions verifier policy definitions inquiry).1 =
      definitions.flatMap fun d => policy.rules.flatMap (Rule.findings last.answer policy d) := by
  refine Inquiry.collect_eq_flatMap_of_reaches ?_ ?_ definitions hlast
  · exact fun d => reaches_applyRules verifier _ d _
  · intro d inquiry hlast
    refine Inquiry.collect_eq_flatMap_of_reaches ?_ ?_ _ hlast
    · exact fun rule => reaches_applyRule verifier _ rule d
    · exact fun rule inquiry hreaches => applyRule_of_reaches hreaches

end

/-! ## What an answer comes to -/

/-- What an answer on a reference adds to the findings of a rule at its location. -/
structure Verdict.Reported (rule : Rule) (location : Location) (r : RemoteReference)
    (verdict : Verdict) (share : List Violation) : Prop where
  allowed : verdict.ok = true → share = []
  refused : verdict.ok = false → ∀ kind, verdict.kind = some kind →
    share = [rule.violation kind.name
      s!"'{r.display}' failed verification: {kind.name}" location]
  lost : verdict.ok = false → verdict.kind = none → share = []

theorem Verdict.reported_verdictFinding (rule : Rule) (location : Location)
    (r : RemoteReference) (verdict : Verdict) :
    verdict.Reported rule location r (verdictFinding rule location r verdict).toList := by
  rcases verdict with ⟨ok, kind⟩
  refine ⟨?_, ?_, ?_⟩
  · rintro rfl
    rfl
  · rintro rfl _ rfl
    rfl
  · rintro rfl rfl
    rfl

namespace Scanner

theorem reaches_scanEach (verifier : ReferenceVerifier σ) (batches : List (List Definition))
    (scanner : Scanner σ) :
    scanner.inquiry.Reaches verifier (scanner.scanEach verifier batches).2.inquiry := by
  induction batches generalizing scanner with
  | nil => exact .refl
  | cons definitions batches ih =>
      exact (scanner.reaches_scan verifier definitions).trans (ih _)

theorem policy_scanEach (verifier : ReferenceVerifier σ) (batches : List (List Definition))
    (scanner : Scanner σ) : (scanner.scanEach verifier batches).2.policy = scanner.policy := by
  induction batches generalizing scanner with
  | nil => rfl
  | cons definitions batches ih => exact ih _

theorem unreported_scanEach (verifier : ReferenceVerifier σ) (batches : List (List Definition))
    (scanner : Scanner σ) : (scanner.scanEach verifier batches).2.unreported =
      if batches.isEmpty then scanner.unreported else [] := by
  induction batches generalizing scanner with
  | nil => rfl
  | cons definitions batches ih =>
      refine (ih _).trans ?_
      cases batches <;> rfl

/-- The findings of a scan, read off the answers that it holds in the end. -/
theorem scan_eq_findings (verifier : ReferenceVerifier σ) (scanner : Scanner σ)
    (definitions : List Definition) :
    (scanner.scan verifier definitions).1 = scanner.unreported ++
      definitions.flatMap fun d => scanner.policy.rules.flatMap
        (Rule.findings (scanner.scan verifier definitions).2.inquiry.answer scanner.policy d) :=
  congrArg _ (scanDefinitions_of_reaches .refl)

/-- The same for a scanner of a policy, after any earlier scans. -/
theorem scan_after_eq_findings (verifier : ReferenceVerifier σ) (engine : Pattern.Engine)
    (policy : Policy) (state : σ) (earlier : List (List Definition))
    (definitions : List Definition) :
    let scanner := ((start engine policy state).scanEach verifier earlier).2
    (scanner.scan verifier definitions).1 = scanner.unreported ++
      definitions.flatMap fun d => policy.rules.flatMap
        (Rule.findings (scanner.scan verifier definitions).2.inquiry.answer
          (policy.prepare engine) d) := by
  intro scanner
  have hpolicy : scanner.policy = policy.prepare engine := policy_scanEach verifier earlier _
  have hfindings := scan_eq_findings verifier scanner definitions
  rwa [hpolicy] at hfindings

/-- Every pinned remote reference that a rule with verification comes to has a recorded
answer, which the verifier has given since the scanner was started. -/
theorem asked_of_scan {verifier : ReferenceVerifier σ} {scanner : Scanner σ} {first : Inquiry σ}
    (hfirst : first.Reaches verifier scanner.inquiry) (hstart : first.verdicts = [])
    {rule : Rule} (hrule : rule ∈ scanner.policy.rules)
    (hcheck : rule.check = .shaPinning true) {definitions : List Definition}
    {d : Definition} (hd : d ∈ definitions) {location : Location} {uses : String}
    (huses : (location, uses) ∈ d.references) {r : RemoteReference}
    (hread : StepReference.parse uses = .ok (.remote r)) (hpinned : r.isPinned = true) :
    first.Asked verifier r ((scanner.scan verifier definitions).2.inquiry.answer r.path
      (lowerAsciiString r.gitRef)) := by
  obtain ⟨before, hbefore, hlast, -⟩ :=
    exists_pinningFinding verifier hrule hcheck hd huses
  have hstatus : pinningStatus rule location uses = .pinned r := by
    simp [pinningStatus, hread, hpinned]
  have hjudged : (pinningFinding verifier rule true location uses before).2 =
      (before.verify verifier r.path r.gitRef).2 := by
    simp [pinningFinding, hstatus]
  rw [hjudged] at hlast
  have hr := RemoteReference.grammatical_of_step hread
  have hrecorded := hlast.lookup_eq_some (Inquiry.lookup_verify verifier r.path r.gitRef before)
  rw [hlast.answer_eq]
  exact ((hfirst.trans hbefore).trans ((Inquiry.Reaches.refl.ask hr hpinned).trans hlast)).asked
    hstart hr hrecorded

/-- The findings of a scan under any policy and any verifier, after any earlier scans,
are the findings of each rule in each definition, where a pinned remote reference that is
verified is judged by the answer that the verifier has given for it.  An answer that
allows it adds nothing there, an answer that refuses it with a kind adds one violation at
its location, and an answer that refuses it without a kind adds nothing. -/
theorem scan_reports_failed_answers (verifier : ReferenceVerifier σ) (engine : Pattern.Engine)
    (policy : Policy) (state : σ) (earlier : List (List Definition))
    (definitions : List Definition) :
    let scanner := ((start engine policy state).scanEach verifier earlier).2
    let found := scanner.scan verifier definitions
    let answer := found.2.inquiry.answer
    found.1 = scanner.unreported ++ definitions.flatMap (fun d =>
        policy.rules.flatMap fun rule =>
          rule.findings answer (policy.prepare engine) d) ∧
      ∀ rule ∈ policy.rules, rule.check = .shaPinning true →
        (∀ d, rule.findings answer (policy.prepare engine) d =
          d.references.flatMap fun (location, uses) =>
            (answeredFinding answer rule true location uses).toList) ∧
        ∀ d ∈ definitions, ∀ location uses, (location, uses) ∈ d.references →
          ∀ r, StepReference.parse uses = .ok (.remote r) → r.isPinned = true →
            ∃ verdict, Inquiry.Asked verifier { state } r verdict ∧
              verdict.Reported rule location r
                (answeredFinding answer rule true location uses).toList := by
  intro scanner found answer
  have hpolicy : scanner.policy = policy.prepare engine := policy_scanEach verifier earlier _
  refine ⟨?_, fun rule hrule hcheck => ⟨fun d => ?_, ?_⟩⟩
  · exact scan_after_eq_findings verifier engine policy state earlier definitions
  · unfold Rule.findings
    rw [hcheck]
  · intro d hd location uses huses r hread hpinned
    have hmem : rule ∈ scanner.policy.rules := by
      rw [hpolicy]
      exact hrule
    refine ⟨_, asked_of_scan (reaches_scanEach verifier earlier _) rfl hmem hcheck hd huses
      hread hpinned, ?_⟩
    have hstatus : pinningStatus rule location uses = .pinned r := by
      simp [pinningStatus, hread, hpinned]
    have hfinding : answeredFinding answer rule true location uses =
        verdictFinding rule location r (answer r.path (lowerAsciiString r.gitRef)) := by
      simp [answeredFinding, hstatus]
    rw [hfinding]
    exact Verdict.reported_verdictFinding rule location r _

/-- One reference used by a job and by its step under a verifier that knows no commit: two
violations out of one question. -/
theorem scan_reports_failed_answers_twice :
    let verifier : ReferenceVerifier Nat := fun _ _ asked => (.failed .refNotFound, asked + 1)
    let rule : Rule := { id := "pinned", check := .shaPinning true }
    let policy : Policy := { rules := [rule] }
    let uses := "owner/repo@ABCDEF0123456789abcdef0123456789abcdef01"
    let workflow : Definition :=
      { path := "ci.yml", kind := .pipeline,
        jobs := [{ id := "call", uses := some uses,
                   steps := [{ index := 0, uses := some uses }] }] }
    let found := (start .standard policy 0).scan verifier [workflow]
    found.1.map Violation.location = [.inJob "ci.yml" "call", .atStep "ci.yml" "call" 0] ∧
      found.2.inquiry.state = 1 ∧
      ∃ r verdict, StepReference.parse uses = .ok (.remote r) ∧
        Inquiry.Asked verifier { state := 0 } r verdict ∧
        verdict.Reported rule (.atStep "ci.yml" "call" 0) r
          (answeredFinding found.2.inquiry.answer rule true
            (.atStep "ci.yml" "call" 0) uses).toList := by
  intro verifier rule policy uses workflow found
  obtain ⟨-, hrules⟩ :=
    scan_reports_failed_answers verifier .standard policy 0 [] [workflow]
  obtain ⟨-, hreported⟩ := hrules rule List.mem_cons_self rfl
  have hread : StepReference.parse uses = .ok (.remote
      ⟨"owner", "repo", none, "ABCDEF0123456789abcdef0123456789abcdef01"⟩) := by
    decide +kernel
  obtain ⟨verdict, hasked, hshare⟩ := hreported workflow List.mem_cons_self
    (.atStep "ci.yml" "call" 0) uses (by decide +kernel) _ hread (by decide +kernel)
  have hplaces : found.1.map Violation.location =
      [.inJob "ci.yml" "call", .atStep "ci.yml" "call" 0] := by
    decide +kernel
  have hasks : found.2.inquiry.state = 1 := by decide +kernel
  exact ⟨hplaces, hasks, _, verdict, hread, hasked, hshare⟩

/-- A verifier that refuses every reference and says no kind: the scan has asked it and
reports nothing. -/
theorem scan_loses_bare_refusals :
    let verifier : ReferenceVerifier Nat := fun _ _ asked => (⟨false, none⟩, asked + 1)
    let policy : Policy := { rules := [{ id := "pinned", check := .shaPinning true }] }
    let uses := "owner/repo@abcdef0123456789abcdef0123456789abcdef01"
    let workflow : Definition :=
      { path := "ci.yml", kind := .pipeline,
        jobs := [{ id := "build", steps := [{ index := 0, uses := some uses }] }] }
    let found := (start .standard policy 0).scan verifier [workflow]
    (∀ reference claimed asked, (verifier reference claimed asked).1.ok = false) ∧
      found.2.inquiry.state = 1 ∧ found.1 = [] := by
  intro verifier policy uses workflow found
  exact ⟨fun _ _ _ => rfl, by decide +kernel, by decide +kernel⟩

end Scanner

end WorkflowAudit
