import WorkflowAudit.Proofs.Scan.FailedAnswers

/-!
# Scans without verification

A policy may check that references are pinned and never have their commits looked up.  A
scan under it asks no verifier.  Beside a scan under the same policy with verification it
leaves out what that one reports of refused commits, and nothing else: no other finding
goes or comes, and none changes its place.  A verifier that is turned off refuses nothing,
so both scans report the same.
-/

namespace WorkflowAudit

open Text

/-! ## Lists with additions -/

/-- The second list has the items of the first in their order, and beyond them only such as
satisfy a condition. -/
inductive OnlyAdds {α : Type} (extra : α → Prop) : List α → List α → Prop
  | nil : OnlyAdds extra [] []
  | keep {item : α} {found more : List α} (hrest : OnlyAdds extra found more) :
      OnlyAdds extra (item :: found) (item :: more)
  | add {item : α} {found more : List α} (hextra : extra item)
      (hrest : OnlyAdds extra found more) : OnlyAdds extra found (item :: more)

namespace OnlyAdds

variable {α β : Type} {extra : α → Prop} {found more others further : List α}

theorem refl (found : List α) : OnlyAdds extra found found := by
  induction found with
  | nil => exact .nil
  | cons item found ih => exact .keep ih

theorem append (hfirst : OnlyAdds extra found more) (hsecond : OnlyAdds extra others further) :
    OnlyAdds extra (found ++ others) (more ++ further) := by
  induction hfirst with
  | nil => exact hsecond
  | keep _ ih => exact .keep ih
  | add hextra _ ih => exact .add hextra ih

theorem flatMap {items : List β} {f g : β → List α}
    (hitems : ∀ item ∈ items, OnlyAdds extra (f item) (g item)) :
    OnlyAdds extra (items.flatMap f) (items.flatMap g) := by
  induction items with
  | nil => exact .nil
  | cons item items ih =>
      exact (hitems item List.mem_cons_self).append
        (ih fun other hother => hitems other (List.mem_cons_of_mem _ hother))

theorem sublist (hadds : OnlyAdds extra found more) : found.Sublist more := by
  induction hadds with
  | nil => exact .slnil
  | keep _ ih => exact ih.cons_cons _
  | add _ _ ih => exact ih.cons _

theorem eq_of_forall_not (hadds : OnlyAdds extra found more) (hnone : ∀ item, ¬extra item) :
    found = more := by
  induction hadds with
  | nil => rfl
  | keep _ ih => rw [ih]
  | add hextra _ _ => exact (hnone _ hextra).elim

end OnlyAdds

/-! ## Policies without verification -/

def Check.unverified : Check → Check
  | .shaPinning _ => .shaPinning false
  | check => check

def Rule.unverified (rule : Rule) : Rule := { rule with check := rule.check.unverified }

/-- The policy with no commit looked up. -/
def Policy.unverified (policy : Policy) : Policy :=
  { policy with rules := policy.rules.map Rule.unverified }

theorem Policy.patternLibrary_unverified (policy : Policy) (engine : Pattern.Engine) :
    policy.unverified.patternLibrary engine = policy.patternLibrary engine := by
  unfold patternLibrary unverified
  rw [List.flatMap_map]
  congr 1
  refine List.flatMap_congr fun rule _ => ?_
  obtain ⟨id, mode, description, check⟩ := rule
  cases check <;> rfl

/-- Only the rules are others: their patterns and globs are the same. -/
theorem Policy.prepare_unverified (policy : Policy) (engine : Pattern.Engine) :
    policy.unverified.prepare engine =
      { policy.prepare engine with rules := policy.rules.map Rule.unverified } := by
  have hglobs : GlobTable.ofRules (policy.rules.map Rule.unverified) =
      GlobTable.ofRules policy.rules := by
    refine GlobTable.ofRules_map Rule.unverified (fun _ => rfl) ?_ ?_ policy.rules <;>
      rintro ⟨id, mode, description, check⟩ <;> cases check <;> rfl
  rw [prepare, patternLibrary_unverified, unverified, hglobs]
  rfl

theorem Policy.problems_unverified (policy : Policy) (library : PatternLibrary) :
    policy.unverified.problems library = policy.problems library := by
  unfold problems unverified
  rw [List.flatMap_map]
  refine List.flatMap_congr fun rule _ => ?_
  obtain ⟨id, mode, description, check⟩ := rule
  cases check <;> rfl

variable {σ : Type}

namespace Inquiry

/-- A walk that asks nothing. -/
theorem collect_pure {α : Type} {look : α → Inquiry σ → List Violation × Inquiry σ}
    {found : α → List Violation} {items : List α}
    (hlook : ∀ item ∈ items, ∀ inquiry, look item inquiry = (found item, inquiry))
    (inquiry : Inquiry σ) : collect look items inquiry = (items.flatMap found, inquiry) := by
  induction items with
  | nil => rfl
  | cons item items ih =>
      rw [collect, hlook item List.mem_cons_self]
      dsimp only
      rw [ih fun other hother => hlook other (List.mem_cons_of_mem _ hother)]
      rfl

end Inquiry

section

variable (verifier : ReferenceVerifier σ) (prepared : PreparedPolicy) (d : Definition)

theorem pinningFinding_false (rule : Rule) (location : Location) (uses : String)
    (inquiry : Inquiry σ) (answer : String → String → Verdict) :
    pinningFinding verifier rule false location uses inquiry =
      (answeredFinding answer rule false location uses, inquiry) := by
  unfold pinningFinding answeredFinding
  cases pinningStatus rule location uses <;> rfl

/-- A rule without verification asks nothing, so its findings go by no answers. -/
theorem applyRule_unverified (rule : Rule) (inquiry : Inquiry σ)
    (answer : String → String → Verdict) :
    applyRule verifier prepared rule.unverified d inquiry =
      (rule.unverified.findings answer prepared d, inquiry) := by
  obtain ⟨id, mode, description, check⟩ := rule
  cases check with
  | shaPinning verify =>
      refine Inquiry.collect_pure (fun reference _ inquiry => ?_) inquiry
      obtain ⟨location, uses⟩ := reference
      dsimp only
      rw [pinningFinding_false verifier _ location uses inquiry answer]
  | _ => rfl

theorem scanDefinitions_unverified (engine : Pattern.Engine) (policy : Policy)
    (definitions : List Definition) (inquiry : Inquiry σ) (answer : String → String → Verdict) :
    scanDefinitions verifier (policy.unverified.prepare engine) definitions inquiry =
      (definitions.flatMap fun d => policy.rules.flatMap fun rule =>
        rule.unverified.findings answer (policy.prepare engine) d, inquiry) := by
  rw [policy.prepare_unverified]
  refine Inquiry.collect_pure (fun d _ inquiry => ?_) inquiry
  have hbare : ∀ bare ∈ policy.rules.map Rule.unverified, ∀ inquiry : Inquiry σ,
      applyRule verifier (policy.prepare engine) bare d inquiry =
        (bare.findings answer (policy.prepare engine) d, inquiry) := by
    intro bare hbare inquiry
    obtain ⟨rule, -, rfl⟩ := List.mem_map.1 hbare
    exact applyRule_unverified verifier _ d rule inquiry answer
  exact (Inquiry.collect_pure hbare inquiry).trans (by rw [List.flatMap_map])

end

/-! ## What verification adds -/

theorem pinningStatus_unverified (rule : Rule) (location : Location) (uses : String) :
    pinningStatus rule.unverified location uses = pinningStatus rule location uses := by
  obtain ⟨id, mode, description, check⟩ := rule
  cases check <;> rfl

theorem onlyAdds_findings {answer : String → String → Verdict} {prepared : PreparedPolicy}
    {d : Definition} {rule : Rule} {extra : Violation → Prop}
    (hextra : rule.check = .shaPinning true → ∀ location uses, (location, uses) ∈ d.references →
      ∀ r, pinningStatus rule location uses = .pinned r →
        ∀ v, verdictFinding rule location r (answer r.path (lowerAsciiString r.gitRef)) = some v →
          extra v) :
    OnlyAdds extra (rule.unverified.findings answer prepared d)
      (rule.findings answer prepared d) := by
  obtain ⟨id, mode, description, check⟩ := rule
  cases check with
  | shaPinning verify =>
      refine OnlyAdds.flatMap fun reference huses => ?_
      obtain ⟨location, uses⟩ := reference
      have hstatus' := pinningStatus_unverified ⟨id, mode, description, .shaPinning verify⟩
        location uses
      dsimp only [answeredFinding]
      rw [hstatus']
      cases hstatus : pinningStatus ⟨id, mode, description, .shaPinning verify⟩ location uses with
      | settled finding => exact .refl _
      | pinned r =>
          cases verify with
          | false => exact .refl _
          | true =>
              dsimp only
              cases hfound : verdictFinding ⟨id, mode, description, .shaPinning true⟩ location r
                  (answer r.path (lowerAsciiString r.gitRef)) with
              | none => exact .nil
              | some v => exact .add (hextra rfl location uses huses r hstatus v hfound) .nil
  | _ => exact .refl _

namespace Scanner

/-- A violation that reports a refused commit: at a pinned remote reference of one of the
definitions, for which the verifier has given an answer that refuses it with a kind. -/
inductive Refusal (verifier : ReferenceVerifier σ) (state : σ) (policy : Policy)
    (definitions : List Definition) : Violation → Prop
  | mk {rule : Rule} {d : Definition} {location : Location} {uses : String}
      {r : RemoteReference} {verdict : Verdict} {kind : FindingKind}
      (hrule : rule ∈ policy.rules) (hcheck : rule.check = .shaPinning true)
      (hd : d ∈ definitions) (huses : (location, uses) ∈ d.references)
      (hread : StepReference.parse uses = .ok (.remote r)) (hpinned : r.isPinned = true)
      (hasked : Inquiry.Asked verifier { state } r verdict) (hrefused : verdict.ok = false)
      (hkind : verdict.kind = some kind) :
      Refusal verifier state policy definitions (rule.violation kind.name
        s!"'{r.display}' failed verification: {kind.name}" location)

section

variable {engine : Pattern.Engine} {policy : Policy} {scanner : Scanner σ}

/-- Without verification a scan goes by no answers, and leaves the inquiry as it was. -/
theorem scan_unverified (hpolicy : scanner.policy = policy.unverified.prepare engine)
    (verifier : ReferenceVerifier σ) (definitions : List Definition)
    (answer : String → String → Verdict) :
    scanner.scan verifier definitions =
      (scanner.unreported ++ definitions.flatMap fun d => policy.rules.flatMap fun rule =>
          rule.unverified.findings answer (policy.prepare engine) d,
        { scanner with unreported := [] }) := by
  unfold scan
  rw [hpolicy, scanDefinitions_unverified verifier engine policy definitions _ answer]

/-- Scans without verification are the same with any verifier, and ask it nothing. -/
theorem scanEach_unverified (hpolicy : scanner.policy = policy.unverified.prepare engine)
    (verifier other : ReferenceVerifier σ) (batches : List (List Definition)) :
    scanner.scanEach other batches = scanner.scanEach verifier batches ∧
      (scanner.scanEach verifier batches).2.inquiry = scanner.inquiry := by
  induction batches generalizing scanner with
  | nil => exact ⟨rfl, rfl⟩
  | cons definitions batches ih =>
      have hscan := fun verifier : ReferenceVerifier σ =>
        scan_unverified hpolicy verifier definitions fun _ _ => .verified
      obtain ⟨hsame, hinquiry⟩ := @ih { scanner with unreported := [] } hpolicy
      simp only [scanEach, hscan, hsame]
      exact ⟨trivial, hinquiry⟩

end

theorem refusal_of_verdictFinding {verifier : ReferenceVerifier σ} {state : σ}
    {policy : Policy} {definitions : List Definition} {rule : Rule} {d : Definition}
    {location : Location} {uses : String} {r : RemoteReference} {verdict : Verdict} {v : Violation}
    (hrule : rule ∈ policy.rules) (hcheck : rule.check = .shaPinning true) (hd : d ∈ definitions)
    (huses : (location, uses) ∈ d.references)
    (hstatus : pinningStatus rule location uses = .pinned r)
    (hasked : Inquiry.Asked verifier { state } r verdict)
    (hfound : verdictFinding rule location r verdict = some v) :
    Refusal verifier state policy definitions v := by
  obtain ⟨hread, -, hpinned⟩ := grammatical_of_pinningStatus hstatus
  unfold verdictFinding at hfound
  split at hfound
  · next hrefused hkind =>
      cases hfound
      exact .mk hrule hcheck hd huses hread hpinned hasked hrefused hkind
  · cases hfound

/-- A scan with verification adds reports of refused commits, and nothing else. -/
theorem onlyAdds_scan (verifier : ReferenceVerifier σ) (engine : Pattern.Engine)
    (policy : Policy) (state : σ) (earlier : List (List Definition))
    (definitions : List Definition) :
    let bare := ((start engine policy.unverified state).scanEach verifier earlier).2
    let scanner := ((start engine policy state).scanEach verifier earlier).2
    OnlyAdds (Refusal verifier state policy definitions) (bare.scan verifier definitions).1
      (scanner.scan verifier definitions).1 := by
  intro bare scanner
  have hpolicy : scanner.policy = policy.prepare engine := policy_scanEach verifier earlier _
  have hbare : bare.policy = policy.unverified.prepare engine := policy_scanEach verifier earlier _
  have hunreported : bare.unreported = scanner.unreported := by
    have hproblems : (start engine policy.unverified state).unreported =
        (start engine policy state).unreported := by
      refine (policy.problems_unverified _).trans (congrArg policy.problems ?_)
      exact policy.patternLibrary_unverified engine
    rw [unreported_scanEach, unreported_scanEach, hproblems]
  have hfound := scan_after_eq_findings verifier engine policy state earlier definitions
  rw [scan_unverified hbare verifier definitions
    (scanner.scan verifier definitions).2.inquiry.answer, hfound, hunreported]
  refine (OnlyAdds.refl _).append (.flatMap fun d hd => .flatMap fun rule hrule =>
    onlyAdds_findings fun hcheck location uses huses r hstatus v hverdict => ?_)
  obtain ⟨hread, -, hpinned⟩ := grammatical_of_pinningStatus hstatus
  have hmem : rule ∈ scanner.policy.rules := by
    rw [hpolicy]
    exact hrule
  have hasked := asked_of_scan (reaches_scanEach verifier earlier (start engine policy state)) rfl
    hmem hcheck hd huses hread hpinned
  exact refusal_of_verdictFinding hrule hcheck hd huses hstatus hasked hverdict

end Scanner

/-! ## A verifier that is turned off -/

theorem Verifier.verify_of_disabled {verifier : Verifier σ}
    (hdisabled : verifier.settings.enabled = false) (reference claimed : String) (run : Run σ) :
    ∃ kind, verifier.verify reference claimed run = (.bypass kind, run) := by
  unfold verify VerifierSettings.admit
  by_cases hlocal : isLocalReference (trimString reference) = true
  · exact ⟨.localAction, by simp [hlocal]⟩
  · exact ⟨.verificationDisabled, by simp [hlocal, hdisabled]⟩

theorem Inquiry.Reaches.state_eq {verifier : ReferenceVerifier σ} {first last : Inquiry σ}
    (hstill : ∀ reference claimed state, (verifier reference claimed state).2 = state)
    (hreaches : first.Reaches verifier last) : last.state = first.state := by
  induction hreaches with
  | refl => rfl
  | ask _ _ _ ih =>
      unfold Inquiry.verify
      split
      · exact ih
      · exact (hstill _ _ _).trans ih

namespace Scanner

/-- A scan under a policy without verification asks no verifier, whichever it is, and its
violations stand in the same order among those of the scan with verification.  Every other
violation of that one lies at a pinned remote reference for which the verifier has given
an answer that refuses it, and has the kind of that answer.  Where the verifier is turned
off, the two scans report the same, and no request is sent. -/
theorem scan_without_verification {τ : Type} (engine : Pattern.Engine) (policy : Policy)
    (earlier : List (List Definition)) (definitions : List Definition) :
    (∀ (verifier : ReferenceVerifier σ) (state : σ),
      let bare := ((start engine policy.unverified state).scanEach verifier earlier).2
      let scanner := ((start engine policy state).scanEach verifier earlier).2
      let found := bare.scan verifier definitions
      let found' := scanner.scan verifier definitions
      found.2.inquiry = { state } ∧
        (∀ other : ReferenceVerifier σ,
          ((start engine policy.unverified state).scanEach other earlier).2.scan other definitions =
            found) ∧
        found.1.Sublist found'.1 ∧
        OnlyAdds (Refusal verifier state policy definitions) found.1 found'.1) ∧
    ∀ (verifier : Verifier τ) (run : Run τ), verifier.settings.enabled = false →
      let bare := ((start engine policy.unverified run).scanEach verifier.verify earlier).2
      let scanner := ((start engine policy run).scanEach verifier.verify earlier).2
      let found := bare.scan verifier.verify definitions
      let found' := scanner.scan verifier.verify definitions
      found'.1 = found.1 ∧ found'.2.inquiry.state = run := by
  refine ⟨fun verifier state => ?_, fun verifier run hdisabled => ?_⟩
  · intro bare scanner found found'
    have hstart : (start engine policy.unverified state).policy =
        policy.unverified.prepare engine := rfl
    have hbare : bare.policy = policy.unverified.prepare engine :=
      policy_scanEach verifier earlier _
    have hscan := fun verifier : ReferenceVerifier σ =>
      scan_unverified hbare verifier definitions fun _ _ => .verified
    have hadds := onlyAdds_scan verifier engine policy state earlier definitions
    refine ⟨?_, fun other => ?_, hadds.sublist, hadds⟩
    · refine (congrArg (fun found => found.2.inquiry) (hscan verifier)).trans ?_
      exact (scanEach_unverified hstart verifier verifier earlier).2
    · rw [(scanEach_unverified hstart verifier other earlier).1]
      exact (hscan other).trans (hscan verifier).symm
  · intro bare scanner found found'
    have hadds := onlyAdds_scan verifier.verify engine policy run earlier definitions
    refine ⟨(hadds.eq_of_forall_not fun v hrefusal => ?_).symm, ?_⟩
    · obtain ⟨-, -, -, -, -, -, ⟨before, claimed, -, -, -, hverdict⟩, hrefused, -⟩ := hrefusal
      obtain ⟨kind, hverify⟩ := Verifier.verify_of_disabled hdisabled _ claimed before.state
      rw [hverify] at hverdict
      subst hverdict
      cases hrefused
    · have hreaches := (reaches_scanEach verifier.verify earlier (start engine policy run)).trans
        (scanner.reaches_scan verifier.verify definitions)
      refine hreaches.state_eq fun reference claimed run => ?_
      obtain ⟨kind, hverify⟩ := Verifier.verify_of_disabled hdisabled reference claimed run
      rw [hverify]

/-- One step with a commit that is refused and one without a commit. -/
theorem scan_without_verification_refused :
    let refusing : ReferenceVerifier Nat := fun _ _ asked => (.failed .refNotFound, asked + 1)
    let disabled : Verifier Unit := ⟨{ enabled := false }, .strict, .offline⟩
    let policy : Policy := { rules := [{ id := "pinned", check := .shaPinning true }] }
    let workflow : Definition :=
      { path := "ci.yml", kind := .pipeline,
        jobs := [{ id := "build",
                   steps := [{ index := 0,
                               uses := some "owner/repo@abcdef0123456789abcdef0123456789abcdef01" },
                     { index := 1, uses := some "owner/repo@v1" }] }] }
    let found := ((start .standard policy.unverified 0).scan refusing [workflow]).1
    let found' := ((start .standard policy 0).scan refusing [workflow]).1
    found.map Violation.code = ["ref_not_pinned"] ∧
      found'.map Violation.code = ["ref_not_found", "ref_not_pinned"] ∧
      OnlyAdds (Refusal refusing 0 policy [workflow]) found found' ∧
      disabled.settings.enabled = false ∧
      ((start .standard policy (Run.fresh ())).scan disabled.verify [workflow]).1 =
        ((start .standard policy.unverified (Run.fresh ())).scan disabled.verify [workflow]).1 := by
  intro refusing disabled policy workflow found found'
  have hfound : found.map Violation.code = ["ref_not_pinned"] := by decide +kernel
  have hfound' : found'.map Violation.code = ["ref_not_found", "ref_not_pinned"] := by
    decide +kernel
  obtain ⟨hany, hdisabled⟩ :=
    @scan_without_verification Nat Unit .standard policy [] [workflow]
  obtain ⟨-, -, -, hadds⟩ := hany refusing 0
  obtain ⟨hsame, -⟩ := hdisabled disabled (Run.fresh ()) rfl
  exact ⟨hfound, hfound', hadds, rfl, hsame⟩

end Scanner

end WorkflowAudit
