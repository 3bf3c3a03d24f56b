import WorkflowAudit.Policy.Validation
import WorkflowAudit.Proofs.Scan.Findings
import WorkflowAudit.Proofs.Scan.GlobTable
import WorkflowAudit.Proofs.Scan.Inquiry
import WorkflowAudit.Proofs.Scan.Library
import WorkflowAudit.Proofs.Verification.KeptAnswers
import WorkflowAudit.Report.Decision

/-!
# Rules do not influence each other

The rules of a policy share the compiled patterns, the table of globs and the verdicts on
references.  Where the verifier answers a question always in the same way and no two rules
have one id, none of the three carries anything from one rule to another: a scan reports for
each rule what a scan under that rule alone reports.  Leaving rules out of a policy therefore
takes their violations away and changes nothing else, and advisory rules have no say in
whether a run passes.
-/

namespace WorkflowAudit

open Text

variable {σ : Type}

/-- A verifier that answers by the reference and the commit, whose case is ignored,
and by nothing else. -/
def AnswersBy (verifier : ReferenceVerifier σ) (answer : String → String → Verdict) : Prop :=
  ∀ reference claimed state,
    (verifier reference claimed state).1 = answer reference (lowerAsciiString claimed)

/-! ## The shared verdicts -/

namespace Inquiry

/-- The verdicts that are kept are what the verifier would answer again. -/
def Remembers (answer : String → String → Verdict) (inquiry : Inquiry σ) : Prop :=
  ∀ r : RemoteReference, r.Grammatical → ∀ verdict,
    inquiry.verdicts.lookup (memoKey r.path r.gitRef) = some verdict →
      verdict = answer r.path (lowerAsciiString r.gitRef)

theorem remembers_start (answer : String → String → Verdict) (state : σ) :
    Remembers answer { state } := by
  intro r _ verdict hverdict
  cases hverdict

theorem Remembers.verify {verifier : ReferenceVerifier σ} {answer : String → String → Verdict}
    (hanswers : AnswersBy verifier answer) {inquiry : Inquiry σ}
    (hremembers : inquiry.Remembers answer) {r : RemoteReference} (hr : r.Grammatical) :
    (inquiry.verify verifier r.path r.gitRef).1 = answer r.path (lowerAsciiString r.gitRef) ∧
      (inquiry.verify verifier r.path r.gitRef).2.Remembers answer := by
  unfold Inquiry.verify
  cases hmemo : inquiry.verdicts.lookup (memoKey r.path r.gitRef) with
  | some verdict => exact ⟨hremembers r hr verdict hmemo, hremembers⟩
  | none =>
      refine ⟨hanswers _ _ _, fun other hother verdict hverdict => ?_⟩
      obtain hearlier | ⟨hkey, rfl⟩ := lookup_append_entry hverdict
      · exact hremembers other hother verdict hearlier
      · obtain ⟨hpath, hsha⟩ := path_of_memoKey_eq hother hr hkey
        rw [hpath, hsha]
        exact hanswers _ _ _

end Inquiry

/-! ## What a rule finds by itself -/

/-- What is found about a reference by a verifier with fixed answers. -/
def answeredFinding (answer : String → String → Verdict) (rule : Rule) (verify : Bool)
    (location : Location) (uses : String) : Option Violation :=
  match pinningStatus rule location uses with
  | .settled finding => finding
  | .pinned remote =>
      if verify then
        verdictFinding rule location remote (answer remote.path (lowerAsciiString remote.gitRef))
      else none

/-- What one rule finds in a definition with a verifier of fixed answers. -/
def Rule.findings (answer : String → String → Verdict) (prepared : PreparedPolicy)
    (d : Definition) (rule : Rule) : List Violation :=
  match rule.check with
  | .shaPinning verify =>
      d.references.flatMap fun (location, uses) =>
        (answeredFinding answer rule verify location uses).toList
  | _ => staticFindings prepared rule d

section

variable {verifier : ReferenceVerifier σ} {answer : String → String → Verdict}

theorem pinningFinding_eq_answeredFinding (hanswers : AnswersBy verifier answer) (rule : Rule)
    (verify : Bool) (location : Location) (uses : String) {inquiry : Inquiry σ}
    (hremembers : inquiry.Remembers answer) :
    (pinningFinding verifier rule verify location uses inquiry).1 =
        answeredFinding answer rule verify location uses ∧
      (pinningFinding verifier rule verify location uses inquiry).2.Remembers answer := by
  unfold pinningFinding answeredFinding
  cases hstatus : pinningStatus rule location uses with
  | settled finding => exact ⟨rfl, hremembers⟩
  | pinned r =>
      obtain ⟨-, hr, -⟩ := grammatical_of_pinningStatus hstatus
      obtain ⟨hverdict, hnext⟩ := hremembers.verify hanswers hr
      cases verify with
      | false => exact ⟨rfl, hremembers⟩
      | true => exact ⟨congrArg (verdictFinding rule location r) hverdict, hnext⟩

theorem applyRule_eq_findings (hanswers : AnswersBy verifier answer) (prepared : PreparedPolicy)
    (d : Definition) (rule : Rule) {inquiry : Inquiry σ}
    (hremembers : inquiry.Remembers answer) :
    (applyRule verifier prepared rule d inquiry).1 = rule.findings answer prepared d ∧
      (applyRule verifier prepared rule d inquiry).2.Remembers answer := by
  unfold applyRule Rule.findings
  cases rule.check with
  | shaPinning verify =>
      apply Inquiry.collect_eq_flatMap ?_ d.references hremembers
      rintro ⟨location, uses⟩ inquiry hremembers
      obtain ⟨hfinding, hnext⟩ :=
        pinningFinding_eq_answeredFinding hanswers rule verify location uses hremembers
      exact ⟨congrArg Option.toList hfinding, hnext⟩
  | _ => exact ⟨rfl, hremembers⟩

/-- What a walk over definitions finds: in each of them what every rule finds by itself. -/
theorem scanDefinitions_eq_findings (hanswers : AnswersBy verifier answer)
    (prepared : PreparedPolicy) (definitions : List Definition) {inquiry : Inquiry σ}
    (hremembers : inquiry.Remembers answer) :
    (scanDefinitions verifier prepared definitions inquiry).1 =
        (definitions.flatMap fun d => prepared.rules.flatMap (Rule.findings answer prepared d)) ∧
      (scanDefinitions verifier prepared definitions inquiry).2.Remembers answer :=
  Inquiry.collect_eq_flatMap
    (fun d _ hremembers => Inquiry.collect_eq_flatMap
      (fun rule _ => applyRule_eq_findings hanswers prepared d rule)
      prepared.rules hremembers)
    definitions hremembers

/-- What a fresh scan reports: the problems of every rule, and then for each definition
what every rule finds by itself. -/
theorem Scanner.scan_start_eq (hanswers : AnswersBy verifier answer) (engine : Pattern.Engine)
    (policy : Policy) (state : σ) (definitions : List Definition) :
    ((start engine policy state).scan verifier definitions).1 =
      (policy.rules.flatMap fun rule =>
        rule.problems (policy.patternLibrary engine) policy.location) ++
      definitions.flatMap fun d =>
        policy.rules.flatMap (Rule.findings answer (policy.prepare engine) d) :=
  congrArg _ (scanDefinitions_eq_findings hanswers (policy.prepare engine) definitions
    (Inquiry.remembers_start answer state)).1

/-! ## Leaving rules out -/

theorem reports_of_mem_findings {prepared : PreparedPolicy} {d : Definition} {rule : Rule}
    {v : Violation} (hv : v ∈ rule.findings answer prepared d) :
    rule.Reports (staticCodes ++ verdictCodes) v := by
  unfold Rule.findings at hv
  split at hv
  · obtain ⟨⟨location, uses⟩, -, hfinding⟩ := List.mem_flatMap.1 hv
    have hfound := Option.mem_toList.1 hfinding
    unfold answeredFinding at hfound
    split at hfound
    · next hstatus =>
        subst hfound
        exact (reports_of_pinningStatus hstatus).mono (List.subset_append_left _ _)
    · split at hfound
      · exact (reports_of_verdictFinding hfound).mono (List.subset_append_right _ _)
      · cases hfound
  · exact (reports_of_mem_staticFindings hv).mono (List.subset_append_left _ _)

theorem findings_congr {prepared other : PreparedPolicy} {rule : Rule}
    (hsame : rule.SeesAlike prepared other) (d : Definition) :
    rule.findings answer prepared d = rule.findings answer other d := by
  unfold Rule.findings
  rw [staticFindings_congr hsame]

/-- A rule sees alike in two policies that have it and in which no two rules have one id. -/
theorem seesAlike_prepare (engine : Pattern.Engine) {policy other : Policy} {rule : Rule}
    (hnodup : (policy.rules.map Rule.id).Nodup) (hother : (other.rules.map Rule.id).Nodup)
    (hrule : rule ∈ policy.rules) (hrule' : rule ∈ other.rules) :
    rule.SeesAlike (policy.prepare engine) (other.prepare engine) where
  patterns := seesAlike_patternLibrary engine hrule hrule'
  globs := (GlobTable.ofRule?_ofRules hnodup hrule).trans
    (GlobTable.ofRule?_ofRules hother hrule').symm

theorem filter_flatMap_of_forall {α β : Type} {p : β → Bool} {keep : α → Bool}
    {found : α → List β} (hkeep : ∀ item, ∀ v ∈ found item, p v = keep item) (items : List α) :
    (items.flatMap found).filter p = (items.filter keep).flatMap found := by
  induction items with
  | nil => rfl
  | cons item items ih =>
      rw [List.flatMap_cons, List.filter_append, ih]
      cases hitem : keep item with
      | true =>
          rw [List.filter_cons_of_pos hitem, List.flatMap_cons]
          congr 1
          exact List.filter_eq_self.2 fun v hv => (hkeep item v hv).trans hitem
      | false =>
          rw [List.filter_cons_of_neg (by simp [hitem])]
          have hnone : (found item).filter p = [] := by
            rw [List.filter_eq_nil_iff]
            intro v hv
            simp [hkeep item v hv, hitem]
          rw [hnone, List.nil_append]

/-- A scan under some of the rules reports what the scan under all of them reports of
these rules, if no two have one id. -/
theorem Scanner.scan_filter_rules (hanswers : AnswersBy verifier answer)
    (engine : Pattern.Engine) {policy : Policy} (hnodup : (policy.rules.map Rule.id).Nodup)
    (state state' : σ) (definitions : List Definition) {p : Violation → Bool} {keep : Rule → Bool}
    (hkeep : ∀ (rule : Rule) codes v, rule.Reports codes v → p v = keep rule) :
    ((start engine policy state).scan verifier definitions).1.filter p =
      ((start engine { policy with rules := policy.rules.filter keep } state').scan verifier
        definitions).1 := by
  have hsame : ∀ rule ∈ policy.rules.filter keep, rule.SeesAlike (policy.prepare engine)
      (Policy.prepare engine { policy with rules := policy.rules.filter keep }) :=
    fun rule hrule => seesAlike_prepare engine hnodup
      (hnodup.sublist (List.filter_sublist.map Rule.id)) (List.mem_of_mem_filter hrule) hrule
  rw [scan_start_eq hanswers, scan_start_eq hanswers, List.filter_append]
  congr 1
  · rw [filter_flatMap_of_forall fun rule v hv => hkeep rule _ v (reports_of_mem_problems hv)]
    refine List.flatMap_congr fun rule hrule => ?_
    unfold Rule.problems
    exact congrArg (· ++ _) (patternProblems_congr (hsame rule hrule).patterns _)
  · rw [List.filter_flatMap]
    refine List.flatMap_congr fun d _ => ?_
    rw [filter_flatMap_of_forall fun rule v hv => hkeep rule _ v (reports_of_mem_findings hv)]
    exact List.flatMap_congr fun rule hrule => findings_congr (hsame rule hrule) d

end

/-! ## One rule of a valid policy -/

theorem nodup_of_ruleFault? {seen : List String} {rules : List Rule}
    (hvalid : ruleFault? seen rules = none) :
    (rules.map Rule.id).Nodup ∧ ∀ rule ∈ rules, rule.id ∉ seen := by
  fun_induction ruleFault? seen rules with
  | case1 => simp
  | case5 seen rule rest _ hnew _ ih =>
      obtain ⟨hnodup, hother⟩ := ih hvalid
      rw [List.contains_iff_mem] at hnew
      refine ⟨List.nodup_cons.2 ⟨fun hmem => ?_, hnodup⟩, fun other hmem => ?_⟩
      · obtain ⟨other, hother', heq⟩ := List.mem_map.1 hmem
        exact hother other hother' (heq ▸ List.mem_cons_self)
      · rcases List.mem_cons.1 hmem with rfl | hmem
        · exact hnew
        · exact fun hseen => hother other hmem (List.mem_cons_of_mem _ hseen)
  | _ => cases hvalid

theorem filter_id_eq_singleton {rules : List Rule} (hnodup : (rules.map Rule.id).Nodup)
    {rule : Rule} (hrule : rule ∈ rules) : rules.filter (·.id == rule.id) = [rule] := by
  induction rules with
  | nil => cases hrule
  | cons first rest ih =>
      obtain ⟨hnew, hrest⟩ := List.nodup_cons.1 hnodup
      rcases List.mem_cons.1 hrule with rfl | hmem
      · rw [List.filter_cons_of_pos (by simp)]
        congr 1
        rw [List.filter_eq_nil_iff]
        intro other hother heq
        rw [beq_iff_eq] at heq
        exact hnew (heq ▸ List.mem_map_of_mem hother)
      · have hne : first.id ≠ rule.id := fun heq => hnew (heq ▸ List.mem_map_of_mem hmem)
        rw [List.filter_cons_of_neg (by simpa using hne)]
        exact ih hrest hmem

theorem remaining_filter_isError (violations : List Violation) (exceptions : ExceptionSet)
    (mode : ExecutionMode) :
    (decideRun (violations.filter Violation.isError) exceptions mode).remaining =
      (decideRun violations exceptions mode).remaining := by
  simp only [decideRun, List.filter_filter]
  congr 1
  funext v
  cases v.isError <;> simp

/-- The policy without its advisory rules. -/
def Policy.enforcedOnly (policy : Policy) : Policy :=
  { policy with rules := policy.rules.filter fun rule => rule.mode == .enforced }

/-- Under a valid policy a scan reports of each rule what a scan under that rule alone
reports, and leaving the advisory rules out changes neither what remains nor whether
the run passes. -/
theorem Scanner.rules_are_independent {verifier : ReferenceVerifier σ}
    {answer : String → String → Verdict} (hanswers : AnswersBy verifier answer)
    (engine : Pattern.Engine) {policy : Policy} (hvalid : policy.fault? = none)
    (state state' : σ) (definitions : List Definition) :
    (∀ rule ∈ policy.rules,
      ((start engine policy state).scan verifier definitions).1.filter (·.ruleId == rule.id) =
        ((start engine { policy with rules := [rule] } state').scan verifier definitions).1) ∧
    ∀ (exceptions : ExceptionSet) (mode : ExecutionMode),
      let all := decideRun ((start engine policy state).scan verifier definitions).1
        exceptions mode
      let enforced := decideRun
        ((start engine policy.enforcedOnly state').scan verifier definitions).1 exceptions mode
      enforced.remaining = all.remaining ∧ enforced.passes = all.passes := by
  have hnodup := (nodup_of_ruleFault? hvalid).1
  constructor
  · intro rule hrule
    have honly := filter_id_eq_singleton hnodup hrule
    rw [← honly]
    refine scan_filter_rules hanswers engine hnodup state state' definitions ?_
    intro other codes v hreports
    rw [hreports.ruleId_eq]
  · intro exceptions mode all enforced
    have herrors : ((start engine policy state).scan verifier definitions).1.filter
        Violation.isError =
          ((start engine policy.enforcedOnly state').scan verifier definitions).1 := by
      refine scan_filter_rules hanswers engine hnodup state state' definitions ?_
      intro rule codes v hreports
      rw [Violation.isError, hreports.severity_eq, Rule.severity]
      cases rule.mode <;> rfl
    have hremaining : enforced.remaining = all.remaining := by
      simp only [enforced, all, ← herrors, remaining_filter_isError]
    exact ⟨hremaining, congrArg List.isEmpty hremaining⟩

/-- Two rules that ask about the same reference, the advisory one first, and two that keep
different globs in one field, under a verifier that knows no commit. -/
theorem Scanner.rules_are_independent_shared_reference :
    let verifier : ReferenceVerifier Nat := fun _ _ asked => (.failed .refNotFound, asked + 1)
    let pinned : Rule := { id := "pinned", check := .shaPinning true }
    let policy : Policy :=
      { rules := [{ id := "early", mode := .advisory, check := .shaPinning true }, pinned,
          { id := "others", check := .allowlist ["other/*"] },
          { id := "owners", check := .allowlist ["owner/*"] }] }
    let uses := "owner/repo@ABCDEF0123456789abcdef0123456789abcdef01"
    let workflow : Definition :=
      { path := "ci.yml", kind := .pipeline,
        jobs := [{ id := "build", steps := [{ index := 0, uses := some uses }] }] }
    let found := ((start .standard policy 0).scan verifier [workflow]).1
    AnswersBy verifier (fun _ _ => .failed .refNotFound) ∧ policy.fault? = none ∧
      (∀ rule ∈ policy.rules, found.filter (·.ruleId == rule.id) =
        ((start .standard { policy with rules := [rule] } 0).scan verifier [workflow]).1) ∧
      (found.filter (·.ruleId == "pinned")).map Violation.code = ["ref_not_found"] ∧
      (decideRun found {} .strict).remaining =
        (decideRun ((start .standard policy.enforcedOnly 0).scan verifier [workflow]).1
          {} .strict).remaining := by
  intro verifier pinned policy uses workflow found
  have hanswers : AnswersBy verifier (fun _ _ => .failed .refNotFound) := fun _ _ _ => rfl
  have hvalid : policy.fault? = none := by decide +kernel
  obtain ⟨hrule, hdecision⟩ :=
    rules_are_independent hanswers .standard hvalid 0 0 [workflow]
  have hpinned : (found.filter (·.ruleId == "pinned")).map Violation.code =
      ["ref_not_found"] := by
    rw [hrule pinned (by simp [policy])]
    decide +kernel
  exact ⟨hanswers, hvalid, hrule, hpinned, (hdecision {} .strict).1.symm⟩

end WorkflowAudit
