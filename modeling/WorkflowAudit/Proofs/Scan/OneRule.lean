import WorkflowAudit.Proofs.Scan.FailedAnswers

/-!
# What a scan reports of one rule

The rules of a valid policy have different ids, so the violations of one of them can be
told apart.  Where nothing is wrong with its patterns and globs, they are its findings in
each definition, whatever the policy holds besides and whatever was scanned before.
-/

namespace WorkflowAudit

variable {σ : Type}

theorem fault?_of_ruleFault? {seen : List String} {rules : List Rule}
    (hvalid : ruleFault? seen rules = none) {rule : Rule} (hrule : rule ∈ rules) :
    rule.check.fault? = none := by
  fun_induction ruleFault? seen rules with
  | case1 => cases hrule
  | case5 seen first rest _ _ hfirst ih =>
      rcases List.mem_cons.1 hrule with rfl | hrule
      · exact hfirst
      · exact ih hvalid hrule
  | _ => cases hvalid

theorem problems_eq_nil {rule : Rule} (hpatterns : rule.check.patternSpecs = [])
    (hglobs : rule.check.globs? = none) (library : PatternLibrary) (location : Location) :
    rule.problems library location = [] := by
  simp [Rule.problems, Rule.patternProblems, Rule.globProblems, hpatterns, hglobs]

theorem Scanner.scan_filter_rule (verifier : ReferenceVerifier σ) (engine : Pattern.Engine)
    {policy : Policy} (hvalid : policy.fault? = none) (state : σ)
    (earlier : List (List Definition)) (definitions : List Definition) {rule : Rule}
    (hrule : rule ∈ policy.rules)
    (hclean : rule.problems (policy.patternLibrary engine) policy.location = []) :
    let found := ((start engine policy state).scanEach verifier earlier).2.scan verifier definitions
    found.1.filter (·.ruleId == rule.id) = definitions.flatMap fun d =>
      rule.findings found.2.inquiry.answer (policy.prepare engine) d := by
  intro found
  have hone := filter_id_eq_singleton (nodup_of_ruleFault? hvalid).1 hrule
  have hid : ∀ (other : Rule) codes v, other.Reports codes v →
      (v.ruleId == rule.id) = (other.id == rule.id) :=
    fun other codes v hreports => by rw [hreports.ruleId_eq]
  have hproblems : (policy.rules.flatMap fun other => other.problems
      (policy.patternLibrary engine) policy.location).filter (·.ruleId == rule.id) = [] := by
    rw [filter_flatMap_of_forall fun other v hv => hid other _ v (reports_of_mem_problems hv),
      hone, List.flatMap_singleton, hclean]
  have hunreported : ((start engine policy state).scanEach verifier earlier).2.unreported.filter
      (·.ruleId == rule.id) = [] := by
    rw [unreported_scanEach]
    split
    · exact hproblems
    · rfl
  have hfindings := scan_after_eq_findings verifier engine policy state earlier definitions
  rw [hfindings, List.filter_append, hunreported, List.nil_append, List.filter_flatMap]
  refine List.flatMap_congr fun d _ => ?_
  rw [filter_flatMap_of_forall fun other v hv => hid other _ v (reports_of_mem_findings hv), hone,
    List.flatMap_singleton]

end WorkflowAudit
