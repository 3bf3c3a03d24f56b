import WorkflowAudit.Proofs.Scan.Inquiry
import WorkflowAudit.Proofs.Scan.GlobTable
import WorkflowAudit.Proofs.Scan.Library

/-!
# Rejected entries of a policy

The patterns and globs of a policy are its entries.  An entry that is rejected is reported,
once for each time that it stands in the policy, and is otherwise without effect: whatever
a scan finds in documents it also finds under the policy without the rejected entries.  A
check of artifacts none of whose globs can be read keeps them, as without any glob it would
apply to other definitions.
-/

namespace WorkflowAudit

open Pattern

/-! ## Entries -/

/-- An entry of a check: a pattern of one of its specifications, or a glob of a field. -/
inductive PolicyEntry where
  | pattern (spec text : String)
  | glob (field text : String)

/-- The code and the message of a rejected entry. -/
def PolicyEntry.fault? (engine : Engine) : PolicyEntry → Option (String × String)
  | .pattern spec text =>
      match compile engine text with
      | .ok _ => none
      | .error e => some (e.code, s!"pattern '{spec}' rejected: {e.message}")
  | .glob field text =>
      match Glob.parse text with
      | .ok _ => none
      | .error fault =>
          let reason := s!"error parsing glob '{text}': {fault.message}"
          some ("invalid_allowlist_entry", s!"{field} entry '{text}' is not a valid glob: {reason}")

/-- The entries of a check, in order: of each specification its pattern and then those of
its allowed matches, and the globs. -/
def Check.policyEntries (check : Check) : List PolicyEntry :=
  (check.patternSpecs.flatMap fun spec => spec.patterns.map (.pattern spec.id)) ++
    check.globs?.toList.flatMap fun (field, texts) => texts.map (.glob field)

/-- What an entry of a rule is reported as, if it is rejected. -/
def Rule.rejection? (engine : Engine) (location : Location) (rule : Rule) (entry : PolicyEntry) :
    Option Violation :=
  (entry.fault? engine).map fun (code, message) => rule.violation code message location

def Rule.rejections (engine : Engine) (location : Location) (rule : Rule) : List Violation :=
  rule.check.policyEntries.filterMap (rule.rejection? engine location)

def Policy.rejections (engine : Engine) (policy : Policy) : List Violation :=
  policy.rules.flatMap (Rule.rejections engine policy.location)

/-! ## Leaving rejected entries out -/

def accepts (engine : Engine) (pattern : String) : Bool := (compile engine pattern).isOk

def PatternSpec.withoutRejected (engine : Engine) (spec : PatternSpec) : PatternSpec :=
  { spec with allow := spec.allow.filter fun allow => accepts engine (wholeMatch allow.pattern) }

def acceptedSpecs (engine : Engine) (specs : List PatternSpec) : List PatternSpec :=
  (specs.filter fun spec => accepts engine spec.pattern).map (·.withoutRejected engine)

def readableEntries (globs : List String) : List String :=
  globs.filter fun glob => (Glob.parse glob).isOk

/-- A check without its rejected entries.  A check of artifacts keeps its globs where none
can be read. -/
def Check.withoutRejected (engine : Engine) : Check → Check
  | .allowlist allowed => .allowlist (readableEntries allowed)
  | .unsafePattern patterns => .unsafePattern (acceptedSpecs engine patterns)
  | .inlineScript maxLines patterns => .inlineScript maxLines (acceptedSpecs engine patterns)
  | .highRiskTrigger triggers allowed safeguards =>
      .highRiskTrigger triggers (readableEntries allowed) safeguards
  | .artifactPolicy requiredPaths artifactActions appliesTo =>
      .artifactPolicy requiredPaths artifactActions
        (if (readableEntries appliesTo).isEmpty then appliesTo else readableEntries appliesTo)
  | check => check

/-- A check of artifacts that has globs, none of which can be read. -/
def Check.keepsRejected : Check → Bool
  | .artifactPolicy _ _ appliesTo => !appliesTo.isEmpty && (readableEntries appliesTo).isEmpty
  | _ => false

def Rule.withoutRejected (engine : Engine) (rule : Rule) : Rule :=
  { rule with check := rule.check.withoutRejected engine }

def Policy.withoutRejected (engine : Engine) (policy : Policy) : Policy :=
  { policy with rules := policy.rules.map (Rule.withoutRejected engine) }

variable {engine : Engine}

theorem toOption_compile_of_not_accepts {pattern : String}
    (hrejected : ¬accepts engine pattern = true) : (compile engine pattern).toOption = none := by
  unfold accepts at hrejected
  cases hcompile : compile engine pattern with
  | ok compiled => exact (hrejected (by rw [hcompile]; rfl)).elim
  | error e => rfl

@[simp]
theorem Rule.violation_withoutRejected (rule : Rule) :
    (rule.withoutRejected engine).violation = rule.violation := by
  obtain ⟨id, mode, description, check⟩ := rule
  cases check <;> rfl

theorem Rule.withoutRejected_of_keepsRejected {rule : Rule}
    (hkeeps : rule.check.keepsRejected = true) : rule.withoutRejected engine = rule := by
  obtain ⟨id, mode, description, check⟩ := rule
  cases check with
  | artifactPolicy requiredPaths artifactActions appliesTo =>
      have hnone : (readableEntries appliesTo).isEmpty = true := (Bool.and_eq_true_iff.1 hkeeps).2
      rw [withoutRejected, Check.withoutRejected, if_pos hnone]
  | _ => cases hkeeps

theorem readableGlobs_readableEntries (globs : List String) :
    readableGlobs (readableEntries globs) = readableGlobs globs := by
  unfold readableGlobs readableEntries
  rw [List.filterMap_filter]
  refine List.filterMap_congr fun glob _ => ?_
  cases Glob.parse glob <;> rfl

theorem Check.globSet?_withoutRejected (check : Check) :
    (check.withoutRejected engine).globSet? = check.globSet? := by
  cases check with
  | allowlist allowed | highRiskTrigger triggers allowed safeguards =>
      exact congrArg (some <| GlobSet.build ·) (readableGlobs_readableEntries allowed)
  | artifactPolicy requiredPaths artifactActions appliesTo =>
      by_cases hnone : (readableEntries appliesTo).isEmpty = true
      · rw [withoutRejected, if_pos hnone]
      · have happlies : appliesTo.isEmpty = false := Bool.eq_false_iff.2 fun hempty => hnone <| by
          rw [List.isEmpty_iff.1 hempty]
          rfl
        simp only [withoutRejected, globSet?, globs?, hnone, happlies, Bool.false_eq_true, if_false,
          Option.map_some, readableGlobs_readableEntries]
  | _ => rfl

theorem Check.globField?_withoutRejected (check : Check) :
    (check.withoutRejected engine).globField? = check.globField? := by
  cases check <;> rfl

/-- The table of globs is the same: the sets go to the same places in the same order. -/
theorem Policy.globs_withoutRejected (policy : Policy) :
    GlobTable.ofRules (policy.withoutRejected engine).rules = GlobTable.ofRules policy.rules :=
  GlobTable.ofRules_map (Rule.withoutRejected engine) (fun _ => rfl)
    (fun rule => rule.check.globField?_withoutRejected)
    (fun rule => congrArg (Option.bind · Except.toOption) rule.check.globSet?_withoutRejected) _

/-! ## What a rule finds without them -/

section

variable {library kept : PatternLibrary}

theorem firstUncovered?_withoutRejected {spec : PatternSpec}
    (hget : ∀ pattern ∈ spec.patterns, library.get? pattern = some (compile engine pattern))
    (hkept : ∀ pattern ∈ (spec.withoutRejected engine).patterns,
      kept.get? pattern = some (compile engine pattern)) (text : String) :
    kept.firstUncovered? (spec.withoutRejected engine) text = library.firstUncovered? spec text := by
  have hcompiled : kept.compiled? (spec.withoutRejected engine).pattern =
      library.compiled? spec.pattern := by
    rw [PatternLibrary.compiled?_eq_toOption (hget _ List.mem_cons_self)]
    exact PatternLibrary.compiled?_eq_toOption (hkept _ List.mem_cons_self)
  have hallowed : kept.allowed (spec.withoutRejected engine) = library.allowed spec := by
    unfold PatternLibrary.allowed PatternSpec.withoutRejected
    rw [List.filterMap_filter]
    refine List.filterMap_congr fun allow hallow => ?_
    have hget := hget _ (List.mem_cons_of_mem _ (List.mem_map_of_mem hallow))
    rw [PatternLibrary.compiled?_eq_toOption hget]
    by_cases haccepts : accepts engine (wholeMatch allow.pattern) = true
    · rw [if_pos haccepts]
      exact PatternLibrary.compiled?_eq_toOption (hkept _ (List.mem_cons_of_mem _
        (List.mem_map_of_mem (List.mem_filter.2 ⟨hallow, haccepts⟩))))
    · rw [if_neg haccepts, toOption_compile_of_not_accepts haccepts]
  unfold PatternLibrary.firstUncovered?
  rw [hcompiled, hallowed]

theorem fieldFindings_withoutRejected {rule : Rule} {specs : List PatternSpec}
    (hserves : library.Serves engine specs)
    (hkept : kept.Serves engine (acceptedSpecs engine specs)) (code : String) :
    fieldFindings (rule.withoutRejected engine) kept code (acceptedSpecs engine specs) =
      fieldFindings rule library code specs := by
  funext location field value
  unfold fieldFindings acceptedSpecs
  rw [List.filterMap_map, List.filterMap_filter]
  refine List.filterMap_congr fun spec hspec => ?_
  by_cases haccepts : accepts engine spec.pattern = true
  · rw [if_pos haccepts]
    have hmem : spec.withoutRejected engine ∈ acceptedSpecs engine specs :=
      List.mem_map_of_mem (List.mem_filter.2 ⟨hspec, haccepts⟩)
    rw [Function.comp_apply, firstUncovered?_withoutRejected (hserves spec hspec) (hkept _ hmem),
      Rule.violation_withoutRejected]
    rfl
  · have hnone : library.firstUncovered? spec value = none := by
      unfold PatternLibrary.firstUncovered?
      rw [PatternLibrary.compiled?_eq_toOption (hserves spec hspec _ List.mem_cons_self),
        toOption_compile_of_not_accepts haccepts]
    rw [if_neg haccepts, hnone]
    rfl

end

theorem Rule.patternSpecs_withoutRejected (rule : Rule) :
    (rule.withoutRejected engine).check.patternSpecs =
      acceptedSpecs engine rule.check.patternSpecs := by
  obtain ⟨id, mode, description, check⟩ := rule
  cases check <;> rfl

/-- A rule finds the same in documents under either policy. -/
theorem applyRule_withoutRejected {σ : Type} (verifier : ReferenceVerifier σ) {policy : Policy}
    {rule : Rule} (hrule : rule ∈ policy.rules) (d : Definition) (inquiry : Inquiry σ) :
    applyRule verifier ((policy.withoutRejected engine).prepare engine)
        (rule.withoutRejected engine) d inquiry =
      applyRule verifier (policy.prepare engine) rule d inquiry := by
  have hkept : rule.withoutRejected engine ∈ (policy.withoutRejected engine).rules :=
    List.mem_map_of_mem hrule
  have hfields : ∀ code, fieldFindings (rule.withoutRejected engine)
      ((policy.withoutRejected engine).patternLibrary engine) code
        (rule.withoutRejected engine).check.patternSpecs =
      fieldFindings rule (policy.patternLibrary engine) code rule.check.patternSpecs := by
    intro code
    have hserves := serves_patternLibrary engine hkept
    rw [rule.patternSpecs_withoutRejected] at hserves ⊢
    exact fieldFindings_withoutRejected (serves_patternLibrary engine hrule) hserves code
  have hglobs : (GlobTable.ofRules (policy.withoutRejected engine).rules).ofRule?
      (rule.withoutRejected engine) = (GlobTable.ofRules policy.rules).ofRule? rule := by
    rw [policy.globs_withoutRejected]
    exact congrArg (Option.bind · _) rule.check.globField?_withoutRejected
  obtain ⟨id, mode, description, check⟩ := rule
  unfold applyRule staticFindings
  dsimp only [Policy.prepare, Rule.withoutRejected] at hglobs hfields ⊢
  cases check with
  | permissions topLevel jobLevel hardeningStep => rfl
  | shaPinning verify => rfl
  | dockerPinning => rfl
  | allowlist allowed | highRiskTrigger triggers allowed safeguards
  | artifactPolicy requiredPaths artifactActions appliesTo =>
      rw [hglobs]
      rfl
  | unsafePattern patterns =>
      dsimp only [Check.withoutRejected, Check.patternSpecs] at hfields ⊢
      simp only [patternFindings, hfields]
  | inlineScript maxLines patterns =>
      dsimp only [Check.withoutRejected, Check.patternSpecs] at hfields ⊢
      simp only [scriptFindings, hfields]
      rfl

/-! ## What is reported of the entries -/

theorem patternProblems_eq_filterMap {rule : Rule} {library : PatternLibrary}
    (hserves : library.Serves engine rule.check.patternSpecs) (location : Location) :
    rule.patternProblems library location =
      (rule.check.patternSpecs.flatMap fun spec => spec.patterns.map (.pattern spec.id)).filterMap
        (rule.rejection? engine location) := by
  rw [List.filterMap_flatMap]
  refine List.flatMap_congr fun spec hspec => ?_
  rw [List.filterMap_map]
  refine List.filterMap_congr fun pattern hpattern => ?_
  rw [hserves spec hspec pattern hpattern]
  dsimp only [Function.comp_apply, Rule.rejection?, PolicyEntry.fault?]
  cases compile engine pattern <;> rfl

theorem globProblems_eq_filterMap {rule : Rule}
    (hbuilds : ∀ fault, rule.check.globSet? ≠ some (.error fault)) (location : Location) :
    rule.globProblems location =
      (rule.check.globs?.toList.flatMap fun (field, texts) => texts.map (.glob field)).filterMap
        (rule.rejection? engine location) := by
  unfold Rule.globProblems
  cases hglobs : rule.check.globs? with
  | none => rfl
  | some named =>
      obtain ⟨field, texts⟩ := named
      have hset : rule.check.globSet? = some (GlobSet.build (readableGlobs texts)) := by
        rw [Check.globSet?, hglobs]
        rfl
      rw [hset]
      cases hbuild : GlobSet.build (readableGlobs texts) with
      | error fault => exact (hbuilds fault (hbuild ▸ hset)).elim
      | ok globs =>
          rw [Option.toList_some, List.flatMap_singleton, List.filterMap_map]
          refine (List.append_nil _).trans (List.filterMap_congr fun text _ => ?_)
          dsimp only [Function.comp_apply, Rule.rejection?, PolicyEntry.fault?, Rule.globProblem?]
          cases Glob.parse text <;> rfl

theorem rejections_eq_problems {policy : Policy} {rule : Rule} (hrule : rule ∈ policy.rules)
    (hbuilds : ∀ fault, rule.check.globSet? ≠ some (.error fault)) (location : Location) :
    rule.patternProblems (policy.patternLibrary engine) location ++ rule.globProblems location =
      rule.rejections engine location := by
  rw [Rule.rejections, Check.policyEntries, List.filterMap_append,
    patternProblems_eq_filterMap (serves_patternLibrary engine hrule),
    globProblems_eq_filterMap hbuilds]

theorem fault?_eq_none_of_accepts {spec pattern : String}
    (haccepts : accepts engine pattern = true) :
    (PolicyEntry.pattern spec pattern).fault? engine = none := by
  unfold accepts at haccepts
  dsimp only [PolicyEntry.fault?]
  cases hcompile : compile engine pattern with
  | ok compiled => rfl
  | error e =>
      rw [hcompile] at haccepts
      cases haccepts

theorem fault?_eq_none_of_mem_acceptedSpecs {specs : List PatternSpec} {spec : PatternSpec}
    (hspec : spec ∈ acceptedSpecs engine specs) {pattern : String}
    (hpattern : pattern ∈ spec.patterns) :
    (PolicyEntry.pattern spec.id pattern).fault? engine = none := by
  obtain ⟨whole, hwhole, rfl⟩ := List.mem_map.1 hspec
  rcases List.mem_cons.1 hpattern with rfl | hpattern
  · exact fault?_eq_none_of_accepts (List.mem_filter.1 hwhole).2
  · obtain ⟨allow, hallow, rfl⟩ := List.mem_map.1 hpattern
    exact fault?_eq_none_of_accepts (List.mem_filter.1 hallow).2

theorem fault?_eq_none_of_mem_readableEntries {field text : String} {texts : List String}
    (htext : text ∈ readableEntries texts) :
    (PolicyEntry.glob field text).fault? engine = none := by
  have hreads := (List.mem_filter.1 htext).2
  dsimp only [PolicyEntry.fault?]
  cases hparse : Glob.parse text with
  | ok glob => rfl
  | error fault =>
      rw [hparse] at hreads
      cases hreads

/-- The globs that a check keeps can be read, unless it keeps all of them. -/
theorem exists_globs?_withoutRejected {check : Check} (hkeeps : check.keepsRejected = false)
    {field : String} {texts : List String}
    (hglobs : (check.withoutRejected engine).globs? = some (field, texts)) :
    ∃ all, texts = readableEntries all := by
  cases check with
  | allowlist allowed | highRiskTrigger triggers allowed safeguards =>
      cases hglobs
      exact ⟨allowed, rfl⟩
  | artifactPolicy requiredPaths artifactActions appliesTo =>
      rcases Bool.and_eq_false_iff.1 hkeeps with hempty | hsome
      · obtain rfl : appliesTo = [] := by simpa using hempty
        cases hglobs
      · simp only [Check.withoutRejected, Check.globs?, hsome, Bool.false_eq_true, if_false]
          at hglobs
        cases hglobs
        exact ⟨appliesTo, rfl⟩
  | permissions topLevel jobLevel hardeningStep => cases hglobs
  | shaPinning verify => cases hglobs
  | unsafePattern patterns => cases hglobs
  | inlineScript maxLines patterns => cases hglobs
  | dockerPinning => cases hglobs

theorem Rule.rejections_withoutRejected (rule : Rule) (location : Location) :
    (rule.withoutRejected engine).rejections engine location =
      if rule.check.keepsRejected then rule.rejections engine location else [] := by
  cases hkeeps : rule.check.keepsRejected with
  | true =>
      rw [if_pos rfl, rule.withoutRejected_of_keepsRejected hkeeps]
  | false =>
      refine List.filterMap_eq_nil_iff.2 fun entry hentry => ?_
      have hfault : entry.fault? engine = none := by
        rcases List.mem_append.1 hentry with hpattern | hglob
        · obtain ⟨spec, hspec, hpattern⟩ := List.mem_flatMap.1 hpattern
          obtain ⟨pattern, hmem, rfl⟩ := List.mem_map.1 hpattern
          rw [rule.patternSpecs_withoutRejected] at hspec
          exact fault?_eq_none_of_mem_acceptedSpecs hspec hmem
        · obtain ⟨⟨field, texts⟩, hglobs, hglob⟩ := List.mem_flatMap.1 hglob
          obtain ⟨text, htext, rfl⟩ := List.mem_map.1 hglob
          obtain ⟨all, rfl⟩ := exists_globs?_withoutRejected hkeeps (Option.mem_toList.1 hglobs)
          exact fault?_eq_none_of_mem_readableEntries htext
      rw [Rule.rejection?, hfault]
      rfl

/-! ## Whole scans -/

namespace Inquiry

variable {σ α β : Type}

/-- A walk over images of items is one over the items if it looks at both alike. -/
theorem collect_map_congr {f : α → β} {look : β → Inquiry σ → List Violation × Inquiry σ}
    {look' : α → Inquiry σ → List Violation × Inquiry σ} {items : List α}
    (hlook : ∀ item ∈ items, look (f item) = look' item) :
    collect look (items.map f) = collect look' items := by
  induction items with
  | nil => rfl
  | cons item items ih =>
      funext inquiry
      simp only [List.map_cons, collect, hlook item List.mem_cons_self,
        ih fun item hitem => hlook item (List.mem_cons_of_mem _ hitem)]

end Inquiry

/-- Documents are scanned alike under either policy. -/
theorem scanDefinitions_withoutRejected {σ : Type} (verifier : ReferenceVerifier σ)
    (policy : Policy) :
    scanDefinitions verifier ((policy.withoutRejected engine).prepare engine) =
      scanDefinitions verifier (policy.prepare engine) := by
  refine congrArg Inquiry.collect (funext fun d => ?_)
  exact Inquiry.collect_map_congr (f := Rule.withoutRejected engine) fun rule hrule =>
    funext (applyRule_withoutRejected verifier hrule d)

theorem Policy.problems_eq_rejections {policy : Policy}
    (hbuilds : ∀ rule ∈ policy.rules, ∀ fault, rule.check.globSet? ≠ some (.error fault)) :
    policy.problems (policy.patternLibrary engine) = policy.rejections engine :=
  List.flatMap_congr fun rule hrule =>
    rejections_eq_problems hrule (hbuilds rule hrule) policy.location

theorem Policy.rejections_withoutRejected (policy : Policy) :
    (policy.withoutRejected engine).rejections engine =
      (policy.rules.filter fun rule => rule.check.keepsRejected).flatMap
        (Rule.rejections engine policy.location) := by
  have hlocation : (policy.withoutRejected engine).location = policy.location := rfl
  rw [rejections, hlocation, withoutRejected, List.flatMap_map]
  induction policy.rules with
  | nil => rfl
  | cons rule rules ih =>
      rw [List.flatMap_cons, ih, Rule.rejections_withoutRejected, List.filter_cons]
      split <;> rfl

namespace Scanner

/-- A scan reports the rejected entries of the policy, once for each time that they stand
there and in the order of the rules and of their entries, and then what it finds in the
documents.  Under the policy without the rejected entries it asks the same questions and
finds the same in the documents; it reports of the policy only the entries that were kept,
the globs of checks of artifacts that have no other ones. -/
theorem scan_without_rejected_entries {σ : Type} (verifier : ReferenceVerifier σ)
    (engine : Engine) {policy : Policy}
    (hbuilds : ∀ rule ∈ policy.rules, ∀ fault, rule.check.globSet? ≠ some (.error fault))
    (state : σ) (definitions : List Definition) :
    let kept := policy.withoutRejected engine
    let found := (start engine policy state).scan verifier definitions
    let found' := (start engine kept state).scan verifier definitions
    let ofDocuments := (scanDefinitions verifier (kept.prepare engine) definitions { state }).1
    found.1 = policy.rejections engine ++ ofDocuments ∧
      found'.1 = (policy.rules.filter fun rule => rule.check.keepsRejected).flatMap
        (Rule.rejections engine policy.location) ++ ofDocuments ∧
      found.2.inquiry = found'.2.inquiry ∧
      ((∀ rule ∈ policy.rules, rule.check.keepsRejected = false) →
        found.1 = policy.rejections engine ++ found'.1) := by
  intro kept found found' ofDocuments
  have hdocuments : scanDefinitions verifier (kept.prepare engine) =
      scanDefinitions verifier (policy.prepare engine) :=
    scanDefinitions_withoutRejected verifier policy
  have hkept : ∀ rule ∈ kept.rules, ∀ fault, rule.check.globSet? ≠ some (.error fault) := by
    intro other hother fault hfault
    obtain ⟨rule, hrule, rfl⟩ := List.mem_map.1 hother
    exact hbuilds rule hrule fault (rule.check.globSet?_withoutRejected.symm.trans hfault)
  have hfound : found.1 = policy.rejections engine ++ ofDocuments := by
    rw [← Policy.problems_eq_rejections hbuilds]
    exact congrArg (fun scan => _ ++ (scan definitions { state }).1) hdocuments.symm
  have hfound' : found'.1 = (policy.rules.filter fun rule => rule.check.keepsRejected).flatMap
      (Rule.rejections engine policy.location) ++ ofDocuments := by
    rw [← Policy.rejections_withoutRejected, ← Policy.problems_eq_rejections hkept]
    rfl
  refine ⟨hfound, hfound', congrArg (fun scan => (scan definitions { state }).2) hdocuments.symm,
    fun hnone => ?_⟩
  have hempty : (policy.rules.filter fun rule => rule.check.keepsRejected) = [] :=
    List.filter_eq_nil_iff.2 fun rule hrule => Bool.eq_false_iff.1 (hnone rule hrule)
  rw [hfound, hfound', hempty]
  rfl

/-- A specification that is rejected beside one with a rejected exception, and a check of
references whose only glob cannot be read. -/
theorem scan_without_rejected_entries_mixed :
    let verifier : ReferenceVerifier Nat := fun _ _ asked => (.verified, asked + 1)
    let fetch : PatternSpec := { id := "fetch", pattern := "curl", allow := [⟨"(", "none"⟩] }
    let policy : Policy :=
      { rules := [{ id := "shell", check := .unsafePattern [{ id := "open", pattern := "(" }, fetch] },
          { id := "source", check := .allowlist ["["] }] }
    let workflow : Definition :=
      { path := "ci.yml", kind := .pipeline,
        jobs := [{ id := "build",
                   steps := [{ index := 0, run := some "curl", fields := [("run", "curl")] },
                     { index := 1, uses := some "other/repo@v1" }] }] }
    let found := (start .standard policy 0).scan verifier [workflow]
    let found' := (start .standard (policy.withoutRejected .standard) 0).scan verifier [workflow]
    (policy.rejections .standard).map Violation.code =
        ["invalid_regex", "invalid_regex", "invalid_allowlist_entry"] ∧
      found'.1.map Violation.code = ["unsafe_pattern_match", "action_not_allowlisted"] ∧
      (∀ rule ∈ policy.rules, ∀ fault, rule.check.globSet? ≠ some (.error fault)) ∧
      found.1 = policy.rejections .standard ++ found'.1 := by
  intro verifier fetch policy workflow found found'
  have hrejections : (policy.rejections .standard).map Violation.code =
      ["invalid_regex", "invalid_regex", "invalid_allowlist_entry"] := by
    decide +kernel
  have hfound' : found'.1.map Violation.code =
      ["unsafe_pattern_match", "action_not_allowlisted"] := by
    decide +kernel
  have hsets : ∀ rule ∈ policy.rules, rule.check.globSet?.all (·.isOk) = true := by decide +kernel
  have hbuilds : ∀ rule ∈ policy.rules, ∀ fault, rule.check.globSet? ≠ some (.error fault) := by
    intro rule hrule fault hfault
    have hset := hsets rule hrule
    rw [hfault] at hset
    cases hset
  obtain ⟨-, -, -, hinert⟩ :=
    scan_without_rejected_entries verifier .standard hbuilds 0 [workflow]
  exact ⟨hrejections, hfound', hbuilds, hinert (by decide +kernel)⟩

/-- The only glob of a check of artifacts cannot be read: it is kept, and reported again. -/
theorem scan_reports_kept_globs_again :
    let verifier : ReferenceVerifier Nat := fun _ _ asked => (.verified, asked + 1)
    let policy : Policy :=
      { rules := [{ id := "upload",
                    check := .artifactPolicy ["out"] ["actions/upload-artifact"] ["["] }] }
    let found := (start .standard policy 0).scan verifier []
    let found' := (start .standard (policy.withoutRejected .standard) 0).scan verifier []
    policy.withoutRejected .standard = policy ∧
      found.1.map Violation.code = ["invalid_allowlist_entry"] ∧
      found.1 ≠ policy.rejections .standard ++ found'.1 := by
  intro verifier policy found found'
  have hlengths : found.1.length ≠ (policy.rejections .standard ++ found'.1).length := by
    decide +kernel
  exact ⟨by decide +kernel, by decide +kernel, fun hsame => hlengths (congrArg List.length hsame)⟩

end Scanner

end WorkflowAudit
