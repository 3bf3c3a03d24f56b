import Mathlib.Data.List.Forall2
import WorkflowAudit.Proofs.Scan.DocumentOrder
import WorkflowAudit.Proofs.Scan.FirstScan

/-!
# Where violations come from

Every violation of a scan belongs to a rule and to a place.  It carries the id, the category
and the severity of one rule of the policy, and a fingerprint of exactly what it says.  It
is located at the policy, if the rule itself gives rise to it, or else at a file, a job or a
step of a definition of that scan.  This does not depend on what the verifier answers or
the engine builds, not even if they answer differently each time.
-/

namespace WorkflowAudit

open Pattern

variable {ε σ : Type} {policy : Policy} {rule : Rule} {v : Violation}

/-- A violation of the rule at a location. -/
def Rule.Finds (rule : Rule) (location : Location) (v : Violation) : Prop :=
  ∃ code message, v = rule.violation code message location

/-- A violation that one rule of the policy accounts for, at the policy or at a place in one
of some definitions. -/
structure Policy.Attributes (policy : Policy) (definitions : List Definition) (v : Violation) :
    Prop where
  rule : ∃ rule ∈ policy.rules,
    v = Violation.make rule.id rule.category v.code rule.severity v.message v.location ∧
      (v.severity = .error ↔ rule.mode = .enforced) ∧
      ∀ other ∈ policy.rules, other.id = v.ruleId → other = rule
  place : v.location = .file (if policy.source.isEmpty then "<policy>" else policy.source) ∨
    ∃ d ∈ definitions, ∃ place, d.At place v.location
  step : ∀ index, v.location.step = some index → ∃ d ∈ definitions, ∃ job ∈ d.jobs,
    ∃ step ∈ job.steps, v.location = .atStep d.path job.id step.index

theorem Definition.At.exists_step {d : Definition} {place : List Nat} {location : Location}
    {index : Nat} (hat : d.At place location) (hindex : location.step = some index) :
    ∃ job ∈ d.jobs, ∃ step ∈ job.steps, location = .atStep d.path job.id step.index := by
  cases hat with
  | file => cases hindex
  | job hjob => cases hindex
  | step hjob hstep =>
      exact ⟨_, List.mem_of_getElem? hjob, _, List.mem_of_getElem? hstep, rfl⟩

theorem attributes_of_finds (hvalid : policy.fault? = none) {definitions : List Definition}
    (hrule : rule ∈ policy.rules) (hfinds : rule.Finds v.location v)
    (hplace : v.location = policy.location ∨ ∃ d ∈ definitions, ∃ place, d.At place v.location) :
    policy.Attributes definitions v := by
  obtain ⟨code, message, hv⟩ := hfinds
  have hcode : v.code = code := congrArg Violation.code hv
  have hmessage : v.message = message := congrArg Violation.message hv
  have hseverity : v.severity = rule.severity := congrArg Violation.severity hv
  have hid : v.ruleId = rule.id := congrArg Violation.ruleId hv
  have hnodup : (policy.rules.map Rule.id).Nodup := (nodup_of_ruleFault? hvalid).1
  refine ⟨⟨rule, hrule, ?_, ?_, fun other hother hsame => ?_⟩, hplace, fun index hindex => ?_⟩
  · rw [hcode, hmessage]
    exact hv
  · rw [hseverity, Rule.severity]
    cases rule.mode <;> simp [Enforcement.severity]
  · exact List.inj_on_of_nodup_map hnodup hother hrule (hsame.trans hid)
  · rcases hplace with hpolicy | ⟨d, hd, place, hat⟩
    · rw [hpolicy] at hindex
      cases hindex
    · exact ⟨d, hd, hat.exists_step hindex⟩

/-! ## Problems of the policy -/

theorem finds_of_mem_globProblems {location : Location} (hv : v ∈ rule.globProblems location) :
    rule.Finds location v := by
  unfold Rule.globProblems at hv
  split at hv
  · rcases List.mem_append.1 hv with hv | hv
    · obtain ⟨entry, -, hfound⟩ := List.mem_filterMap.1 hv
      unfold Rule.globProblem? at hfound
      split at hfound
      · cases hfound
      · exact ⟨_, _, (Option.some.inj hfound).symm⟩
    · split at hv
      · cases hv
      · exact ⟨_, _, List.mem_singleton.1 hv⟩
  · cases hv

theorem finds_of_patternProblem? {location : Location} {spec : PatternSpec}
    {compiled : Option (Except PatternError CompiledPattern)}
    (hv : rule.patternProblem? location spec compiled = some v) : rule.Finds location v := by
  unfold Rule.patternProblem? at hv
  split at hv
  · exact ⟨_, _, (Option.some.inj hv).symm⟩
  · cases hv

namespace Preparation

/-- Every problem so far is a violation of some rule at the policy. -/
def Accounted (policy : Policy) (preparation : Preparation ε) : Prop :=
  ∀ v ∈ preparation.problems, ∃ rule ∈ policy.rules, rule.Finds policy.location v

variable {builder : MatcherBuilder ε} {preparation : Preparation ε}

theorem Accounted.takePattern (haccounted : preparation.Accounted policy)
    (hrule : rule ∈ policy.rules) (spec : PatternSpec) (pattern : String) :
    (preparation.takePattern builder policy.location rule spec pattern).Accounted policy := by
  intro v hv
  rcases List.mem_append.1 hv with hv | hv
  · exact haccounted v hv
  · exact ⟨rule, hrule, finds_of_patternProblem? (Option.mem_toList.1 hv)⟩

theorem Accounted.takeSpec (haccounted : preparation.Accounted policy)
    (hrule : rule ∈ policy.rules) (spec : PatternSpec) :
    (preparation.takeSpec builder policy.location rule spec).Accounted policy :=
  List.foldlRecOn spec.patterns _ haccounted fun _ hbefore pattern _ =>
    hbefore.takePattern hrule spec pattern

theorem Accounted.takeRule (haccounted : preparation.Accounted policy)
    (hrule : rule ∈ policy.rules) :
    (preparation.takeRule builder policy.location rule).Accounted policy := by
  have htaken : (rule.check.patternSpecs.foldl (Preparation.takeSpec builder policy.location rule)
      preparation).Accounted policy :=
    List.foldlRecOn rule.check.patternSpecs _ haccounted fun _ hbefore spec _ =>
      hbefore.takeSpec hrule spec
  intro v hv
  rcases List.mem_append.1 hv with hv | hv
  · exact htaken v hv
  · exact ⟨rule, hrule, finds_of_mem_globProblems hv⟩

end Preparation

theorem accounted_prepareBy (builder : MatcherBuilder ε) (policy : Policy) (asked : ε) :
    (policy.prepareBy builder asked).Accounted policy := by
  have hnone : Preparation.Accounted policy { asked : Preparation ε } := fun _ hv => by cases hv
  exact List.foldlRecOn policy.rules _ hnone fun _ hbefore _ hrule => hbefore.takeRule hrule

/-! ## Whole scans -/

theorem finds_of_mem_findings {answer : String → String → Verdict} {prepared : PreparedPolicy}
    {d : Definition} (hv : v ∈ rule.findings answer prepared d) : rule.Finds v.location v := by
  obtain ⟨code, -, message, location, rfl⟩ := reports_of_mem_findings hv
  exact ⟨code, message, rfl⟩

/-- What is reported of each of some lists of definitions is attributable. -/
def Policy.AttributesEach (policy : Policy) (batches : List (List Definition))
    (found : List (List Violation)) : Prop :=
  List.Forall₂ (fun definitions found => ∀ v ∈ found, policy.Attributes definitions v) batches found

section

variable (hvalid : policy.fault? = none) (verifier : ReferenceVerifier σ)
include hvalid

theorem attributesEach_scanDefinitionsEach {prepared : PreparedPolicy}
    (hrules : prepared.rules = policy.rules) (inquiry : Inquiry σ)
    (batches : List (List Definition)) :
    policy.AttributesEach batches
      (scanDefinitionsEach verifier prepared batches inquiry).1 := by
  rw [scanDefinitionsEach_of_reaches .refl]
  apply List.forall₂_map_right_iff.2
  apply List.forall₂_same.2
  intro definitions _ v hv
  obtain ⟨d, hd, hv⟩ := List.mem_flatMap.1 hv
  obtain ⟨rule, hrule, hv⟩ := List.mem_flatMap.1 hv
  rw [hrules] at hrule
  apply attributes_of_finds hvalid hrule (finds_of_mem_findings hv)
  exact .inr ⟨d, hd, exists_at_of_mem_findings hv⟩

theorem LateScanner.attributesEach_scanEach (builder : MatcherBuilder ε) (asked : ε) (state : σ)
    (batches : List (List Definition)) :
    policy.AttributesEach batches
      ((start policy asked state).scanEach builder verifier batches).1 := by
  have hrules : ((policy.prepareBy builder asked).prepared policy).rules = policy.rules := rfl
  have hfound := attributesEach_scanDefinitionsEach hvalid verifier hrules { state } batches
  rw [scanEach_start]
  cases batches with
  | nil => exact .nil
  | cons definitions batches =>
      obtain ⟨hfirst, hrest⟩ := List.forall₂_cons.1 hfound
      refine .cons (fun v hv => ?_) hrest
      rcases List.mem_append.1 hv with hv | hv
      · obtain ⟨rule, hrule, code, message, rfl⟩ := accounted_prepareBy builder policy asked v hv
        exact attributes_of_finds hvalid hrule ⟨code, message, rfl⟩ (.inl rfl)
      · exact hfirst v hv

/-- In a valid policy every violation of scans in a row carries the id, the category and the
severity of exactly one rule, and the fingerprint of what it says.  Its location is the
policy or a place of a definition of its own scan, and a step is a step of the job that it
is located in.  This holds for any verifier and any engine, also for one that goes on from
state to state and builds something else each time. -/
theorem violations_are_attributable (state : σ) (batches : List (List Definition)) :
    (∀ engine : Engine, policy.AttributesEach batches
      ((Scanner.start engine policy state).scanEach verifier batches).1) ∧
    ∀ (ε : Type) (builder : MatcherBuilder ε) (asked : ε), policy.AttributesEach batches
      ((LateScanner.start policy asked state).scanEach builder verifier batches).1 := by
  constructor
  · intro engine
    have hbuilds : BuildsBy (fun pattern (_ : Unit) => (engine.build pattern, ())) engine :=
      fun _ _ => rfl
    have hfound := LateScanner.attributesEach_scanEach hvalid verifier
      (fun pattern (_ : Unit) => (engine.build pattern, ())) () state batches
    rwa [LateScanner.scanEach_eq hbuilds] at hfound
  · intro ε builder asked
    exact LateScanner.attributesEach_scanEach hvalid verifier builder asked state batches

end

/-- A policy without a source and with a pattern that cannot be read, and an advisory rule
that reports the file, its job and the first step of that. -/
theorem violations_are_attributable_four_places :
    let policy : Policy :=
      { rules := [{ id := "shell", check := .unsafePattern [{ id := "open", pattern := "(" }] },
          { id := "permissions", mode := .advisory,
            check := .permissions true true (some "owner/guard") }] }
    let workflow : Definition :=
      { path := "ci.yml", kind := .pipeline,
        jobs := [{ id := "build", steps := [{ index := 0, run := some "make" }] }] }
    let verifier : ReferenceVerifier Unit := fun _ _ _ => (.verified, ())
    let found := ((Scanner.start .standard policy ()).scanEach verifier [[], [workflow]]).1
    policy.fault? = none ∧
      found.map (List.map fun v => (v.ruleId, v.location)) =
        [[("shell", .file "<policy>")],
          [("permissions", .file "ci.yml"), ("permissions", .inJob "ci.yml" "build"),
            ("permissions", .atStep "ci.yml" "build" 0)]] ∧
      policy.AttributesEach [[], [workflow]] found := by
  intro policy workflow verifier found
  have hvalid : policy.fault? = none := by decide +kernel
  have hplaces : found.map (List.map fun v => (v.ruleId, v.location)) =
      [[("shell", .file "<policy>")],
        [("permissions", .file "ci.yml"), ("permissions", .inJob "ci.yml" "build"),
          ("permissions", .atStep "ci.yml" "build" 0)]] := by
    decide +kernel
  obtain ⟨hfound, -⟩ := violations_are_attributable hvalid verifier () [[], [workflow]]
  exact ⟨hvalid, hplaces, hfound .standard⟩

end WorkflowAudit
