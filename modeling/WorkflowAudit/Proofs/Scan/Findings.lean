import Mathlib.Tactic.Common
import WorkflowAudit.Scan.Scanner

/-!
# What a rule reports

Whatever a rule reports carries the id, the category and the severity of the rule, and
a code from a fixed list.  The codes of verdicts are names of their own, except for one
that a text which is no reference shares, so a check that asks no verifier never
reports that a service was out of reach.
-/

namespace WorkflowAudit

open Pattern

/-- The codes of findings that take no verdict. -/
def staticCodes : List String :=
  ["missing_top_level_permissions", "missing_job_permissions", "hardening_step_not_first",
    "invalid_reference", "image_not_pinned", "ref_not_pinned", "action_not_allowlisted",
    "unsafe_pattern_match", "inline_script_too_long", "inline_script_pattern_match",
    "high_risk_trigger_unguarded", "artifact_path_missing", "unsafe_regex", "invalid_regex",
    "invalid_allowlist_entry"]

/-- The codes of findings that report a verdict. -/
def verdictCodes : List String := FindingKind.all.map FindingKind.name

/-- A violation of the rule under one of some codes. -/
def Rule.Reports (rule : Rule) (codes : List String) (v : Violation) : Prop :=
  ∃ code ∈ codes, ∃ message location, v = rule.violation code message location

theorem Rule.reports_violation {rule : Rule} {codes : List String} {code : String}
    (hcode : code ∈ codes) (message : String) (location : Location) :
    rule.Reports codes (rule.violation code message location) :=
  ⟨code, hcode, message, location, rfl⟩

theorem Rule.Reports.mono {rule : Rule} {codes more : List String} {v : Violation}
    (hreports : rule.Reports codes v) (hsubset : codes ⊆ more) : rule.Reports more v := by
  obtain ⟨code, hcode, message, location, rfl⟩ := hreports
  exact reports_violation (hsubset hcode) message location

section

variable {rule : Rule} {v : Violation}

theorem Rule.Reports.code_mem {codes : List String} (hreports : rule.Reports codes v) :
    v.code ∈ codes := by
  obtain ⟨code, hcode, message, location, rfl⟩ := hreports
  exact hcode

theorem Rule.Reports.ruleId_eq {codes : List String} (hreports : rule.Reports codes v) :
    v.ruleId = rule.id := by
  obtain ⟨code, hcode, message, location, rfl⟩ := hreports
  rfl

theorem Rule.Reports.severity_eq {codes : List String} (hreports : rule.Reports codes v) :
    v.severity = rule.severity := by
  obtain ⟨code, hcode, message, location, rfl⟩ := hreports
  rfl

/-! ## Checks that ask no verifier -/

theorem reports_of_mem_declarationFindings {topLevel jobLevel : Bool} {d : Definition}
    (hv : v ∈ declarationFindings rule topLevel jobLevel d) : rule.Reports staticCodes v := by
  unfold declarationFindings at hv
  split at hv
  · cases hv
  · dsimp only at hv
    rcases List.mem_append.1 hv with hv | hv
    · split at hv
      · rw [List.mem_singleton.1 hv]
        exact Rule.reports_violation (by decide) _ _
      · cases hv
    · obtain ⟨job, -, rfl⟩ := List.mem_map.1 hv
      exact Rule.reports_violation (by decide) _ _

theorem reports_of_mem_hardeningFindings {required : String} {d : Definition}
    (hv : v ∈ hardeningFindings rule required d) : rule.Reports staticCodes v := by
  obtain ⟨job, -, hfound⟩ := List.mem_filterMap.1 hv
  split at hfound
  · cases hfound
  · split at hfound
    · cases hfound
    · cases hfound
      exact Rule.reports_violation (by decide) _ _

theorem reports_of_mem_permissionFindings {topLevel jobLevel : Bool}
    {hardeningStep : Option String} {d : Definition}
    (hv : v ∈ permissionFindings rule topLevel jobLevel hardeningStep d) :
    rule.Reports staticCodes v := by
  rcases List.mem_append.1 hv with hv | hv
  · exact reports_of_mem_declarationFindings hv
  · cases hardeningStep with
    | none => cases hv
    | some required => exact reports_of_mem_hardeningFindings hv

theorem reports_of_mem_allowlistFindings {globs : Option GlobSet} {d : Definition}
    (hv : v ∈ allowlistFindings rule globs d) : rule.Reports staticCodes v := by
  obtain ⟨⟨location, uses⟩, -, hfound⟩ := List.mem_filterMap.1 hv
  dsimp only [allowlistFinding] at hfound
  split at hfound
  · split at hfound
    · cases hfound
    · cases hfound
      exact Rule.reports_violation (by decide) _ _
  · cases hfound

theorem reports_of_mem_fieldFindings {codes : List String} {library : PatternLibrary}
    {code : String} {patterns : List PatternSpec} {location : Location} {field value : String}
    (hcode : code ∈ codes)
    (hv : v ∈ fieldFindings rule library code patterns location field value) :
    rule.Reports codes v := by
  obtain ⟨spec, -, hfound⟩ := List.mem_filterMap.1 hv
  obtain ⟨hit, -, rfl⟩ := Option.map_eq_some_iff.1 hfound
  exact Rule.reports_violation hcode _ _

theorem reports_of_mem_patternFindings {library : PatternLibrary} {patterns : List PatternSpec}
    {d : Definition} (hv : v ∈ patternFindings rule library patterns d) :
    rule.Reports staticCodes v := by
  obtain ⟨⟨job, step⟩, -, hstep⟩ := List.mem_flatMap.1 hv
  obtain ⟨⟨field, value⟩, -, hfield⟩ := List.mem_flatMap.1 hstep
  exact reports_of_mem_fieldFindings (by decide) hfield

theorem reports_of_mem_scriptFindings {library : PatternLibrary} {maxLines : Option Nat}
    {patterns : List PatternSpec} {d : Definition}
    (hv : v ∈ scriptFindings rule library maxLines patterns d) : rule.Reports staticCodes v := by
  obtain ⟨⟨job, step⟩, -, hstep⟩ := List.mem_flatMap.1 hv
  dsimp only at hstep
  split at hstep
  · cases hstep
  · rcases List.mem_append.1 hstep with hlength | hfield
    · have hfound := Option.mem_toList.1 hlength
      unfold lengthFinding at hfound
      split at hfound
      · cases hfound
      · split at hfound
        · cases hfound
        · cases hfound
          exact Rule.reports_violation (by decide) _ _
    · exact reports_of_mem_fieldFindings (by decide) hfield

theorem reports_of_mem_triggerFindings {triggers safeguards : List String}
    {globs : Option GlobSet} {d : Definition}
    (hv : v ∈ triggerFindings rule triggers safeguards globs d) : rule.Reports staticCodes v := by
  unfold triggerFindings at hv
  obtain ⟨-, hv⟩ := List.mem_ite_nil_left.1 hv
  obtain ⟨job, -, rfl⟩ := List.mem_map.1 hv
  exact Rule.reports_violation (by decide) _ _

theorem reports_of_mem_artifactFindings {requiredPaths artifactActions : List String}
    {globs : Option GlobSet} {d : Definition}
    (hv : v ∈ artifactFindings rule requiredPaths artifactActions globs d) :
    rule.Reports staticCodes v := by
  unfold artifactFindings at hv
  obtain ⟨-, hv⟩ := List.mem_ite_nil_left.1 hv
  obtain ⟨path, -, rfl⟩ := List.mem_map.1 hv
  exact Rule.reports_violation (by decide) _ _

theorem reports_of_mem_dockerFindings {d : Definition} (hv : v ∈ dockerFindings rule d) :
    rule.Reports staticCodes v := by
  obtain ⟨job, -, hjob⟩ := List.mem_flatMap.1 hv
  obtain ⟨⟨role, image⟩, -, hfound⟩ := List.mem_filterMap.1 hjob
  dsimp only [imageFinding] at hfound
  split at hfound
  · cases hfound
  · cases hfound
    exact Rule.reports_violation (by decide) _ _

theorem reports_of_mem_staticFindings {prepared : PreparedPolicy} {d : Definition}
    (hv : v ∈ staticFindings prepared rule d) : rule.Reports staticCodes v := by
  unfold staticFindings at hv
  dsimp only at hv
  split at hv
  · exact reports_of_mem_permissionFindings hv
  · cases hv
  · exact reports_of_mem_allowlistFindings hv
  · exact reports_of_mem_patternFindings hv
  · exact reports_of_mem_scriptFindings hv
  · exact reports_of_mem_triggerFindings hv
  · exact reports_of_mem_artifactFindings hv
  · exact reports_of_mem_dockerFindings hv

/-! ## Pinned references -/

theorem reports_of_pinningStatus {location : Location} {uses : String}
    (hstatus : pinningStatus rule location uses = .settled (some v)) :
    rule.Reports staticCodes v := by
  unfold pinningStatus at hstatus
  split at hstatus
  · cases hstatus
    exact Rule.reports_violation (by decide) _ _
  · cases hstatus
  · split at hstatus
    · cases hstatus
    · cases hstatus
      exact Rule.reports_violation (by decide) _ _
  · split at hstatus
    · cases hstatus
    · cases hstatus
      exact Rule.reports_violation (by decide) _ _

theorem reports_of_verdictFinding {location : Location} {r : RemoteReference} {verdict : Verdict}
    (hfound : verdictFinding rule location r verdict = some v) : rule.Reports verdictCodes v := by
  unfold verdictFinding at hfound
  split at hfound
  · next kind _ _ =>
      cases hfound
      exact Rule.reports_violation (List.mem_map_of_mem (by cases kind <;> decide)) _ _
  · cases hfound

/-! ## Problems of the policy -/

theorem code_mem_staticCodes (e : PatternError) : e.code ∈ staticCodes := by
  cases e <;> simp [PatternError.code, staticCodes]

theorem reports_of_mem_patternProblems {library : PatternLibrary} {location : Location}
    (hv : v ∈ rule.patternProblems library location) : rule.Reports staticCodes v := by
  obtain ⟨spec, -, hspec⟩ := List.mem_flatMap.1 hv
  obtain ⟨pattern, -, hfound⟩ := List.mem_filterMap.1 hspec
  split at hfound
  · next e _ =>
      cases hfound
      exact Rule.reports_violation (code_mem_staticCodes e) _ _
  · cases hfound

theorem reports_of_globProblem? {field : String} {location : Location} {entry : String}
    (hfound : rule.globProblem? field location entry = some v) : rule.Reports staticCodes v := by
  unfold Rule.globProblem? at hfound
  split at hfound
  · cases hfound
  · cases hfound
    exact Rule.reports_violation (by decide) _ _

theorem reports_of_mem_globProblems {location : Location}
    (hv : v ∈ rule.globProblems location) : rule.Reports staticCodes v := by
  unfold Rule.globProblems at hv
  split at hv
  · rcases List.mem_append.1 hv with hv | hv
    · obtain ⟨entry, -, hfound⟩ := List.mem_filterMap.1 hv
      exact reports_of_globProblem? hfound
    · split at hv
      · cases hv
      · rw [List.mem_singleton.1 hv]
        exact Rule.reports_violation (by decide) _ _
  · cases hv

/-- The problems that one rule gives rise to. -/
def Rule.problems (rule : Rule) (library : PatternLibrary) (location : Location) :
    List Violation :=
  rule.patternProblems library location ++ rule.globProblems location

theorem reports_of_mem_problems {library : PatternLibrary} {location : Location}
    (hv : v ∈ rule.problems library location) : rule.Reports staticCodes v := by
  rcases List.mem_append.1 hv with hv | hv
  · exact reports_of_mem_patternProblems hv
  · exact reports_of_mem_globProblems hv

end

end WorkflowAudit
