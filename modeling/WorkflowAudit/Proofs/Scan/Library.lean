import Mathlib.Data.List.Basic
import WorkflowAudit.Scan.Scanner

/-!
# What a pattern library holds

A library holds the compiled form of every pattern that was put into it, and nothing
else.  The findings of a rule depend on a prepared policy only through the patterns of
its check and the globs that it reads, so other patterns in the library are without effect.
-/

namespace WorkflowAudit

open Pattern

namespace PatternLibrary

/-- A library of exactly these patterns, compiled. -/
def Holds (engine : Engine) (patterns : List String) (library : PatternLibrary) : Prop :=
  ∀ pattern, library.get? pattern =
    if pattern ∈ patterns then some (compile engine pattern) else none

variable {engine : Engine} {patterns : List String} {library : PatternLibrary}

theorem holds_empty : Holds engine [] {} := fun _ => rfl

theorem Holds.insert (hholds : library.Holds engine patterns) (pattern : String) :
    (library.insert engine pattern).Holds engine (patterns ++ [pattern]) := by
  intro other
  unfold PatternLibrary.insert
  cases hentry : library.get? pattern with
  | some compiled =>
      have hmem : pattern ∈ patterns := by
        by_contra hmem
        rw [hholds, if_neg hmem] at hentry
        cases hentry
      simp only [hholds other, List.mem_append, List.mem_singleton]
      by_cases heq : other = pattern
      · simp [heq, hmem]
      · simp [heq]
  | none =>
      have hother : library.entries.lookup other = _ := hholds other
      simp only [get?, List.lookup_append, List.mem_append, List.mem_singleton, hother]
      by_cases hmem : other ∈ patterns
      · simp [hmem]
      · by_cases heq : other = pattern
        · subst heq
          simp [hmem]
        · simp [hmem, heq, List.lookup_cons, beq_false_of_ne heq]

theorem Holds.foldl_insert (hholds : library.Holds engine patterns) (more : List String) :
    (more.foldl (PatternLibrary.insert engine) library).Holds engine (patterns ++ more) := by
  induction more generalizing library patterns with
  | nil => simpa using hholds
  | cons pattern more ih => simpa using ih (hholds.insert pattern)

theorem holds_ofPatterns (engine : Engine) (patterns : List String) :
    (ofPatterns engine patterns).Holds engine patterns :=
  holds_empty.foldl_insert patterns

end PatternLibrary

/-- Two libraries that agree on the patterns that a check needs. -/
def Check.SeesAlike (check : Check) (library other : PatternLibrary) : Prop :=
  ∀ spec ∈ check.patternSpecs, ∀ pattern ∈ spec.patterns,
    library.get? pattern = other.get? pattern

theorem firstUncovered?_congr {library other : PatternLibrary} {spec : PatternSpec}
    (hsame : ∀ pattern ∈ spec.patterns, library.get? pattern = other.get? pattern) :
    library.firstUncovered? spec = other.firstUncovered? spec := by
  have hcompiled : ∀ pattern ∈ spec.patterns,
      library.compiled? pattern = other.compiled? pattern := by
    intro pattern hmem
    unfold PatternLibrary.compiled?
    rw [hsame pattern hmem]
  have hown := hcompiled spec.pattern List.mem_cons_self
  have hallowed : library.allowed spec = other.allowed spec := by
    apply List.filterMap_congr
    intro allow hallow
    exact hcompiled _ (List.mem_cons_of_mem _ (List.mem_map_of_mem hallow))
  funext text
  unfold PatternLibrary.firstUncovered?
  rw [hown, hallowed]

theorem fieldFindings_congr {library other : PatternLibrary} {patterns : List PatternSpec}
    (hsame : ∀ spec ∈ patterns, ∀ pattern ∈ spec.patterns,
      library.get? pattern = other.get? pattern) (rule : Rule) (code : String) :
    fieldFindings rule library code patterns = fieldFindings rule other code patterns := by
  funext location field value
  apply List.filterMap_congr
  intro spec hspec
  rw [firstUncovered?_congr (hsame spec hspec)]

/-- Two prepared policies that agree on what a rule reads of them: its patterns and its
globs. -/
structure Rule.SeesAlike (rule : Rule) (prepared other : PreparedPolicy) : Prop where
  patterns : rule.check.SeesAlike prepared.patterns other.patterns
  globs : prepared.globs.ofRule? rule = other.globs.ofRule? rule

theorem staticFindings_congr {prepared other : PreparedPolicy} {rule : Rule}
    (hsame : rule.SeesAlike prepared other) (d : Definition) :
    staticFindings prepared rule d = staticFindings other rule d := by
  have hfields : ∀ patterns, rule.check.patternSpecs = patterns →
      ∀ code, fieldFindings rule prepared.patterns code patterns =
        fieldFindings rule other.patterns code patterns := by
    rintro _ rfl
    exact fieldFindings_congr hsame.patterns rule
  unfold staticFindings
  dsimp only
  rw [hsame.globs]
  split
  case h_4 patterns hcheck =>
      simp only [patternFindings, hfields patterns (congrArg Check.patternSpecs hcheck)]
  case h_5 maxLines patterns hcheck =>
      simp only [scriptFindings, hfields patterns (congrArg Check.patternSpecs hcheck)]
  all_goals rfl

theorem patternProblems_congr {library other : PatternLibrary} {rule : Rule}
    (hsame : rule.check.SeesAlike library other) (location : Location) :
    rule.patternProblems library location = rule.patternProblems other location := by
  apply List.flatMap_congr
  intro spec hspec
  apply List.filterMap_congr
  intro pattern hpattern
  rw [hsame spec hspec pattern hpattern]

/-- The library of a policy has the compiled form of every pattern of its rules. -/
theorem get?_patternLibrary (engine : Engine) {policy : Policy} {rule : Rule}
    (hrule : rule ∈ policy.rules) {spec : PatternSpec} (hspec : spec ∈ rule.check.patternSpecs)
    {pattern : String} (hpattern : pattern ∈ spec.patterns) :
    (policy.patternLibrary engine).get? pattern = some (compile engine pattern) := by
  rw [Policy.patternLibrary, PatternLibrary.holds_ofPatterns, if_pos]
  exact List.mem_flatMap.2 ⟨rule, hrule, List.mem_flatMap.2 ⟨spec, hspec, hpattern⟩⟩

/-- A library with the compiled form of every pattern of some specifications. -/
def PatternLibrary.Serves (engine : Engine) (specs : List PatternSpec)
    (library : PatternLibrary) : Prop :=
  ∀ spec ∈ specs, ∀ pattern ∈ spec.patterns,
    library.get? pattern = some (compile engine pattern)

theorem serves_patternLibrary (engine : Engine) {policy : Policy} {rule : Rule}
    (hrule : rule ∈ policy.rules) :
    (policy.patternLibrary engine).Serves engine rule.check.patternSpecs :=
  fun _ hspec _ hpattern => get?_patternLibrary engine hrule hspec hpattern

theorem PatternLibrary.compiled?_eq_toOption {engine : Engine} {library : PatternLibrary}
    {pattern : String} (hget : library.get? pattern = some (compile engine pattern)) :
    library.compiled? pattern = (compile engine pattern).toOption := by
  unfold compiled?
  rw [hget]
  cases compile engine pattern <;> rfl

/-- The libraries of two policies agree on the patterns of every rule that is in both. -/
theorem seesAlike_patternLibrary (engine : Engine) {policy other : Policy} {rule : Rule}
    (hrule : rule ∈ policy.rules) (hother : rule ∈ other.rules) :
    rule.check.SeesAlike (policy.patternLibrary engine) (other.patternLibrary engine) := by
  intro spec hspec pattern hpattern
  rw [get?_patternLibrary engine hrule hspec hpattern,
    get?_patternLibrary engine hother hspec hpattern]

end WorkflowAudit
