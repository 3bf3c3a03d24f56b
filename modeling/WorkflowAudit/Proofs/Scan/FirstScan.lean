import WorkflowAudit.Proofs.Scan.Batches
import WorkflowAudit.Proofs.Scan.FirstOccurrences
import WorkflowAudit.Proofs.Scan.Library

/-!
# The first scan

A scanner may leave its policy alone until it is asked to scan, and then compile and report
the patterns one after the other, with an engine that goes on from state to state.  As long
as what the engine builds depends on the pattern alone, such a scanner finds the same as one
that has its policy prepared in advance.  The engine is asked for each pattern that passes
the screen once, where it first stands in the policy, and only the first scan asks it.
-/

namespace WorkflowAudit

open Pattern

variable {ε σ : Type}

/-- The patterns of a policy: for each rule those of its specifications, and for each of
these its own pattern before those of its allowed matches. -/
def Policy.patternTexts (policy : Policy) : List String :=
  policy.rules.flatMap fun rule => rule.check.patternSpecs.flatMap PatternSpec.patterns

/-! ## Patterns that a library had built -/

namespace PatternLibrary

theorem ofPatterns_append_singleton (engine : Engine) (patterns : List String)
    (pattern : String) :
    ofPatterns engine (patterns ++ [pattern]) =
      (ofPatterns engine patterns).insert engine pattern :=
  List.foldl_concat ..

theorem get?_ofPatterns_append_singleton (engine : Engine) (patterns : List String)
    (pattern : String) :
    (ofPatterns engine (patterns ++ [pattern])).get? pattern = some (compile engine pattern) := by
  rw [holds_ofPatterns engine (patterns ++ [pattern]) pattern, if_pos]
  exact List.mem_append_right _ List.mem_cons_self

/-- An engine is asked for the first occurrences of safe patterns. -/
theorem built_ofPatterns (engine : Engine) (patterns : List String) :
    (ofPatterns engine patterns).built =
      (firstsBy id patterns).filter fun pattern => (checkSafety pattern).isOk := by
  induction patterns using List.reverseRecOn with
  | nil => rfl
  | append_singleton patterns pattern ih =>
      have hget := holds_ofPatterns engine patterns pattern
      rw [ofPatterns_append_singleton, insert, hget, firstsBy_append_singleton, List.map_id, id]
      by_cases hseen : pattern ∈ patterns
      · simp only [if_pos hseen, ih]
      · simp only [if_neg hseen, ih, List.filter_append, List.filter_singleton, cond_eq_ite]

theorem isOk_checkSafety_iff {pattern : String} :
    (checkSafety pattern).isOk = true ↔ checkSafety pattern = .ok () := by
  cases checkSafety pattern with
  | ok => exact iff_of_true rfl rfl
  | error e => exact iff_of_false Bool.false_ne_true nofun

/-- What an engine is asked for stands in the patterns where no earlier one is the same. -/
theorem listedBy_built (engine : Engine) (patterns : List String) :
    ListedBy (· < ·)
      (fun position pattern => FirstAt id patterns position pattern ∧ checkSafety pattern = .ok ())
      (ofPatterns engine patterns).built := by
  rw [built_ofPatterns]
  apply ((listedBy_firstsBy id patterns).filter _).congr
  exact fun position pattern => and_congr_right' isOk_checkSafety_iff

theorem nodup_built (engine : Engine) (patterns : List String) :
    (ofPatterns engine patterns).built.Nodup := by
  have hnodup := nodup_map_firstsBy id patterns
  rw [List.map_id] at hnodup
  rw [built_ofPatterns]
  exact hnodup.filter _

end PatternLibrary

/-! ## Building on demand -/

/-- Builds a matcher for a pattern.  The state is whatever the engine goes on from. -/
abbrev MatcherBuilder (ε : Type) := (pattern : String) → ε → Except PatternError Matcher × ε

/-- What is built depends on the pattern alone. -/
def BuildsBy (builder : MatcherBuilder ε) (engine : Engine) : Prop :=
  ∀ pattern asked, (builder pattern asked).1 = engine.build pattern

/-- The builder with a list of what it has been asked. -/
def recordingBuilder (builder : MatcherBuilder ε) : MatcherBuilder (ε × List String) :=
  fun pattern (asked, patterns) =>
    let (built, asked) := builder pattern asked
    (built, asked, patterns ++ [pattern])

/-- Has one pattern built after the other. -/
def buildEach (builder : MatcherBuilder ε) (patterns : List String) (asked : ε) : ε :=
  patterns.foldl (fun asked pattern => (builder pattern asked).2) asked

/-- Screens a pattern, and has it built if the screen finds no fault. -/
def compileBy (builder : MatcherBuilder ε) (pattern : String) (asked : ε) :
    Except PatternError CompiledPattern × ε :=
  match checkSafety pattern with
  | .error e => (.error e, asked)
  | .ok () =>
      match builder pattern asked with
      | (.error e, asked) => (.error e, asked)
      | (.ok matcher, asked) => (.ok ⟨pattern, matcher⟩, asked)

/-- Compiles a pattern unless the library has it. -/
def PatternLibrary.obtain (builder : MatcherBuilder ε) (library : PatternLibrary)
    (pattern : String) (asked : ε) : PatternLibrary × ε :=
  match library.get? pattern with
  | some _ => (library, asked)
  | none =>
      let (compiled, asked) := compileBy builder pattern asked
      ({ entries := library.entries ++ [(pattern, compiled)]
         built := library.built ++ if (checkSafety pattern).isOk then [pattern] else [] }, asked)

/-- What a rejected pattern of a rule is reported as. -/
def Rule.patternProblem? (rule : Rule) (location : Location) (spec : PatternSpec) :
    Option (Except PatternError CompiledPattern) → Option Violation
  | some (.error e) =>
      some (rule.violation e.code s!"pattern '{spec.id}' rejected: {e.message}" location)
  | _ => none

/-- What the patterns of a rule that cannot be compiled are reported as. -/
def Rule.compileProblems (engine : Engine) (location : Location) (rule : Rule) : List Violation :=
  rule.check.patternSpecs.flatMap fun spec => spec.patterns.filterMap fun pattern =>
    rule.patternProblem? location spec (some (compile engine pattern))

/-- A policy on the way to being prepared. -/
structure Preparation (ε : Type) where
  library : PatternLibrary := {}
  globs : GlobTable := {}
  problems : List Violation := []
  /-- The state of the engine. -/
  asked : ε

namespace Preparation

/-- Compiles a pattern of a specification, and reports it if it is rejected. -/
def takePattern (builder : MatcherBuilder ε) (location : Location) (rule : Rule)
    (spec : PatternSpec) (preparation : Preparation ε) (pattern : String) : Preparation ε :=
  let (library, asked) := preparation.library.obtain builder pattern preparation.asked
  let problem? := rule.patternProblem? location spec (library.get? pattern)
  { preparation with library, problems := preparation.problems ++ problem?.toList, asked }

def takeSpec (builder : MatcherBuilder ε) (location : Location) (rule : Rule)
    (preparation : Preparation ε) (spec : PatternSpec) : Preparation ε :=
  spec.patterns.foldl (takePattern builder location rule spec) preparation

/-- Takes the patterns and the globs of a rule. -/
def takeRule (builder : MatcherBuilder ε) (location : Location) (preparation : Preparation ε)
    (rule : Rule) : Preparation ε :=
  let taken := rule.check.patternSpecs.foldl (takeSpec builder location rule) preparation
  { taken with
    globs := taken.globs.addRule rule
    problems := taken.problems ++ rule.globProblems location }

end Preparation

/-- Prepares a policy rule by rule. -/
def Policy.prepareBy (builder : MatcherBuilder ε) (policy : Policy) (asked : ε) : Preparation ε :=
  policy.rules.foldl (Preparation.takeRule builder policy.location) { asked }

section

variable {builder : MatcherBuilder ε} {engine : Engine}

theorem BuildsBy.recordingBuilder (hbuilds : BuildsBy builder engine) :
    BuildsBy (recordingBuilder builder) engine :=
  fun pattern asked => hbuilds pattern asked.1

theorem buildEach_append (patterns more : List String) (asked : ε) :
    buildEach builder (patterns ++ more) asked =
      buildEach builder more (buildEach builder patterns asked) :=
  List.foldl_append ..

theorem buildEach_recordingBuilder (patterns before : List String) (asked : ε) :
    buildEach (recordingBuilder builder) patterns (asked, before) =
      (buildEach builder patterns asked, before ++ patterns) := by
  induction patterns generalizing before asked with
  | nil => simp [buildEach]
  | cons pattern patterns ih =>
      have hstep := ih (before ++ [pattern]) (builder pattern asked).2
      rwa [List.append_assoc, List.singleton_append] at hstep

theorem compileBy_eq (hbuilds : BuildsBy builder engine) (pattern : String) (asked : ε) :
    compileBy builder pattern asked = (compile engine pattern,
      buildEach builder (if (checkSafety pattern).isOk then [pattern] else []) asked) := by
  unfold compileBy compile
  cases checkSafety pattern with
  | error e => rfl
  | ok =>
      have hbuilt := hbuilds pattern asked
      have hasked : buildEach builder [pattern] asked = (builder pattern asked).2 := rfl
      cases hresult : builder pattern asked with
      | mk built asked =>
          rw [hresult] at hbuilt hasked
          dsimp only at hbuilt hasked ⊢
          rw [← hbuilt]
          cases built <;> simp [hasked, Except.isOk, Except.toBool]

theorem PatternLibrary.obtain_eq (hbuilds : BuildsBy builder engine) (library : PatternLibrary)
    (pattern : String) (asked : ε) :
    library.obtain builder pattern (buildEach builder library.built asked) =
      (library.insert engine pattern,
        buildEach builder (library.insert engine pattern).built asked) := by
  unfold obtain insert
  cases library.get? pattern with
  | some compiled => rfl
  | none => simp only [compileBy_eq hbuilds, buildEach_append]

end

namespace Preparation

/-- A preparation that has taken some patterns. -/
def after (builder : MatcherBuilder ε) (engine : Engine) (asked : ε) (patterns : List String)
    (globs : GlobTable) (problems : List Violation) : Preparation ε where
  library := PatternLibrary.ofPatterns engine patterns
  globs := globs
  problems := problems
  asked := buildEach builder (PatternLibrary.ofPatterns engine patterns).built asked

variable {builder : MatcherBuilder ε} {engine : Engine} (asked : ε)

/-- Steps that each take some patterns, put some globs and report some problems, one after
the other. -/
theorem foldl_after {α : Type} {step : Preparation ε → α → Preparation ε}
    {texts : α → List String} {put : GlobTable → α → GlobTable} {found : α → List Violation}
    (hstep : ∀ item patterns globs problems,
      step (after builder engine asked patterns globs problems) item =
        after builder engine asked (patterns ++ texts item) (put globs item)
          (problems ++ found item))
    (items : List α) (patterns : List String) (globs : GlobTable) (problems : List Violation) :
    items.foldl step (after builder engine asked patterns globs problems) =
      after builder engine asked (patterns ++ items.flatMap texts) (items.foldl put globs)
        (problems ++ items.flatMap found) := by
  induction items generalizing patterns globs problems with
  | nil => simp
  | cons item items ih =>
      rw [List.foldl_cons, hstep, ih, List.flatMap_cons, List.flatMap_cons, List.append_assoc,
        List.append_assoc, List.foldl_cons]

theorem takePattern_after (hbuilds : BuildsBy builder engine) (location : Location) (rule : Rule)
    (spec : PatternSpec) (pattern : String) (patterns : List String) (globs : GlobTable)
    (problems : List Violation) :
    takePattern builder location rule spec (after builder engine asked patterns globs problems)
        pattern =
      after builder engine asked (patterns ++ [pattern]) globs (problems ++
        (rule.patternProblem? location spec (some (compile engine pattern))).toList) := by
  have hget := PatternLibrary.get?_ofPatterns_append_singleton engine patterns pattern
  rw [PatternLibrary.ofPatterns_append_singleton] at hget
  simp only [takePattern, after, PatternLibrary.obtain_eq hbuilds, hget,
    PatternLibrary.ofPatterns_append_singleton]

theorem takeSpec_after (hbuilds : BuildsBy builder engine) (location : Location) (rule : Rule)
    (spec : PatternSpec) (patterns : List String) (globs : GlobTable)
    (problems : List Violation) :
    takeSpec builder location rule (after builder engine asked patterns globs problems) spec =
      after builder engine asked (patterns ++ spec.patterns) globs (problems ++
        spec.patterns.filterMap fun pattern =>
          rule.patternProblem? location spec (some (compile engine pattern))) := by
  have htaken := foldl_after asked (takePattern_after asked hbuilds location rule spec)
    spec.patterns patterns globs problems
  rwa [List.flatMap_singleton', ← List.filterMap_eq_flatMap_toList, List.foldl_fixed] at htaken

theorem takeRule_after (hbuilds : BuildsBy builder engine) (location : Location) (rule : Rule)
    (patterns : List String) (globs : GlobTable) (problems : List Violation) :
    takeRule builder location (after builder engine asked patterns globs problems) rule =
      after builder engine asked (patterns ++ rule.check.patternSpecs.flatMap PatternSpec.patterns)
        (globs.addRule rule)
        (problems ++ (rule.compileProblems engine location ++ rule.globProblems location)) := by
  have htaken := foldl_after asked (takeSpec_after asked hbuilds location rule)
    rule.check.patternSpecs patterns globs problems
  rw [takeRule, htaken, List.foldl_fixed, ← List.append_assoc]
  rfl

end Preparation

theorem patternProblems_eq_compileProblems {engine : Engine} {rule : Rule}
    {library : PatternLibrary} (hserves : library.Serves engine rule.check.patternSpecs)
    (location : Location) :
    rule.patternProblems library location = rule.compileProblems engine location := by
  refine List.flatMap_congr fun spec hspec => List.filterMap_congr fun pattern hpattern => ?_
  rw [hserves spec hspec pattern hpattern]
  cases compile engine pattern <;> rfl

/-- Preparing a policy rule by rule comes to the same as preparing it in advance. -/
theorem Policy.prepareBy_eq {builder : MatcherBuilder ε} {engine : Engine}
    (hbuilds : BuildsBy builder engine) (policy : Policy) (asked : ε) :
    policy.prepareBy builder asked =
      { library := policy.patternLibrary engine
        globs := GlobTable.ofRules policy.rules
        problems := policy.problems (policy.patternLibrary engine)
        asked := buildEach builder (policy.patternLibrary engine).built asked } := by
  have hproblems : policy.problems (policy.patternLibrary engine) =
      policy.rules.flatMap fun rule =>
        rule.compileProblems engine policy.location ++ rule.globProblems policy.location :=
    List.flatMap_congr fun rule hrule =>
      congrArg (· ++ _) (patternProblems_eq_compileProblems (serves_patternLibrary engine hrule) _)
  rw [hproblems]
  exact Preparation.foldl_after asked (Preparation.takeRule_after asked hbuilds policy.location)
    policy.rules [] {} []

/-! ## Scanning on demand -/

/-- The rules of a policy with what a preparation has put together for them. -/
def Preparation.prepared (preparation : Preparation ε) (policy : Policy) : PreparedPolicy where
  rules := policy.rules
  patterns := preparation.library
  globs := preparation.globs

/-- A scanner that leaves its policy alone until its first scan. -/
structure LateScanner (ε σ : Type) where
  policy : Policy
  prepared : Option PreparedPolicy := none
  /-- The state of the engine. -/
  asked : ε
  inquiry : Inquiry σ

namespace LateScanner

def start (policy : Policy) (asked : ε) (state : σ) : LateScanner ε σ where
  policy := policy
  asked := asked
  inquiry := { state }

/-- Scans definitions.  The first scan prepares the policy, and reports its problems. -/
def scan (builder : MatcherBuilder ε) (verifier : ReferenceVerifier σ)
    (definitions : List Definition) (scanner : LateScanner ε σ) :
    List Violation × LateScanner ε σ :=
  match scanner.prepared with
  | some prepared =>
      let (findings, inquiry) := scanDefinitions verifier prepared definitions scanner.inquiry
      (findings, { scanner with inquiry })
  | none =>
      let preparation := scanner.policy.prepareBy builder scanner.asked
      let prepared := preparation.prepared scanner.policy
      let (findings, inquiry) := scanDefinitions verifier prepared definitions scanner.inquiry
      (preparation.problems ++ findings,
        { scanner with prepared := some prepared, asked := preparation.asked, inquiry })

def scanEach (builder : MatcherBuilder ε) (verifier : ReferenceVerifier σ) :
    List (List Definition) → LateScanner ε σ → List (List Violation) × LateScanner ε σ
  | [], scanner => ([], scanner)
  | definitions :: rest, scanner =>
      let (found, scanner) := scanner.scan builder verifier definitions
      let (others, scanner) := scanEach builder verifier rest scanner
      (found :: others, scanner)

variable {builder : MatcherBuilder ε} {engine : Engine}

theorem scanEach_prepared (verifier : ReferenceVerifier σ) (policy : Policy)
    (prepared : PreparedPolicy) (asked : ε) (batches : List (List Definition))
    (inquiry : Inquiry σ) :
    scanEach builder verifier batches { policy, prepared := some prepared, asked, inquiry } =
      let each := scanDefinitionsEach verifier prepared batches inquiry
      (each.1, { policy, prepared := some prepared, asked, inquiry := each.2 }) := by
  induction batches generalizing inquiry with
  | nil => rfl
  | cons definitions batches ih => simp only [scanEach, scan, ih, scanDefinitionsEach]

/-- Scans in a row: the walk over their definitions, with the problems of the policy in front
of the first of them. -/
theorem scanEach_start (verifier : ReferenceVerifier σ) (policy : Policy) (asked : ε) (state : σ)
    (batches : List (List Definition)) :
    (start policy asked state).scanEach builder verifier batches =
      let preparation := policy.prepareBy builder asked
      let prepared := preparation.prepared policy
      let each := scanDefinitionsEach verifier prepared batches { state }
      (each.1.modifyHead (preparation.problems ++ ·),
        if batches.isEmpty then start policy asked state
        else { policy, prepared := some prepared, asked := preparation.asked
               inquiry := each.2 }) := by
  cases batches with
  | nil => rfl
  | cons definitions batches =>
      have hfirst : (start policy asked state).scan builder verifier definitions =
          let preparation := policy.prepareBy builder asked
          let prepared := preparation.prepared policy
          let found := scanDefinitions verifier prepared definitions { state }
          (preparation.problems ++ found.1,
            { policy, prepared := some prepared, asked := preparation.asked
              inquiry := found.2 }) :=
        rfl
      rw [scanEach, hfirst]
      simp only [scanEach_prepared]
      rfl

/-- With an engine that builds by the pattern alone, the same is found, and the verifier is
asked the same, as with a policy prepared in advance. -/
theorem scanEach_eq (hbuilds : BuildsBy builder engine) (verifier : ReferenceVerifier σ)
    (policy : Policy) (asked : ε) (state : σ) (batches : List (List Definition)) :
    (start policy asked state).scanEach builder verifier batches =
      let early := (Scanner.start engine policy state).scanEach verifier batches
      (early.1,
        if batches.isEmpty then start policy asked state
        else
          { policy
            prepared := some (policy.prepare engine)
            asked := buildEach builder (policy.patternLibrary engine).built asked
            inquiry := early.2.inquiry }) := by
  rw [scanEach_start, Policy.prepareBy_eq hbuilds, Scanner.scanEach_eq]
  rfl

/-- Whatever is scanned, and however often, an engine that builds by the pattern alone is
asked for the first occurrences of the patterns of the policy that pass the screen, in their
order, and only the first scan asks it.  From then on every pattern of every rule is in the
library, and the scans find what they would with a policy prepared in advance. -/
theorem safe_patterns_are_built_once (hbuilds : BuildsBy builder engine)
    (verifier : ReferenceVerifier σ) (policy : Policy) (asked : ε) (state : σ)
    (batches : List (List Definition)) :
    let library := policy.patternLibrary engine
    let early := (Scanner.start engine policy state).scanEach verifier batches
    let late := (start policy (asked, []) state).scanEach (recordingBuilder builder) verifier batches
    ListedBy (· < ·)
        (fun position pattern =>
          FirstAt id policy.patternTexts position pattern ∧ checkSafety pattern = .ok ())
        library.built ∧
      library.built.Nodup ∧
      late.2.asked = (if batches.isEmpty then (asked, [])
        else (buildEach builder library.built asked, library.built)) ∧
      late.2.prepared.map PreparedPolicy.patterns =
        (if batches.isEmpty then none else some library) ∧
      (∀ rule ∈ policy.rules, library.Serves engine rule.check.patternSpecs) ∧
      late.1 = early.1 ∧ late.2.inquiry = early.2.inquiry := by
  intro library early late
  refine ⟨PatternLibrary.listedBy_built engine _, PatternLibrary.nodup_built engine _, ?_⟩
  have hserves : ∀ rule ∈ policy.rules, library.Serves engine rule.check.patternSpecs :=
    fun rule hrule => serves_patternLibrary engine hrule
  have hlate : late = _ :=
    scanEach_eq hbuilds.recordingBuilder verifier policy (asked, []) state batches
  rw [hlate, buildEach_recordingBuilder, List.nil_append]
  cases batches with
  | nil => exact ⟨rfl, rfl, hserves, rfl, rfl⟩
  | cons definitions batches => exact ⟨rfl, rfl, hserves, rfl, rfl⟩

/-- Three rules and two scans: a pattern that stands in two rules is built once, one that
nests repetitions is not built, and an allowed match is built as a whole match. -/
theorem safe_patterns_are_built_once_three_rules :
    let never : Matcher := { isMatch _ := false, findAll _ := [] }
    let engine : Engine := { build _ := .ok never }
    let builder : MatcherBuilder Nat := fun _ asked => (.ok never, asked + 1)
    let secrets : PatternSpec :=
      { id := "secrets", pattern := "secrets", allow := [{ pattern := "ok", rationale := "" }] }
    let policy : Policy :=
      { rules := [{ id := "a", check := .unsafePattern [secrets] },
          { id := "b", check := .inlineScript none [{ id := "nested", pattern := "(.+)+" }] },
          { id := "c", check := .unsafePattern [secrets, { id := "curl", pattern := "curl" }] }] }
    let verifier : ReferenceVerifier Unit := fun _ _ _ => (.verified, ())
    let workflow : Definition := { path := "ci.yml", kind := .pipeline }
    let batches := [[workflow], [workflow, workflow]]
    let library := policy.patternLibrary engine
    BuildsBy builder engine ∧ library.built = ["secrets", "^(?:ok)$", "curl"] ∧
      ((start policy (0, []) ()).scanEach (recordingBuilder builder) verifier batches).2.asked =
        (3, ["secrets", "^(?:ok)$", "curl"]) ∧
      ∀ rule ∈ policy.rules, library.Serves engine rule.check.patternSpecs := by
  intro never engine builder secrets policy verifier workflow batches library
  have hbuilds : BuildsBy builder engine := fun _ _ => rfl
  have hbuilt : library.built = ["secrets", "^(?:ok)$", "curl"] := by decide +kernel
  obtain ⟨-, -, hasked, -, hserves, -⟩ :=
    safe_patterns_are_built_once hbuilds verifier policy 0 () batches
  rw [hbuilt] at hasked
  exact ⟨hbuilds, hbuilt, hasked, hserves⟩

end LateScanner

end WorkflowAudit
