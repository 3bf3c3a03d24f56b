import WorkflowAudit.Proofs.Definition.Fields
import WorkflowAudit.Proofs.Scan.Allowance

/-!
# Every field of a step is searched

A rule on forbidden patterns searches each field of a step once for each of its
specifications.  It reports the first match that no allowed match waives, in the order of
the fields and for each field in the order of the specifications.
-/

namespace WorkflowAudit

open Pattern Yaml

/-! ## Matches that are not waived -/

/-- An allowed match, put between anchors, matches what the pattern has found. -/
def AllowedMatch.Waives (engine : Engine) (allow : AllowedMatch) (hit : String) : Prop :=
  ∃ compiled, compile engine (wholeMatch allow.pattern) = .ok compiled ∧
    compiled.isMatch hit = true

/-- A text has a match of the pattern that no allowed match waives. -/
def PatternSpec.OccursIn (engine : Engine) (spec : PatternSpec) (text : String) : Prop :=
  ∃ compiled, compile engine spec.pattern = .ok compiled ∧
    ∃ hit ∈ compiled.findAll text, ∀ allow ∈ spec.allow, ¬allow.Waives engine hit

/-- The first match in a text that no allowed match waives. -/
def PatternSpec.FirstIn (engine : Engine) (spec : PatternSpec) (text hit : String) : Prop :=
  ∃ compiled before after, compile engine spec.pattern = .ok compiled ∧
    compiled.findAll text = before ++ hit :: after ∧
    (∀ earlier ∈ before, ∃ allow ∈ spec.allow, allow.Waives engine earlier) ∧
    ∀ allow ∈ spec.allow, ¬allow.Waives engine hit

section

variable {engine : Engine} {library : PatternLibrary} {spec : PatternSpec} {text hit : String}

theorem PatternLibrary.covers_iff {allow : AllowedMatch}
    (hget : library.get? (wholeMatch allow.pattern) =
      some (compile engine (wholeMatch allow.pattern))) :
    library.covers allow hit = true ↔ allow.Waives engine hit := by
  unfold PatternLibrary.covers AllowedMatch.Waives
  rw [compiled?_eq_toOption hget]
  cases compile engine (wholeMatch allow.pattern) <;> simp [Except.toOption]

theorem PatternLibrary.firstUncovered?_eq_some_iff
    (hget : ∀ pattern ∈ spec.patterns, library.get? pattern = some (compile engine pattern)) :
    library.firstUncovered? spec text = some hit ↔ spec.FirstIn engine text hit := by
  have hcovers : ∀ hit, (spec.allow.any fun allow => library.covers allow hit) = true ↔
      ∃ allow ∈ spec.allow, allow.Waives engine hit := by
    intro hit
    rw [List.any_eq_true]
    refine exists_congr fun allow => and_congr_right fun hallow => ?_
    exact covers_iff (hget _ (List.mem_cons_of_mem _ (List.mem_map_of_mem hallow)))
  have hown := compiled?_eq_toOption (hget spec.pattern List.mem_cons_self)
  unfold PatternSpec.FirstIn
  cases hcompile : compile engine spec.pattern with
  | error e => simp [firstUncovered?, hown, hcompile, Except.toOption]
  | ok compiled =>
      rw [hcompile] at hown
      rw [firstUncovered?_eq_find? hown, List.find?_eq_some_iff_append]
      simp only [Bool.not_not, hcovers, Bool.not_eq_true', ← Bool.not_eq_true, not_exists, not_and]
      constructor
      · rintro ⟨hhit, before, after, hall, hbefore⟩
        exact ⟨compiled, before, after, rfl, hall, hbefore, hhit⟩
      · rintro ⟨_, before, after, hcompiled, hall, hbefore, hhit⟩
        cases hcompiled
        exact ⟨hhit, before, after, hall, hbefore⟩

/-- There is a first match that is not waived just where there is any. -/
theorem PatternSpec.exists_firstIn_iff :
    (∃ hit, spec.FirstIn engine text hit) ↔ spec.OccursIn engine text := by
  constructor
  · rintro ⟨hit, compiled, before, after, hcompile, hall, -, hhit⟩
    exact ⟨compiled, hcompile, hit, hall ▸ List.mem_append_right _ List.mem_cons_self, hhit⟩
  · rintro ⟨compiled, hcompile, hit, hmem, hhit⟩
    classical
    let p := fun hit => decide (∀ allow ∈ spec.allow, ¬allow.Waives engine hit)
    obtain ⟨first, hfirst⟩ : ∃ first, (compiled.findAll text).find? p = some first :=
      Option.isSome_iff_exists.1 (List.find?_isSome.2 ⟨hit, hmem, decide_eq_true hhit⟩)
    obtain ⟨hp, before, after, hall, hbefore⟩ := List.find?_eq_some_iff_append.1 hfirst
    refine ⟨first, compiled, before, after, hcompile, hall, fun earlier hearlier => ?_,
      of_decide_eq_true hp⟩
    simpa [p] using hbefore earlier hearlier

end

/-! ## The findings of one step -/

/-- What a rule with these specifications finds in one step. -/
def stepFindings (rule : Rule) (library : PatternLibrary) (patterns : List PatternSpec)
    (path : String) (job : Job) (step : Step) : List Violation :=
  step.fields.flatMap fun (field, value) =>
    fieldFindings rule library "unsafe_pattern_match" patterns
      (.atStep path job.id step.index) field value

/-- What a rule reports at a place of a step for one of its specifications: the first match
that is not waived, under the name of the field. -/
inductive Rule.ReportsAt (engine : Engine) (rule : Rule) (patterns : List PatternSpec)
    (location : Location) (entries : Definition.Entries) : List Nat × Nat → Violation → Prop
  | mk {place : List Nat} {k : Nat} {name text hit : String} {spec : PatternSpec}
      (hfield : Definition.StepHolds entries place (name, text))
      (hspec : patterns[k]? = some spec) (hfirst : spec.FirstIn engine text hit) :
      ReportsAt engine rule patterns location entries (place, k)
        (rule.violation "unsafe_pattern_match" (spec.describe name hit) location)

theorem listedBy_fieldFindings {engine : Engine} {library : PatternLibrary} {rule : Rule}
    {patterns : List PatternSpec} {code : String} {location : Location} {name text : String}
    (hserves : library.Serves engine patterns) :
    ListedBy (· < ·)
      (fun (k : Nat) v => ∃ spec hit, patterns[k]? = some spec ∧ spec.FirstIn engine text hit ∧
        v = rule.violation code (spec.describe name hit) location)
      (fieldFindings rule library code patterns location name text) := by
  rw [fieldFindings, List.filterMap_eq_flatMap_toList]
  have hlisted := (listedBy_getElem? patterns).flatMap (fun k (_ : Unit) => k)
    (fun spec => @listedBy_toList _ _ (fun _ _ => False) () ((library.firstUncovered? spec text).map
      fun hit => rule.violation code (spec.describe name hit) location))
    (fun _ _ _ _ hlt => hlt) (fun _ _ _ hnone => hnone.elim)
  refine hlisted.congr fun k v => ?_
  constructor
  · rintro ⟨k, -, spec, rfl, hspec, -, hfound⟩
    obtain ⟨hit, hfirst, rfl⟩ := Option.map_eq_some_iff.1 hfound
    exact ⟨spec, hit, hspec, (PatternLibrary.firstUncovered?_eq_some_iff
      (hserves spec (List.mem_of_getElem? hspec))).1 hfirst, rfl⟩
  · rintro ⟨spec, hit, hspec, hfirst, rfl⟩
    refine ⟨k, (), spec, rfl, hspec, rfl, ?_⟩
    rw [(PatternLibrary.firstUncovered?_eq_some_iff
      (hserves spec (List.mem_of_getElem? hspec))).2 hfirst]
    rfl

/-- What is found in a step that was read from a mapping stands at the places of its fields,
and at each of them at the positions of the specifications. -/
theorem listedBy_stepFindings {engine : Engine} {library : PatternLibrary} {rule : Rule}
    {patterns : List PatternSpec} {path : String} {job : Job} {step : Step}
    {entries : Definition.Entries}
    (hserves : library.Serves engine patterns)
    (hfields : step.fields = Definition.scalarFields entries) :
    ListedBy (Prod.Lex Precedes (· < ·))
      (rule.ReportsAt engine patterns (.atStep path job.id step.index) entries)
      (stepFindings rule library patterns path job step) := by
  rw [stepFindings, hfields]
  refine ((Definition.listedBy_scalarFields entries).flatMap Prod.mk
    (fun field => listedBy_fieldFindings hserves)
    (fun _ _ _ _ hlt => Prod.Lex.left _ _ hlt) (fun _ _ _ hlt => Prod.Lex.right _ hlt)).congr
    fun here v => ?_
  constructor
  · rintro ⟨place, k, ⟨name, text⟩, rfl, hfield, spec, hit, hspec, hfirst, rfl⟩
    exact .mk hfield hspec hfirst
  · rintro ⟨hfield, hspec, hfirst⟩
    exact ⟨_, _, _, rfl, hfield, _, _, hspec, hfirst, rfl⟩

theorem exists_reportsAt_iff {engine : Engine} {rule : Rule} {patterns : List PatternSpec}
    {location : Location} {entries : Definition.Entries} {place : List Nat} {k : Nat} :
    (∃ v, rule.ReportsAt engine patterns location entries (place, k) v) ↔
      ∃ name text spec, Definition.StepHolds entries place (name, text) ∧
        patterns[k]? = some spec ∧ spec.OccursIn engine text := by
  constructor
  · rintro ⟨_, hfield, hspec, hfirst⟩
    exact ⟨_, _, _, hfield, hspec, PatternSpec.exists_firstIn_iff.1 ⟨_, hfirst⟩⟩
  · rintro ⟨name, text, spec, hfield, hspec, hoccurs⟩
    obtain ⟨hit, hfirst⟩ := PatternSpec.exists_firstIn_iff.2 hoccurs
    exact ⟨_, .mk hfield hspec hfirst⟩

/-- A rule on forbidden patterns finds in a definition what it finds in each of its steps.
In a step that was read from a mapping it finds one violation for each field and each
specification with a match in the field that is not waived, and nothing else, in the
order of the fields and then of the specifications.  Of a mapping whose keys differ, the
script is the one field of the name `run`. -/
theorem each_field_is_searched_once {σ : Type} (verifier : ReferenceVerifier σ)
    (engine : Engine) {policy : Policy} {rule : Rule} {patterns : List PatternSpec}
    (hrule : rule ∈ policy.rules) (hcheck : rule.check = .unsafePattern patterns) :
    let library := policy.patternLibrary engine
    (∀ d inquiry, (applyRule verifier (policy.prepare engine) rule d inquiry).1 =
      d.steps.flatMap fun (job, step) => stepFindings rule library patterns d.path job step) ∧
    ∀ path (job : Job) values,
      Definition.readSteps job.id (some (.sequence values)) = .ok job.steps →
      ∀ index entries, values[index]? = some (.mapping entries) →
        let reports := rule.ReportsAt engine patterns (.atStep path job.id index) entries
        ∃ step, job.steps[index]? = some step ∧
          ListedBy (Prod.Lex Precedes (· < ·)) reports
            (stepFindings rule library patterns path job step) ∧
          (∀ place k, (∃ v, reports (place, k) v) ↔
            ∃ name text spec, Definition.StepHolds entries place (name, text) ∧
              patterns[k]? = some spec ∧ spec.OccursIn engine text) ∧
          (KeysDiffer entries → ∃ place, ∀ here text,
            Definition.StepHolds entries here ("run", text) ↔
              here = place ∧ step.run = some text) := by
  intro library
  refine ⟨fun d inquiry => ?_, fun path job values hread index entries hentries => ?_⟩
  · obtain ⟨id, mode, description, check⟩ := rule
    cases hcheck
    rfl
  · obtain ⟨step, hstep, hread⟩ := Definition.getElem?_of_readStepsFrom hread hentries
    obtain ⟨hindex, hfields, hrun⟩ := Definition.readStep_mapping_eq_ok hread
    rw [Nat.zero_add] at hindex
    subst hindex
    have hserves : library.Serves engine patterns := by
      have hserves := serves_patternLibrary engine hrule
      rwa [hcheck] at hserves
    exact ⟨step, hstep, listedBy_stepFindings hserves hfields, fun place k => exists_reportsAt_iff,
      fun hdiffer => Definition.exists_place_of_run hdiffer hrun⟩

/-- A match in a script and one in an entry of `env`. -/
theorem each_field_is_searched_once_script :
    let spec : PatternSpec := { id := "fetch", pattern := "curl" }
    let rule : Rule := { id := "shell", check := .unsafePattern [spec] }
    let library := Policy.patternLibrary .standard { rules := [rule] }
    let entries : Definition.Entries :=
      [(.string "run", .string "curl -O it"),
        (.string "env", .mapping [(.number (.natural 1), .string "curl")])]
    let step : Step :=
      { index := 0, run := some "curl -O it", fields := [("run", "curl -O it"), ("env.1", "curl")] }
    let found := stepFindings rule library [spec] "ci.yml" { id := "build", steps := [step] } step
    Definition.readSteps "build" (some (.sequence [.mapping entries])) = .ok [step] ∧
      found.map Violation.message =
        ["forbidden pattern (fetch) in 'run': curl", "forbidden pattern (fetch) in 'env.1': curl"] ∧
      ListedBy (Prod.Lex Precedes (· < ·))
        (rule.ReportsAt .standard [spec] (.atStep "ci.yml" "build" 0) entries) found ∧
      KeysDiffer entries ∧
        ∃ place, ∀ here text, Definition.StepHolds entries here ("run", text) ↔
          here = place ∧ step.run = some text := by
  intro spec rule library entries step found
  have hread : Definition.readSteps "build" (some (.sequence [.mapping entries])) = .ok [step] :=
    rfl
  have hdiffer : KeysDiffer entries := by
    unfold KeysDiffer
    decide +kernel
  have hfound : found.map Violation.message =
      ["forbidden pattern (fetch) in 'run': curl",
        "forbidden pattern (fetch) in 'env.1': curl"] := by
    decide +kernel
  obtain ⟨-, hsteps⟩ := @each_field_is_searched_once Nat (fun _ _ asked => (.verified, asked + 1))
    .standard { rules := [rule] } rule [spec] List.mem_cons_self rfl
  obtain ⟨_, hstep, hlisted, -, hrun⟩ :=
    hsteps "ci.yml" { id := "build", steps := [step] } _ hread 0 entries rfl
  cases hstep
  exact ⟨hread, hfound, hlisted, hdiffer, hrun hdiffer⟩

/-- A text under a key that is null: the step is read, and a scan does not search the text. -/
theorem values_without_name_are_not_searched :
    let verifier : ReferenceVerifier Nat := fun _ _ asked => (.verified, asked + 1)
    let spec : PatternSpec := { id := "fetch", pattern := "curl" }
    let policy : Policy := { rules := [{ id := "shell", check := .unsafePattern [spec] }] }
    let entries : Definition.Entries :=
      [(.null, .string "curl"), (.string "run", .string "make")]
    let step : Step := { index := 0, run := some "make", fields := [("run", "make")] }
    let workflow : Definition :=
      { path := "ci.yml", kind := .pipeline, jobs := [{ id := "build", steps := [step] }] }
    Definition.readSteps "build" (some (.sequence [.mapping entries])) = .ok [step] ∧
      (Value.null, Value.string "curl") ∈ entries ∧ (Value.string "curl").Spells "curl" ∧
      spec.OccursIn .standard "curl" ∧
      ((Scanner.start .standard policy 0).scan verifier [workflow]).1 = [] := by
  intro verifier spec policy entries step workflow
  refine ⟨rfl, List.mem_cons_self, .string "curl", ?_, by decide +kernel⟩
  have hhits : (compile .standard "curl").toOption.map (·.findAll "curl") = some ["curl"] := by
    decide +kernel
  cases hcompile : compile .standard "curl" with
  | error e =>
      rw [hcompile] at hhits
      cases hhits
  | ok compiled =>
      rw [hcompile] at hhits
      have hall : compiled.findAll "curl" = ["curl"] := Option.some.inj hhits
      refine ⟨compiled, hcompile, "curl", ?_, fun allow hallow => nomatch hallow⟩
      rw [hall]
      exact List.mem_cons_self

end WorkflowAudit
