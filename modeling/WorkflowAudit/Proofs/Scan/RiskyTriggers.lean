import WorkflowAudit.Proofs.Definition.Places
import WorkflowAudit.Proofs.Definition.Triggers
import WorkflowAudit.Proofs.Scan.OneRule

/-!
# Jobs that run on risky triggers

A rule on risky triggers looks at the events of a workflow, at its path and at the keys of
its jobs.  This module reads all three off the document.  The rule reports the jobs without
a safeguard one by one, in a document that declares one of its triggers and that no allowed
glob matches, and nothing of any other document.
-/

namespace WorkflowAudit

open Yaml Definition

/-! ## Valid globs -/

/-- Entries that can be read as these globs, of which a set can be built. -/
structure AreGlobs (entries : List String) (globs : List Glob) : Prop where
  each : List.Forall₂ (fun entry glob => Glob.parse entry = .ok glob) entries globs
  built : ∃ set, GlobSet.build globs = .ok set

theorem GlobSet.build_eq_ok {globs : List Glob} {set : GlobSet} (hbuild : build globs = .ok set) :
    set = ⟨globs⟩ := by
  unfold build at hbuild
  dsimp only at hbuild
  split at hbuild
  · cases hbuild
  · split at hbuild
    · exact (Except.ok.inj hbuild).symm
    · cases hbuild

theorem readableGlobs_eq {entries : List String} {globs : List Glob}
    (heach : List.Forall₂ (fun entry glob => Glob.parse entry = .ok glob) entries globs) :
    readableGlobs entries = globs := by
  induction heach with
  | nil => rfl
  | @cons entry glob entries globs hfirst _ ih =>
      have hsome : (Glob.parse entry).toOption = some glob := by
        rw [hfirst]
        rfl
      rw [readableGlobs, List.filterMap_cons, hsome]
      exact congrArg (glob :: ·) ih

theorem globProblem?_eq_none {rule : Rule} {field entry : String} {location : Location}
    {glob : Glob} (hread : Glob.parse entry = .ok glob) :
    rule.globProblem? field location entry = none := by
  rw [Rule.globProblem?, hread]

section

variable {rule : Rule} {triggers allowed safeguards : List String} {globs : List Glob}

theorem AreGlobs.globSet?_eq (hglobs : AreGlobs allowed globs)
    (hcheck : rule.check = .highRiskTrigger triggers allowed safeguards) :
    rule.check.globSet? = some (.ok ⟨globs⟩) := by
  obtain ⟨set, hset⟩ := hglobs.built
  rw [hcheck, Check.globSet?, Check.globs?, Option.map_some]
  dsimp only
  rw [readableGlobs_eq hglobs.each, hset, GlobSet.build_eq_ok hset]

theorem AreGlobs.problems_eq_nil (hglobs : AreGlobs allowed globs)
    (hcheck : rule.check = .highRiskTrigger triggers allowed safeguards)
    (library : PatternLibrary) (location : Location) : rule.problems library location = [] := by
  have hentries : allowed.filterMap (rule.globProblem? "allowed" location) = [] := by
    rw [List.filterMap_eq_nil_iff]
    intro entry hentry
    obtain ⟨i, hi⟩ := List.mem_iff_getElem?.1 hentry
    obtain ⟨glob, -, hread⟩ := exists_getElem?_of_forall₂ hglobs.each hi
    exact globProblem?_eq_none hread
  have hset := hglobs.globSet?_eq hcheck
  rw [hcheck] at hset
  simp [Rule.problems, Rule.patternProblems, Rule.globProblems, hcheck, Check.patternSpecs,
    Check.globs?, hset, hentries]

theorem AreGlobs.findings_eq (hglobs : AreGlobs allowed globs)
    (hcheck : rule.check = .highRiskTrigger triggers allowed safeguards)
    {prepared : PreparedPolicy} (hown : prepared.globs.ofRule? rule = rule.ownGlobs?)
    (answer : String → String → Verdict) (d : Definition) :
    rule.findings answer prepared d =
      triggerFindings rule triggers safeguards (some ⟨globs⟩) d := by
  have hset : prepared.globs.ofRule? rule = some ⟨globs⟩ := by
    rw [hown, Rule.ownGlobs?, hglobs.globSet?_eq hcheck]
    rfl
  simp only [Rule.findings, staticFindings, hcheck, hset]

end

/-! ## Findings of a definition -/

/-- What is reported of a job that runs on some events without a safeguard. -/
def Rule.unguarded (rule : Rule) (path id : String) (events : List String) : Violation :=
  let listed := ", ".intercalate events
  rule.violation "high_risk_trigger_unguarded"
    s!"job '{id}' runs on {listed} without a safeguard" (.inJob path id)

theorem listedBy_triggerFindings (rule : Rule) (triggers safeguards : List String)
    (globs : List Glob) (d : Definition) :
    ListedBy (· < ·)
      (fun (i : Nat) v => (∃ event ∈ triggers, event ∈ d.triggers) ∧
        (∀ glob ∈ globs, glob.isMatch d.path = false) ∧
        ∃ job, d.jobs[i]? = some job ∧ (∀ key ∈ safeguards, ¬job.hasKey key = true) ∧
          v = rule.unguarded d.path job.id (d.triggers.filter fun event => triggers.contains event))
      (triggerFindings rule triggers safeguards (some ⟨globs⟩) d) := by
  have hrisky : (d.triggers.filter fun event => triggers.contains event).isEmpty = false ↔
      ∃ event ∈ triggers, event ∈ d.triggers := by
    simp [and_comm]
  have hallowed : (some (GlobSet.mk globs)).any (·.isMatch d.path) = false ↔
      ∀ glob ∈ globs, glob.isMatch d.path = false := by
    simp [GlobSet.isMatch]
  rw [← hrisky, ← hallowed]
  unfold triggerFindings
  dsimp only
  split
  · next hquiet =>
      refine listedBy_nil fun i v => ?_
      rintro ⟨hsome, hother, -⟩
      rw [hsome, hother] at hquiet
      cases hquiet
  · next hloud =>
      rw [Bool.not_eq_true, Bool.or_eq_false_iff] at hloud
      rw [← List.filterMap_eq_map]
      refine (((listedBy_getElem? d.jobs).filter _).filterMap _).congr fun i v => ?_
      simp only [hloud, true_and, Bool.not_eq_true', List.any_eq_false, Function.comp_apply,
        Option.some.injEq, and_assoc]
      exact exists_congr fun job => and_congr_right fun _ => and_congr_right fun _ => eq_comm

/-! ## Findings of a document -/

section

variable (triggers safeguards : List String) (globs : List Glob) (path : String) (root : Entries)

/-- A document declares one of the triggers, and no glob matches its path. -/
structure RunsOnRisky (on : Value) : Prop where
  given : Value.get? "on" root = some on
  declared : ∃ event ∈ triggers, Declares on event
  not_allowed : ∀ glob ∈ globs, glob.isMatch path = false

/-- The job of that id under a position of `jobs` has none of the safeguards among its keys. -/
def UnguardedJob (i : Nat) (id : String) : Prop :=
  ∃ key fields, (entriesUnder "jobs" root)[i]? = some (key, .mapping fields) ∧ key.Spells id ∧
    ∀ safeguard ∈ safeguards, ¬HasKey fields safeguard

end

theorem listedBy_triggerFindings_of_parsePipeline (rule : Rule) (triggers safeguards : List String)
    (globs : List Glob) {path source : String} {root : Entries} {d : Definition}
    (hroot : Value.parse source = .ok (.mapping root))
    (hread : parsePipeline path source = .ok d) :
    ListedBy (· < ·)
      (fun i v => ∃ on names id, RunsOnRisky triggers globs path root on ∧ EventNames on names ∧
        UnguardedJob safeguards root i id ∧
        v = rule.unguarded path id (names.filter fun event => triggers.contains event))
      (triggerFindings rule triggers safeguards (some ⟨globs⟩) d) := by
  obtain ⟨-, names, jobs, permissions, hnames, hjobs, -, rfl⟩ :=
    (parsePipeline_eq_ok_iff hroot).1 hread
  have hjobs := readJobs_eq_ok_iff.1 hjobs
  refine (listedBy_triggerFindings rule triggers safeguards globs _).congr fun i v => ?_
  dsimp only
  constructor
  · rintro ⟨⟨event, htrigger, hevent⟩, hallowed, job, hjob, hguards, rfl⟩
    obtain hnone | ⟨on, hon, hform⟩ := eventNames_of_readTriggers hnames
    · rw [hnone] at hevent
      cases hevent
    · obtain ⟨⟨key, value⟩, hentry, id, hkey, hread⟩ :=
        exists_getElem?_of_forall₂ hjobs.flip hjob
      obtain ⟨rfl, fields, rfl, hkeys⟩ := keys_of_readJob hread
      refine ⟨on, names, job.id, ⟨hon, ⟨event, htrigger, hform.mem_iff.1 hevent⟩, hallowed⟩, hform,
        ⟨key, fields, hentry, Value.spells_iff.2 hkey, fun safeguard hmem => ?_⟩, rfl⟩
      rw [← hasKey_iff hkeys]
      exact hguards safeguard hmem
  · rintro ⟨on, names', id, ⟨hon, ⟨event, htrigger, hevent⟩, hallowed⟩, hform,
      ⟨key, fields, hentry, hkey, hguards⟩, rfl⟩
    rw [hon, hform.readTriggers_eq] at hnames
    cases hnames
    obtain ⟨job, hjob, id', hkey', hread⟩ := exists_getElem?_of_forall₂ hjobs hentry
    obtain ⟨rfl, fields', heq, hkeys⟩ := keys_of_readJob hread
    cases heq
    obtain rfl : id = job.id := Option.some.inj ((Value.spells_iff.1 hkey).symm.trans hkey')
    refine ⟨⟨event, htrigger, hform.mem_iff.2 hevent⟩, hallowed, job, hjob,
      fun safeguard hmem => ?_, rfl⟩
    rw [hasKey_iff hkeys]
    exact hguards safeguard hmem

/-! ## Main result -/

/-- Under a valid policy a rule on risky triggers with valid globs reports of each definition
just its own findings.  Every workflow document is read; its findings are one for each job
that has none of the safeguards among its keys, in the order of the jobs, if `on` declares one
of the triggers in any of its forms and no glob matches the path, and none otherwise.  With
another form of `on` that has the same names the document is read as the same definition, so
every rule reports the same of it. -/
theorem risky_triggers_are_caught {σ : Type} (verifier : ReferenceVerifier σ)
    (engine : Pattern.Engine) {policy : Policy} (hvalid : policy.fault? = none) (state : σ)
    (earlier : List (List Definition)) (definitions : List Definition) {rule : Rule}
    (hrule : rule ∈ policy.rules) {triggers allowed safeguards : List String}
    (hcheck : rule.check = .highRiskTrigger triggers allowed safeguards) {globs : List Glob}
    (hglobs : AreGlobs allowed globs) :
    let found :=
      ((Scanner.start engine policy state).scanEach verifier earlier).2.scan verifier definitions
    let share := triggerFindings rule triggers safeguards (some ⟨globs⟩)
    found.1.filter (·.ruleId == rule.id) = definitions.flatMap share ∧
      ∀ path source root, Value.parse source = .ok (.mapping root) → IsWorkflow root →
        ∃ d, parsePipeline path source = .ok d ∧
          ListedBy (· < ·)
            (fun i v => ∃ on names id, RunsOnRisky triggers globs path root on ∧
              EventNames on names ∧ UnguardedJob safeguards root i id ∧
              v = rule.unguarded path id (names.filter fun event => triggers.contains event))
            (share d) ∧
          ∀ source' root' on on' names, Value.parse source' = .ok (.mapping root') →
            (∀ key, key ≠ "on" → Value.get? key root' = Value.get? key root) →
            Value.get? "on" root = some on → Value.get? "on" root' = some on' →
            EventNames on names → EventNames on' names → parsePipeline path source' = .ok d := by
  intro found share
  refine ⟨?_, fun path source root hroot hworkflow => ?_⟩
  · have hshare := Scanner.scan_filter_rule verifier engine hvalid state earlier definitions hrule
      (hglobs.problems_eq_nil hcheck _ _)
    have hown : (policy.prepare engine).globs.ofRule? rule = rule.ownGlobs? :=
      GlobTable.ofRule?_ofRules (nodup_of_ruleFault? hvalid).1 hrule
    simpa only [hglobs.findings_eq hcheck hown] using hshare
  · obtain ⟨d, hread⟩ := (exists_parsePipeline_iff hroot).2 hworkflow
    refine ⟨d, hread, listedBy_triggerFindings_of_parsePipeline rule triggers safeguards globs
      hroot hread, fun source' root' on on' names hroot' hsame hon hon' hnames hnames' => ?_⟩
    rw [parsePipeline_of_same_events path hroot hroot' hsame hon hon' hnames hnames', hread]

/-! ### A workflow beside the allowed paths -/

theorem nameByte_regex : Glob.nameByte.regex = .chars ⟨[(0, 0x2E), (0x30, 0xFF)]⟩ false := by
  let codes := (List.range 0x100).filter fun code => code.toUInt8 != Glob.slash
  -- the codes ascend already, and sorting them does not compute
  have hsorted : (codes.map fun code => (code, code)).Pairwise
      fun left right => decide (left.1 ≤ right.1) = true := by
    refine List.pairwise_map.2 ((List.pairwise_lt_range.filter _).imp fun hlt => ?_)
    exact decide_eq_true (Nat.le_of_lt hlt)
  have hset : CharSet.ofRanges (codes.map fun code => (code, code)) =
      ⟨[(0, 0x2E), (0x30, 0xFF)]⟩ := by
    rw [CharSet.ofRanges, List.mergeSort_of_pairwise hsorted]
    decide +kernel
  exact congrArg (Regex.chars · false) hset

/-- A star is a valid glob. -/
theorem areGlobs_star : AreGlobs ["*"] [⟨[.anyBytes]⟩] := by
  have hread : Glob.parse "*" = .ok ⟨[.anyBytes]⟩ := by
    simp [Glob.parse, Glob.Reader.run, Glob.Reader.step, Glob.Reader.push]
  have hexpression : Glob.expression ⟨[.anyBytes]⟩ =
      { regex := .sequence [.assertion .textStart,
          .repeated 0 none true (.chars ⟨[(0, 0x2E), (0x30, 0xFF)]⟩ false), .assertion .textEnd]
        depth := 3 } := by
    rw [← nameByte_regex]
    rfl
  refine ⟨.cons hread .nil, exists_ok_of_isSome ?_⟩
  rw [GlobSet.build, List.map_singleton, hexpression]
  decide +kernel

/-- Two risky events among the keys of `on`, the same ones in a list, a job with a safeguard
and one without, at a path with a directory where only paths without one are allowed. -/
theorem risky_triggers_are_caught_two_forms :
    let verifier : ReferenceVerifier Nat := fun _ _ asked => (.verified, asked + 1)
    let triggers := ["pull_request_target", "workflow_run"]
    let rule : Rule := { id := "risky", check := .highRiskTrigger triggers ["*"] ["if"] }
    let policy : Policy := { rules := [rule] }
    let jobs := "jobs: {lint: {if: a}, build: {name: b}}\n"
    let keys := "on: {workflow_run: {types: [completed]}, push: , pull_request_target: }\n" ++ jobs
    let elements := "on: [workflow_run, push, pull_request_target]\n" ++ jobs
    let path := ".github/workflows/ci.yml"
    let found := fun d => (((Scanner.start .standard policy 0).scan verifier [d]).1.filter
      (·.ruleId == "risky"))
    policy.fault? = none ∧ AreGlobs ["*"] [⟨[.anyBytes]⟩] ∧
      ∃ d root, parsePipeline path keys = .ok d ∧ parsePipeline path elements = .ok d ∧
        found d = [rule.unguarded path "build" ["workflow_run", "pull_request_target"]] ∧
        Value.parse keys = .ok (.mapping root) ∧ ∃ i, UnguardedJob ["if"] root i "build" := by
  intro verifier triggers rule policy jobs keys elements path found
  have hvalid : policy.fault? = none := by decide +kernel
  let d : Definition :=
    { path := ".github/workflows/ci.yml", kind := .pipeline
      triggers := ["workflow_run", "push", "pull_request_target"]
      jobs := [{ id := "lint", keys := ["if"] },
        { id := "build", name := some "b", keys := ["name"] }] }
  have hkeys : parsePipeline path keys = .ok d := by decide +kernel
  have helements : parsePipeline path elements = .ok d := by decide +kernel
  obtain ⟨root, hroot⟩ := exists_root_of_parsePipeline hkeys
  obtain ⟨hshare, hdocument⟩ := @risky_triggers_are_caught Nat verifier .standard policy hvalid 0 []
    [d] rule List.mem_cons_self triggers ["*"] ["if"] rfl [⟨[.anyBytes]⟩] areGlobs_star
  obtain ⟨d', hread, hlisted, -⟩ := hdocument path keys root hroot
    ((exists_parsePipeline_iff hroot).1 ⟨d, hkeys⟩)
  obtain rfl : d = d' := Except.ok.inj (hkeys.symm.trans hread)
  have hfound : triggerFindings rule triggers ["if"] (some ⟨[⟨[.anyBytes]⟩]⟩) d =
      [rule.unguarded path "build" ["workflow_run", "pull_request_target"]] := by
    decide +kernel
  have hmem : rule.unguarded path "build" ["workflow_run", "pull_request_target"] ∈
      triggerFindings rule triggers ["if"] (some ⟨[⟨[.anyBytes]⟩]⟩) d := by
    rw [hfound]
    exact List.mem_cons_self
  obtain ⟨i, on, names, id, -, -, hjob, hviolation⟩ := hlisted.mem_iff.1 hmem
  have hlocation : Location.inJob path "build" = .inJob path id :=
    congrArg Violation.location hviolation
  obtain rfl : "build" = id := by simpa [Location.inJob] using hlocation
  rw [List.flatMap_singleton, hfound] at hshare
  exact ⟨hvalid, areGlobs_star, d, root, hkeys, helements, hshare, hroot, i, hjob⟩

end WorkflowAudit
