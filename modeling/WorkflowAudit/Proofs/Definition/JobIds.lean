import WorkflowAudit.Proofs.Definition.Spellings
import WorkflowAudit.Proofs.Report.Dealing
import WorkflowAudit.Proofs.Scan.DocumentOrder

/-!
# Job ids and locations

The id of a job is the spelling of its key.  Keys of one mapping are different values, but a
number or a truth value may be spelled like a text beside it, and then two jobs have one id.
In no other way do two places of a workflow have the same location, and without such a pair of
keys an exception that names a job waives findings of that job alone.
-/

namespace WorkflowAudit

open Yaml

namespace Definition

variable {path source job id : String} {entries root : Entries} {value : Value}

/-! ## Jobs and steps by their positions -/

theorem index_of_readStepsFrom {index j : Nat} {values : List Value} {steps : List Step}
    {step : Step} (hread : readStepsFrom job index values = .ok steps)
    (hstep : steps[j]? = some step) : step.index = index + j := by
  induction values generalizing index j steps with
  | nil =>
      cases hread
      cases hstep
  | cons value rest ih =>
      obtain ⟨first, hfirst, hread⟩ := bind_eq_ok_iff.1 hread
      obtain ⟨others, hothers, hread⟩ := bind_eq_ok_iff.1 hread
      cases hread
      cases j with
      | zero =>
          cases hstep
          cases value with
          | mapping entries => exact (readStep_mapping_eq_ok hfirst).1
          | null | bool _ | number _ | string _ | sequence _ | tagged _ _ => cases hfirst
      | succ j =>
          rw [ih hothers hstep]
          omega

theorem readJob_eq_ok {read : Job} (hread : readJob id value = .ok read) :
    read.id = id ∧ ∀ (j : Nat) step, read.steps[j]? = some step → step.index = j := by
  obtain ⟨fields, steps, permissions, uses, rfl, hsteps, -, -, rfl⟩ := readJob_eq_ok_iff.1 hread
  refine ⟨rfl, fun j step hstep => ?_⟩
  unfold readSteps at hsteps
  split at hsteps
  · cases hsteps
    cases hstep
  · cases hsteps
    cases hstep
  · rw [index_of_readStepsFrom hsteps hstep, Nat.zero_add]
  · cases hsteps

/-- A job that was read stands for an entry: its id is the spelling of the key, and its steps
are numbered by their positions. -/
def StandsFor (read : Job) (entry : Value × Value) : Prop :=
  entry.1.Spells read.id ∧ ∀ (j : Nat) step, read.steps[j]? = some step → step.index = j

theorem forall₂_of_readJobs {jobs : List Job} (hread : readJobs entries = .ok jobs) :
    List.Forall₂ StandsFor jobs entries := by
  refine ((readJobs_eq_ok_iff.1 hread).imp ?_).flip
  rintro entry read ⟨id, hkey, hread⟩
  obtain ⟨rfl, hsteps⟩ := readJob_eq_ok hread
  exact ⟨Value.spells_iff.2 hkey, hsteps⟩

/-! ## Ids that two jobs share -/

/-- Two jobs of a list have the id `name`. -/
def ShareId (jobs : List Job) (name : String) : Prop :=
  ∃ (i k : Nat) (job other : Job), i ≠ k ∧ jobs[i]? = some job ∧ jobs[k]? = some other ∧
    job.id = name ∧ other.id = name

variable {jobs : List Job} {name : String} {d : Definition}

/-- Two jobs have one id just where two keys have one spelling. -/
theorem shareId_iff (hsound : (Value.mapping entries).IsSound)
    (hjobs : List.Forall₂ StandsFor jobs entries) :
    ShareId jobs name ↔ SpelledTwice entries name := by
  rw [spelledTwice_iff hsound]
  constructor
  · rintro ⟨i, k, job, other, hne, hjob, hother, rfl, hid⟩
    obtain ⟨entry, hentry, hstands⟩ := exists_getElem?_of_forall₂ hjobs hjob
    obtain ⟨entry', hentry', hstands'⟩ := exists_getElem?_of_forall₂ hjobs hother
    exact ⟨i, k, entry, entry', hne, hentry, hentry', hstands.1, hid ▸ hstands'.1⟩
  · rintro ⟨i, k, entry, entry', hne, hentry, hentry', hspells, hspells'⟩
    obtain ⟨job, hjob, hstands⟩ := exists_getElem?_of_forall₂ hjobs.flip hentry
    obtain ⟨other, hother, hstands'⟩ := exists_getElem?_of_forall₂ hjobs.flip hentry'
    exact ⟨i, k, job, other, hne, hjob, hother, Value.spells_unique hstands.1 hspells,
      Value.spells_unique hstands'.1 hspells'⟩

/-! ## Places with one location -/

/-- The place of a location in no job, and the places of the locations in a job. -/
theorem At.inversion {place : List Nat} {location : Location} (hat : d.At place location) :
    (location.job = none → place = []) ∧
      ∀ id, location.job = some id → ∃ i rest job, place = i :: rest ∧ d.jobs[i]? = some job ∧
        job.id = id ∧ ((location.step = none ∧ rest = []) ∨ ∃ j step, job.steps[j]? = some step ∧
          location.step = some step.index ∧ rest = [j]) := by
  cases hat with
  | file => exact ⟨fun _ => rfl, fun id hid => nomatch hid⟩
  | job hjob =>
      refine ⟨fun hnone => (nomatch hnone), fun id hid => ?_⟩
      exact ⟨_, _, _, rfl, hjob, Option.some.inj hid, .inl ⟨rfl, rfl⟩⟩
  | step hjob hstep =>
      refine ⟨fun hnone => (nomatch hnone), fun id hid => ?_⟩
      exact ⟨_, _, _, rfl, hjob, Option.some.inj hid, .inr ⟨_, _, hstep, rfl, rfl⟩⟩

theorem position_eq_of_not_shareId (hshare : ¬ShareId jobs name) {i k : Nat} {job other : Job}
    (hjob : jobs[i]? = some job) (hother : jobs[k]? = some other) (hid : job.id = name)
    (hid' : other.id = name) : i = k := by
  by_contra hne
  exact hshare ⟨i, k, job, other, hne, hjob, hother, hid, hid'⟩

/-- Where no other job has the id of a location, the location has one place. -/
theorem At.place_eq (hnumbered : ∀ job ∈ d.jobs, ∀ (j : Nat) step,
      job.steps[j]? = some step → step.index = j)
    {place place' : List Nat} {location : Location} (hat : d.At place location)
    (hat' : d.At place' location)
    (honce : ∀ name, location.job = some name → ¬ShareId d.jobs name) : place = place' := by
  obtain ⟨hfile, hplace⟩ := hat.inversion
  obtain ⟨hfile', hplace'⟩ := hat'.inversion
  cases hid : location.job with
  | none => rw [hfile hid, hfile' hid]
  | some id =>
      obtain ⟨i, rest, job, rfl, hjob, hname, hrest⟩ := hplace id hid
      obtain ⟨k, rest', other, rfl, hother, hname', hrest'⟩ := hplace' id hid
      obtain rfl := position_eq_of_not_shareId (honce id hid) hjob hother hname hname'
      obtain rfl : job = other := Option.some.inj (hjob.symm.trans hother)
      have hnumber := hnumbered job (List.mem_of_getElem? hjob)
      rcases hrest with ⟨hnone, rfl⟩ | ⟨j, step, hstep, hindex, rfl⟩ <;>
        rcases hrest' with ⟨hnone', rfl⟩ | ⟨j', step', hstep', hindex', rfl⟩
      · rfl
      · cases hnone.symm.trans hindex'
      · cases hnone'.symm.trans hindex
      · have hindices := Option.some.inj (hindex.symm.trans hindex')
        rw [hnumber j step hstep, hnumber j' step' hstep'] at hindices
        rw [hindices]

/-- The jobs of a workflow that was read stand for the entries of the document, each with the
spelling of its key for an id.  Two jobs have one id just where two keys are spelled like it,
a text and one that is no text.  Just the ids of such keys stand in locations with more than one
place, and every exception that names another job waives findings of one job only. -/
theorem locations_identify_positions (hread : parsePipeline path source = .ok d) :
    ∃ root, Value.parse source = .ok (.mapping root) ∧
      List.Forall₂ StandsFor d.jobs (entriesUnder "jobs" root) ∧
      (∀ name, ShareId d.jobs name ↔ SpelledTwice (entriesUnder "jobs" root) name) ∧
      (∀ place place' location, d.At place location → d.At place' location → place ≠ place' →
        ∃ name, location.job = some name ∧ SpelledTwice (entriesUnder "jobs" root) name) ∧
      (∀ name, SpelledTwice (entriesUnder "jobs" root) name →
        ∃ place place', place ≠ place' ∧ d.At place (.inJob d.path name) ∧
          d.At place' (.inJob d.path name)) ∧
      ∀ (e : Exemption) name, e.job = some name → ¬SpelledTwice (entriesUnder "jobs" root) name →
        ∀ v w place place', d.At place v.location → d.At place' w.location → e.Waives v →
          e.Waives w → ∃ i rest rest', place = i :: rest ∧ place' = i :: rest' := by
  obtain ⟨root, hroot⟩ := exists_root_of_parsePipeline hread
  obtain ⟨-, triggers, jobs, permissions, -, hjobs, -, rfl⟩ :=
    (parsePipeline_eq_ok_iff hroot).1 hread
  have hsound := isSound_entriesUnder (isSound_of_parse hroot) "jobs"
  have hjobs := forall₂_of_readJobs hjobs
  have hshare : ∀ name, ShareId jobs name ↔ SpelledTwice (entriesUnder "jobs" root) name :=
    fun name => shareId_iff hsound hjobs
  refine ⟨root, hroot, hjobs, hshare, ?_, ?_, ?_⟩
  · intro place place' location hat hat' hne
    by_contra honce
    refine hne (hat.place_eq ?_ hat' fun name hname hshared =>
      honce ⟨name, hname, (hshare name).1 hshared⟩)
    intro job hmem j step hstep
    obtain ⟨i, hjob⟩ := List.mem_iff_getElem?.1 hmem
    obtain ⟨entry, -, hstands⟩ := exists_getElem?_of_forall₂ hjobs hjob
    exact hstands.2 j step hstep
  · intro name htwice
    obtain ⟨i, k, job, other, hne, hjob, hother, rfl, hid⟩ := (hshare name).2 htwice
    exact ⟨[i], [k], by simpa using hne, .job hjob, hid ▸ .job hother⟩
  · intro e name hname honce v w place place' hat hat' hwaives hwaives'
    obtain ⟨i, rest, job, rfl, hjob, hid, -⟩ := hat.inversion.2 name (hwaives.job name hname)
    obtain ⟨k, rest', other, rfl, hother, hid', -⟩ :=
      hat'.inversion.2 name (hwaives'.job name hname)
    obtain rfl := position_eq_of_not_shareId (mt (hshare name).1 honce) hjob hother hid hid'
    exact ⟨i, rest, rest', rfl, rfl⟩

/-- A number for the id of a job, beside another id. -/
theorem locations_identify_positions_number :
    let source := "jobs:\n  build:\n    name: first\n  1:\n    steps:\n    - run: make\n"
    let make : Step := { index := 0, run := some "make", fields := [("run", "make")] }
    let workflow : Definition := {
      path := "ci.yml", kind := .pipeline,
      jobs := [{ id := "build", name := some "first", keys := ["name"] },
        { id := "1", keys := ["steps"], steps := [make] }] }
    parsePipeline "ci.yml" source = .ok workflow ∧
      ∀ place place' location, workflow.At place location → workflow.At place' location →
        place = place' := by
  intro source make workflow
  have hread : parsePipeline "ci.yml" source = .ok workflow := by decide +kernel
  obtain ⟨root, -, -, hshare, hplaces, -⟩ := locations_identify_positions hread
  refine ⟨hread, fun place place' location hat hat' => ?_⟩
  by_contra hne
  obtain ⟨name, -, htwice⟩ := hplaces place place' location hat hat' hne
  obtain ⟨i, k, job, other, hpositions, hjob, hother, hid, hid'⟩ := (hshare name).2 htwice
  have hids : (workflow.jobs.map Job.id)[i]? = (workflow.jobs.map Job.id)[k]? := by
    rw [List.getElem?_map, List.getElem?_map, hjob, hother, Option.map_some, Option.map_some, hid,
      hid']
  have hlt : i < (workflow.jobs.map Job.id).length := by
    rw [List.length_map]
    exact (List.getElem?_eq_some_iff.1 hjob).1
  exact hpositions ((List.getElem?_inj hlt (by decide)).1 hids)

/-- A number and the text that is spelled like it are the ids of two jobs, and an exception that
names the one waives the findings of both. -/
theorem jobs_share_spelling :
    let source := "jobs:\n  1:\n    name: first\n  '1':\n    name: second\n"
    let first : Job := { id := "1", name := some "first", keys := ["name"] }
    let second : Job := { id := "1", name := some "second", keys := ["name"] }
    let workflow : Definition := { path := "ci.yml", kind := .pipeline, jobs := [first, second] }
    let exemption : Exemption :=
      { category := .permissions, path := "ci.yml", job := some "1", rationale := "reviewed" }
    let policy : Policy :=
      { rules := [{ id := "rights", check := .permissions false true none }] }
    let verifier : ReferenceVerifier Nat := fun _ _ asked => (.verified, asked + 1)
    parsePipeline "ci.yml" source = .ok workflow ∧
      workflow.At [0] (.inJob "ci.yml" "1") ∧ workflow.At [1] (.inJob "ci.yml" "1") ∧
      (((Scanner.start .standard policy 0).scan verifier [workflow]).1.map
        fun v => (v.location, exemption.covers v)) =
          [(.inJob "ci.yml" "1", true), (.inJob "ci.yml" "1", true)] := by
  intro source first second workflow exemption policy verifier
  exact ⟨by decide +kernel, @At.job workflow 0 first rfl, @At.job workflow 1 second rfl,
    by decide +kernel⟩

end Definition

end WorkflowAudit
