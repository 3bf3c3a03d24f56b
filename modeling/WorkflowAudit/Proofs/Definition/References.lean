import Mathlib.Data.List.Forall2
import WorkflowAudit.Definition.Reading
import WorkflowAudit.Proofs.Outcome
import WorkflowAudit.Proofs.Text.Pieces
import WorkflowAudit.Scan.References

/-!
# References of a document

The checks of references see what `Definition.references` lists and nothing else.  This
module walks the document itself, entry by entry, and shows that a definition which was
read lists what the walk meets, in the order and at the places of the document.  A
document with a job, a step or a reference of the wrong shape is no definition.
-/

namespace WorkflowAudit

open Yaml

/-- What a step lists, if anything. -/
def Step.references (path job : String) (step : Step) : List (Location × String) :=
  step.uses.toList.map (Location.atStep path job step.index, ·)

theorem Job.references_eq (path : String) (job : Job) :
    job.references path = job.uses.toList.map (Location.inJob path job.id, ·) ++
      job.steps.flatMap (Step.references path job.id) := by
  rw [Job.references, List.filterMap_eq_flatMap_toList]
  refine congrArg _ (List.flatMap_congr fun step _ => ?_)
  exact Option.toList_map ..

namespace Definition

/-! ## Shapes -/

/-- The value under a key; a null counts as none. -/
def given? (key : String) (entries : Entries) : Option Value :=
  match Value.get? key entries with
  | some .null => none
  | other => other

/-- What is given under a key, if anything, has a shape. -/
def HasField (key : String) (shape : Value → Prop) (entries : Entries) : Prop :=
  ∀ value ∈ given? key entries, shape value

def IsText (value : Value) : Prop := ∃ text, value = .string text

def IsListOf (shape : Value → Prop) (value : Value) : Prop :=
  ∃ items, value = .sequence items ∧ ∀ item ∈ items, shape item

def IsMappingOf (shape : Entries → Prop) (value : Value) : Prop :=
  ∃ entries, value = .mapping entries ∧ shape entries

def IsMapping (value : Value) : Prop := ∃ entries, value = .mapping entries

def IsStep : Value → Prop :=
  IsMappingOf fun fields => HasField "uses" IsText fields ∧ HasField "run" IsText fields

def ArePermissions (value : Value) : Prop := IsText value ∨ IsMapping value

def IsJob : Value → Prop :=
  IsMappingOf fun fields =>
    HasField "steps" (IsListOf IsStep) fields ∧ HasField "permissions" ArePermissions fields ∧
      HasField "uses" IsText fields

def AreTriggers (value : Value) : Prop :=
  IsText value ∨ IsListOf (fun event => event.scalar?.isSome) value ∨ IsMapping value

def entriesUnder (key : String) (entries : Entries) : Entries :=
  match given? key entries with
  | some (.mapping nested) => nested
  | _ => []

def itemsUnder (key : String) (entries : Entries) : List Value :=
  match given? key entries with
  | some (.sequence items) => items
  | _ => []

structure IsWorkflow (root : Entries) : Prop where
  triggers : HasField "on" AreTriggers root
  permissions : HasField "permissions" ArePermissions root
  jobs : HasField "jobs" IsMapping root
  each_job : ∀ job ∈ entriesUnder "jobs" root, job.1.scalar?.isSome ∧ IsJob job.2

structure IsBundle (root : Entries) : Prop where
  runs : HasField "runs" IsMapping root
  steps : HasField "steps" (IsListOf IsStep) (entriesUnder "runs" root)

/-! ## Walks -/

/-- What a mapping uses, at a location. -/
def usesAt (location : Location) (entries : Entries) : List (Location × Value) :=
  (given? "uses" entries).toList.map (location, ·)

/-- What a step uses, at its position. -/
def usesInStep (path job : String) : Value × Nat → List (Location × Value)
  | (.mapping fields, index) => usesAt (Location.atStep path job index) fields
  | _ => []

def usesInSteps (path job : String) (steps : List Value) : List (Location × Value) :=
  steps.zipIdx.flatMap (usesInStep path job)

/-- What a job uses itself, then what its steps use. -/
def usesInJob (path : String) : Value × Value → List (Location × Value)
  | (id, .mapping fields) =>
      id.scalar?.toList.flatMap fun id =>
        usesAt (Location.inJob path id) fields ++ usesInSteps path id (itemsUnder "steps" fields)
  | _ => []

def usesInWorkflow (path : String) (root : Entries) : List (Location × Value) :=
  (entriesUnder "jobs" root).flatMap (usesInJob path)

/-- The container image that a bundle runs, if it names one by its scheme. -/
def bundleImage? (runs : Entries) : Option String :=
  ((Value.get? "image" runs).bind Value.scalar?).filter fun image =>
    "docker://".toList <+: image.toList

/-- What a bundle uses: what its steps use, or without steps the image that it runs.  The
job that holds the steps has no reference of its own. -/
def usesInRuns (path : String) (runs : Entries) : List (Location × Value) :=
  match Value.get? "steps" runs with
  | some _ => usesInSteps path bundleJob (itemsUnder "steps" runs)
  | none =>
      (bundleImage? runs).toList.map fun image => (Location.atStep path bundleJob 0, .string image)

def usesInBundle (path : String) (root : Entries) : List (Location × Value) :=
  usesInRuns path (entriesUnder "runs" root)

/-! ## What is accepted -/

theorem exists_getElem?_of_forall₂ {α β : Type} {r : α → β → Prop} {left : List α} {right : List β}
    (hall : List.Forall₂ r left right) {i : Nat} {a : α} (ha : left[i]? = some a) :
    ∃ b, right[i]? = some b ∧ r a b := by
  induction hall generalizing i with
  | nil => cases ha
  | cons hfirst _ ih =>
      cases i with
      | zero =>
          cases ha
          exact ⟨_, rfl, hfirst⟩
      | succ i => exact ih ha

variable {key path source job id : String} {entries root : Entries} {value : Value}

theorem textField_eq_ok_iff {text : Option String} :
    textField key entries = .ok text ↔ given? key entries = text.map .string := by
  unfold textField given?
  cases hget : Value.get? key entries with
  | none => cases text <;> simp
  | some value => cases value <;> cases text <;> simp [eq_comm]

theorem exists_textField_iff :
    (∃ text, textField key entries = .ok text) ↔ HasField key IsText entries := by
  simp only [textField_eq_ok_iff, HasField, IsText]
  cases given? key entries with
  | none => exact iff_of_true ⟨none, rfl⟩ (by simp)
  | some value =>
      simp only [Option.mem_def, Option.some.injEq, forall_eq']
      constructor
      · rintro ⟨text, htext⟩
        obtain ⟨text, -, htext⟩ := Option.map_eq_some_iff.1 htext.symm
        exact ⟨text, htext.symm⟩
      · rintro ⟨text, rfl⟩
        exact ⟨some text, rfl⟩

theorem exists_readPermissions_iff :
    (∃ permissions, readPermissions (Value.get? key entries) = .ok permissions) ↔
      HasField key ArePermissions entries := by
  unfold readPermissions HasField given? ArePermissions IsText IsMapping
  cases Value.get? key entries with
  | none => simp
  | some value => cases value <;> simp

theorem exists_readStep_iff {index : Nat} :
    (∃ step, readStep job index value = .ok step) ↔ IsStep value := by
  cases value <;>
    simp [readStep, IsStep, IsMappingOf, bind_eq_ok_iff, ← exists_textField_iff, pure_eq_ok]

theorem exists_readStepsFrom_iff {index : Nat} {values : List Value} :
    (∃ steps, readStepsFrom job index values = .ok steps) ↔ ∀ value ∈ values, IsStep value := by
  induction values generalizing index with
  | nil => simp [readStepsFrom]
  | cons value rest ih =>
      simp [readStepsFrom, bind_eq_ok_iff, pure_eq_ok, exists_readStep_iff, ih]

theorem exists_readSteps_iff :
    (∃ steps, readSteps job (Value.get? key entries) = .ok steps) ↔
      HasField key (IsListOf IsStep) entries := by
  unfold readSteps HasField given? IsListOf
  cases Value.get? key entries with
  | none => simp
  | some value => cases value <;> simp [exists_readStepsFrom_iff]

/-- What a job is made of. -/
theorem readJob_eq_ok_iff {job : Job} :
    readJob id value = .ok job ↔ ∃ fields steps permissions uses, value = .mapping fields ∧
      readSteps id (Value.get? "steps" fields) = .ok steps ∧
      readPermissions (Value.get? "permissions" fields) = .ok permissions ∧
      textField "uses" fields = .ok uses ∧
      { id := id, name := optionalScalar "name" fields, permissions := permissions, uses := uses,
        containerImage := (Value.get? "container" fields).bind imageOf,
        serviceImages := serviceImages (Value.get? "services" fields),
        keys := keyTexts fields, steps := steps } = job := by
  cases value <;> simp [readJob, bind_eq_ok_iff, pure_eq_ok]

theorem exists_readJob_iff : (∃ job, readJob id value = .ok job) ↔ IsJob value := by
  cases value <;>
    simp [readJob, IsJob, IsMappingOf, bind_eq_ok_iff, pure_eq_ok, exists_readSteps_iff,
      exists_readPermissions_iff, exists_textField_iff]

theorem exists_readJobs_iff {jobs : Entries} :
    (∃ read, readJobs jobs = .ok read) ↔ ∀ job ∈ jobs, job.1.scalar?.isSome ∧ IsJob job.2 := by
  induction jobs with
  | nil => simp [readJobs]
  | cons job rest ih =>
      obtain ⟨id, value⟩ := job
      cases hid : id.scalar? <;>
        simp [readJobs, hid, bind_eq_ok_iff, pure_eq_ok, throw_eq_error, exists_readJob_iff, ih]

/-- Jobs are read one by one, each under the spelling of its key. -/
theorem readJobs_eq_ok_iff {jobs : Entries} {read : List Job} :
    readJobs jobs = .ok read ↔ List.Forall₂ (fun entry job => ∃ id,
      entry.1.scalar? = some id ∧ readJob id entry.2 = .ok job) jobs read := by
  induction jobs generalizing read with
  | nil => simp [readJobs, eq_comm]
  | cons entry rest ih =>
      obtain ⟨key, value⟩ := entry
      rw [readJobs, List.forall₂_cons_left_iff]
      cases key.scalar? with
      | none => simp [throw_eq_error]
      | some id => simp [bind_eq_ok_iff, pure_eq_ok, ih, @eq_comm _ read]

theorem exists_readTriggers_iff :
    (∃ triggers, readTriggers (Value.get? key entries) = .ok triggers) ↔
      HasField key AreTriggers entries := by
  unfold readTriggers HasField given? AreTriggers IsText IsListOf IsMapping
  cases Value.get? key entries with
  | none => simp
  | some value =>
      cases value with
      | sequence events =>
          simp only [Option.mem_def, Option.some.injEq, forall_eq', reduceCtorEq, exists_const,
            Value.sequence.injEq, exists_eq_left', false_or, or_false, exists_mapM_iff]
          refine forall₂_congr fun event _ => ?_
          cases event.scalar? <;> simp
      | _ => simp

theorem readRoot_eq_ok_iff :
    readRoot source = .ok root ↔ Value.parse source = .ok (.mapping root) := by
  unfold readRoot
  cases Value.parse source with
  | error problem => simp
  | ok value => cases value <;> simp

/-- Nothing but a mapping is read as a workflow. -/
theorem exists_root_of_parsePipeline {d : Definition} (hread : parsePipeline path source = .ok d) :
    ∃ root, Value.parse source = .ok (.mapping root) := by
  simp only [parsePipeline, bind_eq_ok_iff] at hread
  obtain ⟨root, hroot, -⟩ := hread
  exact ⟨root, readRoot_eq_ok_iff.1 hroot⟩

/-- What a workflow is made of, once its root is known. -/
theorem parsePipeline_eq_ok_iff (hroot : Value.parse source = .ok (.mapping root))
    {d : Definition} :
    parsePipeline path source = .ok d ↔
      HasField "jobs" IsMapping root ∧ ∃ triggers jobs permissions,
        readTriggers (Value.get? "on" root) = .ok triggers ∧
        readJobs (entriesUnder "jobs" root) = .ok jobs ∧
        readPermissions (Value.get? "permissions" root) = .ok permissions ∧
        { path := path, kind := .pipeline, name := optionalScalar "name" root,
          triggers := triggers, permissions := permissions, jobs := jobs } = d := by
  simp only [parsePipeline, readRoot_eq_ok_iff.2 hroot, bind_eq_ok_iff, Except.ok.injEq,
    exists_eq_left', HasField, IsMapping, entriesUnder, given?]
  cases Value.get? "jobs" root with
  | none => simp [bind_eq_ok_iff, pure_eq_ok, readJobs]
  | some value =>
      cases value <;> simp [bind_eq_ok_iff, pure_eq_ok, readJobs, throw_eq_error]

/-- What a bundle is made of, once its root is known. -/
theorem parseBundle_eq_ok_iff (hroot : Value.parse source = .ok (.mapping root))
    {d : Definition} :
    parseBundle path source = .ok d ↔
      HasField "runs" IsMapping root ∧ ∃ jobs,
        readBundleJobs (entriesUnder "runs" root) = .ok jobs ∧
        { path := path, kind := .bundle, name := optionalScalar "name" root, jobs := jobs } = d := by
  have hempty : readBundleJobs [] = .ok [] := rfl
  simp only [parseBundle, readRoot_eq_ok_iff.2 hroot, bind_eq_ok_iff, Except.ok.injEq,
    exists_eq_left', HasField, IsMapping, entriesUnder, given?]
  cases Value.get? "runs" root with
  | none => simp [bind_eq_ok_iff, pure_eq_ok, hempty]
  | some value =>
      cases value <;> simp [bind_eq_ok_iff, pure_eq_ok, hempty, throw_eq_error]

theorem readBundleJobs_of_steps {runs : Entries} (hsteps : Value.get? "steps" runs = some value) :
    readBundleJobs runs = (readSteps bundleJob (some value)).map fun steps =>
      [{ id := bundleJob, keys := keyTexts runs, steps := steps }] := by
  unfold readBundleJobs
  simp only [hsteps]
  cases readSteps bundleJob (some value) <;> rfl

theorem readBundleJobs_of_no_steps {runs : Entries} (hsteps : Value.get? "steps" runs = none) :
    readBundleJobs runs = .ok ((bundleImage? runs).toList.map fun image =>
      { id := bundleJob, keys := keyTexts runs,
        steps := [{ index := 0, uses := some image, fields := [("uses", image)] }] }) := by
  unfold readBundleJobs bundleImage? optionalScalar
  -- Which scheme it is does not matter, and the simplifier had better not spell it out.
  generalize "docker://".toList = lead
  simp only [hsteps, Text.isNone_dropLead?_iff]
  cases (Value.get? "image" runs).bind Value.scalar? with
  | none => rfl
  | some image =>
      by_cases hlead : lead <+: image.toList <;>
        simp [Option.filter, hlead, pure_eq_ok]

theorem exists_readBundleJobs_iff {runs : Entries} :
    (∃ jobs, readBundleJobs runs = .ok jobs) ↔ HasField "steps" (IsListOf IsStep) runs := by
  rw [← @exists_readSteps_iff _ bundleJob]
  cases hsteps : Value.get? "steps" runs with
  | some steps =>
      rw [readBundleJobs_of_steps hsteps]
      cases readSteps bundleJob (some steps) <;> simp [Except.map]
  | none => simp [readBundleJobs_of_no_steps hsteps, readSteps]

theorem exists_parsePipeline_iff (hroot : Value.parse source = .ok (.mapping root)) :
    (∃ d, parsePipeline path source = .ok d) ↔ IsWorkflow root := by
  simp only [parsePipeline_eq_ok_iff hroot]
  constructor
  · rintro ⟨d, hjobs, triggers, jobs, permissions, htriggers, hread, hpermissions, -⟩
    exact ⟨exists_readTriggers_iff.1 ⟨triggers, htriggers⟩,
      exists_readPermissions_iff.1 ⟨permissions, hpermissions⟩, hjobs,
      exists_readJobs_iff.1 ⟨jobs, hread⟩⟩
  · intro hworkflow
    obtain ⟨triggers, htriggers⟩ := exists_readTriggers_iff.2 hworkflow.triggers
    obtain ⟨permissions, hpermissions⟩ := exists_readPermissions_iff.2 hworkflow.permissions
    obtain ⟨jobs, hjobs⟩ := exists_readJobs_iff.2 hworkflow.each_job
    exact ⟨_, hworkflow.jobs, triggers, jobs, permissions, htriggers, hjobs, hpermissions, rfl⟩

theorem exists_parseBundle_iff (hroot : Value.parse source = .ok (.mapping root)) :
    (∃ d, parseBundle path source = .ok d) ↔ IsBundle root := by
  simp only [parseBundle_eq_ok_iff hroot]
  constructor
  · rintro ⟨d, hruns, jobs, hjobs, -⟩
    exact ⟨hruns, exists_readBundleJobs_iff.1 ⟨jobs, hjobs⟩⟩
  · intro hbundle
    obtain ⟨jobs, hjobs⟩ := exists_readBundleJobs_iff.2 hbundle.steps
    exact ⟨_, hbundle.runs, jobs, hjobs, rfl⟩

/-! ## What is listed -/

def asValues (references : List (Location × String)) : List (Location × Value) :=
  references.map fun (location, uses) => (location, .string uses)

theorem asValues_append (left right : List (Location × String)) :
    asValues (left ++ right) = asValues left ++ asValues right := List.map_append

theorem asValues_textField {uses : Option String} (location : Location)
    (huses : textField "uses" entries = .ok uses) :
    asValues (uses.toList.map (location, ·)) = usesAt location entries := by
  rw [usesAt, textField_eq_ok_iff.1 huses]
  cases uses <;> rfl

theorem readStep_references {index : Nat} {step : Step}
    (hread : readStep job index value = .ok step) :
    asValues (step.references path job) = usesInStep path job (value, index) := by
  cases value with
  | mapping fields =>
      simp only [readStep, bind_eq_ok_iff, pure_eq_ok, Except.ok.injEq] at hread
      obtain ⟨uses, huses, run, hrun, rfl⟩ := hread
      exact asValues_textField _ huses
  | _ => simp [readStep] at hread

theorem readStepsFrom_references {index : Nat} {values : List Value} {steps : List Step}
    (hread : readStepsFrom job index values = .ok steps) :
    asValues (steps.flatMap (Step.references path job)) =
      (values.zipIdx index).flatMap (usesInStep path job) := by
  -- The number of the next step and the position in the list move on together.
  induction values generalizing index steps with
  | nil =>
      obtain rfl : [] = steps := by simpa [readStepsFrom] using hread
      rfl
  | cons value rest ih =>
      simp only [readStepsFrom, bind_eq_ok_iff, pure_eq_ok, Except.ok.injEq] at hread
      obtain ⟨step, hstep, later, hlater, rfl⟩ := hread
      rw [List.flatMap_cons, asValues_append, readStep_references hstep, ih hlater]
      rfl

theorem readSteps_references {steps : List Step}
    (hread : readSteps job (Value.get? "steps" entries) = .ok steps) :
    asValues (steps.flatMap (Step.references path job)) =
      usesInSteps path job (itemsUnder "steps" entries) := by
  unfold readSteps at hread
  unfold itemsUnder given?
  split at hread
  · next hget =>
      cases hread
      simp [hget, usesInSteps, asValues]
  · next hget =>
      cases hread
      simp [hget, usesInSteps, asValues]
  · next items hget =>
      rw [hget]
      exact readStepsFrom_references hread
  · cases hread

theorem readJob_references {key : Value} {job : Job} (hid : key.scalar? = some id)
    (hread : readJob id value = .ok job) :
    asValues (job.references path) = usesInJob path (key, value) := by
  cases value with
  | mapping fields =>
      simp only [readJob, bind_eq_ok_iff, pure_eq_ok, Except.ok.injEq] at hread
      obtain ⟨steps, hsteps, permissions, -, uses, huses, rfl⟩ := hread
      simp only [Job.references_eq, asValues_append, asValues_textField _ huses, usesInJob, hid,
        Option.toList_some, List.flatMap_singleton]
      exact congrArg _ (readSteps_references hsteps)
  | _ => simp [readJob] at hread

theorem readJobs_references {jobs : Entries} {read : List Job} (hread : readJobs jobs = .ok read) :
    asValues (read.flatMap (Job.references path)) = jobs.flatMap (usesInJob path) := by
  induction jobs generalizing read with
  | nil =>
      obtain rfl : [] = read := by simpa [readJobs] using hread
      rfl
  | cons entry rest ih =>
      obtain ⟨key, value⟩ := entry
      cases hid : key.scalar? with
      | none => simp [readJobs, hid, throw_eq_error] at hread
      | some id =>
          simp only [readJobs, hid, bind_eq_ok_iff, pure_eq_ok, Except.ok.injEq] at hread
          obtain ⟨job, hjob, later, hlater, rfl⟩ := hread
          rw [List.flatMap_cons, asValues_append, readJob_references hid hjob, ih hlater,
            List.flatMap_cons]

theorem readBundleJobs_references {runs : Entries} {jobs : List Job}
    (hread : readBundleJobs runs = .ok jobs) :
    asValues (jobs.flatMap (Job.references path)) = usesInRuns path runs := by
  unfold usesInRuns
  cases hsteps : Value.get? "steps" runs with
  | some value =>
      rw [readBundleJobs_of_steps hsteps] at hread
      cases hread' : readSteps bundleJob (some value) with
      | error fault => simp [hread', Except.map] at hread
      | ok steps =>
          rw [hread'] at hread
          cases hread
          rw [← hsteps] at hread'
          simpa [Job.references_eq] using readSteps_references hread'
  | none =>
      rw [readBundleJobs_of_no_steps hsteps, Except.ok.injEq] at hread
      rw [← hread]
      cases bundleImage? runs <;> rfl

/-! ## Nothing escapes -/

/-- A workflow or bundle is read exactly when its document has the shape, and then it lists
what the walk over the document meets: no more, no less, in the same order and at the same
places. -/
theorem references_follow_document (path source : String) (root : Entries)
    (hroot : Value.parse source = .ok (.mapping root)) :
    ((∃ d, parsePipeline path source = .ok d) ↔ IsWorkflow root) ∧
    (∀ d, parsePipeline path source = .ok d →
      asValues d.references = usesInWorkflow path root) ∧
    ((∃ d, parseBundle path source = .ok d) ↔ IsBundle root) ∧
    (∀ d, parseBundle path source = .ok d → asValues d.references = usesInBundle path root) := by
  refine ⟨exists_parsePipeline_iff hroot, ?_, exists_parseBundle_iff hroot, ?_⟩
  · intro d hd
    obtain ⟨-, triggers, jobs, permissions, -, hjobs, -, rfl⟩ :=
      (parsePipeline_eq_ok_iff hroot).1 hd
    exact readJobs_references hjobs
  · intro d hd
    obtain ⟨-, jobs, hjobs, rfl⟩ := (parseBundle_eq_ok_iff hroot).1 hd
    exact readBundleJobs_references hjobs

/-- One document, read as a workflow and as a bundle. -/
theorem references_follow_document_two_kinds :
    let source := "jobs:\n  j:\n    uses: a\n    steps:\n    - run: b\n    - uses: c\n" ++
      "runs:\n  image: docker://d\n"
    ∃ root : Entries, Value.parse source = .ok (.mapping root) ∧ IsWorkflow root ∧ IsBundle root ∧
      usesInWorkflow "p" root =
        [(Location.inJob "p" "j", .string "a"), (Location.atStep "p" "j" 1, .string "c")] ∧
      usesInBundle "p" root = [(Location.atStep "p" "runs" 0, .string "docker://d")] := by
  intro source
  have hworkflow : (parsePipeline "p" source >>= fun d => .ok d.references) = .ok
      [(Location.inJob "p" "j", "a"), (Location.atStep "p" "j" 1, "c")] := by
    decide +kernel
  have hbundle : (parseBundle "p" source >>= fun d => .ok d.references) = .ok
      [(Location.atStep "p" "runs" 0, "docker://d")] := by
    decide +kernel
  obtain ⟨workflow, hworkflow, hlisted⟩ := bind_eq_ok_iff.1 hworkflow
  obtain ⟨bundle, hbundle, hlisted'⟩ := bind_eq_ok_iff.1 hbundle
  obtain ⟨root, hroot⟩ := exists_root_of_parsePipeline hworkflow
  obtain ⟨hshape, hwalk, hshape', hwalk'⟩ := references_follow_document "p" source root hroot
  refine ⟨root, hroot, hshape.1 ⟨workflow, hworkflow⟩, hshape'.1 ⟨bundle, hbundle⟩, ?_, ?_⟩
  · rw [← hwalk workflow hworkflow, Except.ok.inj hlisted]
    rfl
  · rw [← hwalk' bundle hbundle, Except.ok.inj hlisted']
    rfl

end Definition
end WorkflowAudit
