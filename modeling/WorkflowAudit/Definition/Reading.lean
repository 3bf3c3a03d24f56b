import WorkflowAudit.Definition.Basic
import WorkflowAudit.Text.Pieces
import WorkflowAudit.Yaml.Value

/-!
# Reading definitions

Documents are read leniently where nothing depends on a value and strictly
where a check would otherwise look at the wrong thing: a job, a step or a
reference of the wrong shape is a fault, an unknown key is not.
-/

namespace WorkflowAudit

open Yaml

/-- Why a document is no definition. -/
inductive DefinitionFault where
  | unreadable (problem : Problem)
  | emptyDocument
  | rootNotMapping
  | triggerNotText
  | malformedTriggers
  | jobIdNotText
  | jobsNotMapping
  | runsNotMapping
  | jobNotMapping (job : String)
  | stepsNotList (job : String)
  | stepNotMapping (index : Nat) (job : String)
  | malformedPermissions
  | fieldNotText (key : String)
  deriving DecidableEq, Repr

def DefinitionFault.message : DefinitionFault → String
  | .unreadable problem => problem.message
  | .emptyDocument => "document is empty"
  | .rootNotMapping => "document root must be a mapping"
  | .triggerNotText => "trigger must be a string"
  | .malformedTriggers => "'on' must be a string, list or mapping"
  | .jobIdNotText => "job id must be a string"
  | .jobsNotMapping => "'jobs' must be a mapping"
  | .runsNotMapping => "'runs' must be a mapping"
  | .jobNotMapping job => s!"job '{job}' must be a mapping"
  | .stepsNotList job => s!"steps of job '{job}' must be a list"
  | .stepNotMapping index job => s!"step {index} of job '{job}' must be a mapping"
  | .malformedPermissions => "'permissions' must be a string or mapping"
  | .fieldNotText key => s!"'{key}' must be a string"

namespace Definition

abbrev Entries := List (Value × Value)

/-- The texts of the keys that are scalars. -/
def keyTexts (entries : Entries) : List String := entries.filterMap fun entry => entry.1.scalar?

def optionalScalar (key : String) (entries : Entries) : Option String :=
  (Value.get? key entries).bind Value.scalar?

def textField (key : String) (entries : Entries) : Except DefinitionFault (Option String) :=
  match Value.get? key entries with
  | none | some .null => .ok none
  | some (.string text) => .ok (some text)
  | some _ => .error (.fieldNotText key)

/-- Declared permissions; a key without a value declares the empty set. -/
def readPermissions (value : Option Value) : Except DefinitionFault (Option Permissions) :=
  match value with
  | none => .ok none
  | some (.string access) => .ok (some (.blanket access))
  | some (.mapping scopes) =>
      .ok (some (.scopes (scopes.filterMap fun (scope, access) =>
        scope.scalar?.map fun scope => (scope, access.scalar?.getD ""))))
  | some .null => .ok (some (.scopes []))
  | some _ => .error .malformedPermissions

/-- The scalar fields that one entry of a step contributes. -/
def fieldsOf (key : String) (value : Value) : List (String × String) :=
  match key == "with" || key == "env", value with
  | true, .mapping nested =>
      nested.filterMap fun (name, value) => do
        return (key ++ "." ++ (← name.scalar?), ← value.scalar?)
  | _, value => (value.scalar?.map fun text => (key, text)).toList

def scalarFields (entries : Entries) : List (String × String) :=
  entries.flatMap fun (key, value) =>
    match key.scalar? with
    | some key => fieldsOf key value
    | none => []

def readStep (job : String) (index : Nat) (value : Value) : Except DefinitionFault Step :=
  match value with
  | .mapping entries => do
      return {
        index := index
        name := optionalScalar "name" entries
        uses := ← textField "uses" entries
        run := ← textField "run" entries
        fields := scalarFields entries }
  | _ => .error (.stepNotMapping index job)

/-- Reads steps and numbers them from `index`. -/
def readStepsFrom (job : String) (index : Nat) : List Value → Except DefinitionFault (List Step)
  | [] => .ok []
  | value :: rest => do
      let step ← readStep job index value
      return step :: (← readStepsFrom job (index + 1) rest)

def readSteps (job : String) (value : Option Value) : Except DefinitionFault (List Step) :=
  match value with
  | none | some .null => .ok []
  | some (.sequence steps) => readStepsFrom job 0 steps
  | some _ => .error (.stepsNotList job)

/-- The image of a container or service: its `image` entry, or a scalar. -/
def imageOf (value : Value) : Option String :=
  match value with
  | .mapping entries => optionalScalar "image" entries
  | other => other.scalar?

def serviceImages (value : Option Value) : List (String × String) :=
  match value with
  | some (.mapping services) =>
      services.filterMap fun (name, service) => do
        return (← name.scalar?, ← imageOf service)
  | _ => []

def readJob (id : String) (value : Value) : Except DefinitionFault Job :=
  match value with
  | .mapping entries => do
      let steps ← readSteps id (Value.get? "steps" entries)
      let permissions ← readPermissions (Value.get? "permissions" entries)
      let uses ← textField "uses" entries
      return {
        id := id
        name := optionalScalar "name" entries
        permissions := permissions
        uses := uses
        containerImage := (Value.get? "container" entries).bind imageOf
        serviceImages := serviceImages (Value.get? "services" entries)
        keys := keyTexts entries
        steps := steps }
  | _ => .error (.jobNotMapping id)

def readJobs : Entries → Except DefinitionFault (List Job)
  | [] => .ok []
  | (id, value) :: rest => do
      match id.scalar? with
      | none => throw .jobIdNotText
      | some id =>
          let job ← readJob id value
          return job :: (← readJobs rest)

def readTriggers (value : Option Value) : Except DefinitionFault (List String) :=
  match value with
  | none | some .null => .ok []
  | some (.string event) => .ok [event]
  | some (.sequence events) =>
      events.mapM fun event =>
        match event.scalar? with
        | some name => .ok name
        | none => .error .triggerNotText
  | some (.mapping events) => .ok (keyTexts events)
  | some _ => .error .malformedTriggers

def readRoot (source : String) : Except DefinitionFault Entries :=
  match Value.parse source with
  | .error problem => .error (.unreadable problem)
  | .ok (.mapping entries) => .ok entries
  | .ok .null => .error .emptyDocument
  | .ok _ => .error .rootNotMapping

/-- Reads a workflow document. -/
def parsePipeline (path source : String) : Except DefinitionFault Definition := do
  let root ← readRoot source
  let triggers ← readTriggers (Value.get? "on" root)
  let jobs ← match Value.get? "jobs" root with
    | none | some .null => pure []
    | some (.mapping jobs) => readJobs jobs
    | some _ => throw .jobsNotMapping
  let permissions ← readPermissions (Value.get? "permissions" root)
  return {
    path := path
    kind := .pipeline
    name := optionalScalar "name" root
    triggers := triggers
    permissions := permissions
    jobs := jobs }

/-- The id of the job that holds the steps of a bundle. -/
def bundleJob : String := "runs"

/-- The jobs of a bundle: its steps, or one step for the image that it runs. -/
def readBundleJobs (runs : Entries) : Except DefinitionFault (List Job) := do
  match Value.get? "steps" runs with
  | some steps =>
      return [{ id := bundleJob, keys := keyTexts runs,
                steps := ← readSteps bundleJob (some steps) }]
  | none =>
      match optionalScalar "image" runs with
      | none => return []
      | some image =>
          if (Text.dropLead? "docker://".toList image.toList).isNone then return []
          return [{ id := bundleJob, keys := keyTexts runs,
                    steps := [{ index := 0, uses := some image, fields := [("uses", image)] }] }]

/-- Reads a step bundle. -/
def parseBundle (path source : String) : Except DefinitionFault Definition := do
  let root ← readRoot source
  let jobs ← match Value.get? "runs" root with
    | none | some .null => pure []
    | some (.mapping runs) => readBundleJobs runs
    | some _ => throw .runsNotMapping
  return { path := path, kind := .bundle, name := optionalScalar "name" root, jobs := jobs }

/-- Reads a document of the given kind. -/
def parse (kind : DefinitionKind) (path source : String) : Except DefinitionFault Definition :=
  match kind with
  | .pipeline => parsePipeline path source
  | .bundle => parseBundle path source

end Definition

end WorkflowAudit
