/-!
# Workflows and step bundles

A definition is one analysed document: a workflow with its triggers and jobs,
or a step bundle whose steps form a single job.  Everything keeps the order of
the document, so that findings come out in that order.
-/

namespace WorkflowAudit

inductive DefinitionKind where
  | pipeline
  | bundle
  deriving DecidableEq, Repr

def DefinitionKind.name : DefinitionKind → String
  | .pipeline => "pipeline"
  | .bundle => "bundle"

/-- A declared set of token permissions.  A declaration without scopes still
counts as one. -/
inductive Permissions where
  | blanket (access : String)
  | scopes (entries : List (String × String))
  deriving DecidableEq, Repr

structure Step where
  /-- The position in the job, counted from zero. -/
  index : Nat
  name : Option String := none
  uses : Option String := none
  run : Option String := none
  /-- The scalar fields, those of `with` and `env` under dotted names. -/
  fields : List (String × String) := []
  deriving DecidableEq, Repr

/-- The first scalar field of that name. -/
def Step.field? (step : Step) (name : String) : Option String := step.fields.lookup name

structure Job where
  id : String
  name : Option String := none
  permissions : Option Permissions := none
  /-- The called workflow. -/
  uses : Option String := none
  containerImage : Option String := none
  serviceImages : List (String × String) := []
  /-- Every key that the job declares. -/
  keys : List String := []
  steps : List Step := []
  deriving DecidableEq, Repr

def Job.hasKey (job : Job) (key : String) : Bool := job.keys.contains key

structure Definition where
  path : String
  kind : DefinitionKind
  name : Option String := none
  /-- The names of the events, in document order. -/
  triggers : List String := []
  permissions : Option Permissions := none
  jobs : List Job := []
  deriving DecidableEq, Repr

def Definition.isBundle (d : Definition) : Bool := d.kind == .bundle

/-- Every step with its job, in document order. -/
def Definition.steps (d : Definition) : List (Job × Step) :=
  d.jobs.flatMap fun job => job.steps.map (job, ·)

end WorkflowAudit
