import WorkflowAudit.Scan.References
import WorkflowAudit.Text.Pieces

/-!
# Checks of whole workflows

These checks look at what a document declares: permissions, first steps, risky
triggers and uploaded artifacts.
-/

namespace WorkflowAudit

open Text

/-- Permissions that a workflow does not declare.  Bundles declare none. -/
def declarationFindings (rule : Rule) (topLevel jobLevel : Bool) (d : Definition) :
    List Violation :=
  if d.isBundle then []
  else
    let ofFile := if topLevel && d.permissions.isNone then
      [rule.violation "missing_top_level_permissions"
        "workflow does not declare top-level permissions" (Location.file d.path)] else []
    let undeclared := if jobLevel then d.jobs.filter fun job => job.permissions.isNone else []
    ofFile ++ undeclared.map fun job =>
      rule.violation "missing_job_permissions" s!"job '{job.id}' does not declare permissions"
        (Location.inJob d.path job.id)

/-- Whether a step uses a repository, up to the case of ASCII letters. -/
def Step.usesRepository (step : Step) (repository : String) : Bool :=
  match step.uses.map StepReference.parse with
  | some (.ok (.remote remote)) => equalIgnoringCase remote.slug repository
  | _ => false

/-- Jobs whose first step does not use the required repository. -/
def hardeningFindings (rule : Rule) (required : String) (d : Definition) : List Violation :=
  d.jobs.filterMap fun job =>
    match job.steps with
    | [] => none
    | first :: _ =>
        if first.usesRepository required then none
        else some (rule.violation "hardening_step_not_first"
          s!"first step of job '{job.id}' is not {required}"
          (Location.atStep d.path job.id first.index))

def permissionFindings (rule : Rule) (topLevel jobLevel : Bool) (hardeningStep : Option String)
    (d : Definition) : List Violation :=
  declarationFindings rule topLevel jobLevel d ++
    match hardeningStep with
    | none => []
    | some required => hardeningFindings rule required d

/-- Jobs without a safeguard in a workflow that runs on risky triggers and whose
path is not allowed. -/
def triggerFindings (rule : Rule) (triggers safeguards : List String) (globs : Option GlobSet)
    (d : Definition) : List Violation :=
  let risky := d.triggers.filter fun trigger => triggers.contains trigger
  if risky.isEmpty || globs.any (·.isMatch d.path) then []
  else
    let events := ", ".intercalate risky
    let unguarded := d.jobs.filter fun job => !safeguards.any fun key => job.hasKey key
    unguarded.map fun job =>
      rule.violation "high_risk_trigger_unguarded"
        s!"job '{job.id}' runs on {events} without a safeguard"
        (Location.inJob d.path job.id)

/-- Whether a step uses one of some actions, up to the case of ASCII letters. -/
def Step.usesAction (step : Step) (actions : List String) : Bool :=
  match step.uses.map StepReference.parse with
  | some (.ok (.remote remote)) =>
      actions.any fun action => equalIgnoringCase action remote.path
  | _ => false

/-- A path without blanks around it, without `./` at its start and without
slashes at its end. -/
def normalArtifactPath (path : List Char) : List Char :=
  trimEndWith (· == '/') (dropLead ['.', '/'] (trim path))

/-- The paths that a step uploads, one on each line of its `path` input. -/
def Step.uploadedPaths (step : Step) : List (List Char) :=
  match step.field? "with.path" with
  | none => []
  | some text => ((lines text.toList).map normalArtifactPath).filter (!·.isEmpty)

/-- Required paths that no artifact step uploads.  Without globs the check applies
to definitions that have such a step. -/
def artifactFindings (rule : Rule) (requiredPaths artifactActions : List String)
    (globs : Option GlobSet) (d : Definition) : List Violation :=
  let producers := (d.steps.map Prod.snd).filter fun step => step.usesAction artifactActions
  let applies := match globs with
    | some globs => globs.isMatch d.path
    | none => !producers.isEmpty
  let uploaded := producers.flatMap Step.uploadedPaths
  if !applies then []
  else
    let missing := requiredPaths.filter fun path =>
      !uploaded.contains (normalArtifactPath path.toList)
    missing.map fun path =>
      rule.violation "artifact_path_missing"
        s!"required artifact path '{path}' is never uploaded" (Location.file d.path)

end WorkflowAudit
