import WorkflowAudit.Definition.Basic
import WorkflowAudit.Policy.Basic
import WorkflowAudit.Reference
import WorkflowAudit.Scan.Preparation

/-!
# References of a definition

The references are what jobs and steps use, in document order: first what a job
uses, then what its steps use.  This module holds the checks of references and
images that need no network.
-/

namespace WorkflowAudit

open Text

/-- What one job uses, itself and in its steps, with locations. -/
def Job.references (path : String) (job : Job) : List (Location × String) :=
  (job.uses.toList.map fun uses => (Location.inJob path job.id, uses)) ++
    job.steps.filterMap fun step =>
      step.uses.map fun uses => (Location.atStep path job.id step.index, uses)

/-- Everything that a definition uses. -/
def Definition.references (d : Definition) : List (Location × String) :=
  d.jobs.flatMap (Job.references d.path)

/-- Remote references have to name a repository that one of the globs matches. -/
def allowlistFinding (rule : Rule) (globs : Option GlobSet) (location : Location) (uses : String) :
    Option Violation :=
  match StepReference.parse uses with
  | .ok (.remote remote) =>
      if globs.any (·.isMatch remote.slug) then none
      else some (rule.violation "action_not_allowlisted"
        s!"'{remote.slug}' is not in the allow-list" location)
  | _ => none

def allowlistFindings (rule : Rule) (globs : Option GlobSet) (d : Definition) : List Violation :=
  d.references.filterMap fun (location, uses) => allowlistFinding rule globs location uses

/-- The images that a job runs in or beside, with the words for their roles. -/
def Job.images (job : Job) : List (String × String) :=
  (job.containerImage.toList.map fun image => ("container", image)) ++
    job.serviceImages.map fun (name, image) => (s!"service '{name}'", image)

/-- An image without its scheme. -/
def imageText (image : String) : String :=
  String.ofList (dropLead imageScheme image.toList)

/-- Whether an image holds an expression, which is resolved at run time. -/
def holdsExpression (image : String) : Bool := occursIn "$\x7b\x7b".toList image.toList

def isPinnedImage (image : String) : Bool :=
  match ImageReference.parse image with
  | .ok image => image.isPinned
  | .error _ => false

def imageFinding (rule : Rule) (location : Location) (role image : String) : Option Violation :=
  if holdsExpression image || isPinnedImage (imageText image) then none
  else some (rule.violation "image_not_pinned"
    s!"{role} image '{imageText image}' is not pinned by sha256 digest" location)

/-- Images of containers and services have to be pinned by digest. -/
def dockerFindings (rule : Rule) (d : Definition) : List Violation :=
  d.jobs.flatMap fun job => job.images.filterMap fun (role, image) =>
    imageFinding rule (Location.inJob d.path job.id) role image

end WorkflowAudit
