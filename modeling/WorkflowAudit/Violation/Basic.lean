import WorkflowAudit.Digest.Sha256

/-!
# Violations

A violation says which rule found what, where, and how severe it is.  Its
fingerprint is a hash of rule, code and location alone, so it survives changes
of wording.
-/

namespace WorkflowAudit

/-- Enforced rules produce errors, advisory rules warnings. -/
inductive Severity where
  | error
  | warning
  deriving DecidableEq, Repr

def Severity.name : Severity → String
  | .error => "error"
  | .warning => "warning"

def Severity.ofName? (name : String) : Option Severity :=
  [Severity.error, .warning].find? (·.name == name)

/-- The kinds of checks a rule can make. -/
inductive Category where
  | permissions
  | shaPinning
  | allowlist
  | unsafePattern
  | inlineScript
  | highRiskTrigger
  | artifactPolicy
  | dockerPinning
  deriving DecidableEq, Repr

namespace Category

def name : Category → String
  | .permissions => "permissions"
  | .shaPinning => "sha_pinning"
  | .allowlist => "allowlist"
  | .unsafePattern => "unsafe_pattern"
  | .inlineScript => "inline_script"
  | .highRiskTrigger => "high_risk_trigger"
  | .artifactPolicy => "artifact_policy"
  | .dockerPinning => "docker_pinning"

def all : List Category :=
  [.permissions, .shaPinning, .allowlist, .unsafePattern, .inlineScript, .highRiskTrigger,
    .artifactPolicy, .dockerPinning]

def ofName? (name : String) : Option Category := all.find? (·.name == name)

end Category

/-- Where a violation was found.  Steps are counted from zero. -/
structure Location where
  path : String
  job : Option String := none
  step : Option Nat := none
  deriving DecidableEq, Repr

namespace Location

def file (path : String) : Location := { path := path }

def inJob (path job : String) : Location := { path := path, job := some job }

def atStep (path job : String) (step : Nat) : Location := ⟨path, some job, some step⟩

/-- The location as it enters a fingerprint. -/
def key (location : Location) : String :=
  let job := location.job.getD "-"
  let step := (location.step.map toString).getD "-"
  s!"{location.path}:{job}:{step}"

/-- The location as reports show it; a step is shown only within a job. -/
def display (location : Location) : String :=
  match location.job, location.step with
  | none, _ => location.path
  | some job, none => s!"{location.path} [job {job}]"
  | some job, some step => s!"{location.path} [job {job}, step {step}]"

end Location

structure Violation where
  ruleId : String
  category : Category
  /-- A stable name of the finding. -/
  code : String
  message : String
  severity : Severity
  location : Location
  fingerprint : String
  deriving DecidableEq, Repr

namespace Violation

/-- The text that a fingerprint hashes. -/
def fingerprintText (ruleId code : String) (location : Location) : String :=
  s!"{ruleId}:{code}:{location.key}"

def fingerprintOf (ruleId code : String) (location : Location) : String :=
  "sha256:" ++ Sha256.hexOfString (fingerprintText ruleId code location)

/-- Builds a violation and computes its fingerprint. -/
def make (ruleId : String) (category : Category) (code : String) (severity : Severity)
    (message : String) (location : Location) : Violation where
  ruleId := ruleId
  category := category
  code := code
  message := message
  severity := severity
  location := location
  fingerprint := fingerprintOf ruleId code location

def isError (v : Violation) : Bool := v.severity == .error

/-- The line that stands for a violation in the text report. -/
def summaryLine (v : Violation) : String :=
  s!"[{v.severity.name}] {v.code} {v.location.display}: {v.message} (rule {v.ruleId})"

end Violation

end WorkflowAudit
