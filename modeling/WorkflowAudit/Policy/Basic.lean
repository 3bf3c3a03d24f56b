import WorkflowAudit.Violation.Basic

/-!
# Policies

A policy is a list of rules, evaluated in order.  A rule is pure data: how
strictly it is enforced, and a check with the parameters of its category.
-/

namespace WorkflowAudit

/-- Whether a rule can fail a run.  Advisory rules only report. -/
inductive Enforcement where
  | enforced
  | advisory
  deriving DecidableEq, Repr

namespace Enforcement

def name : Enforcement → String
  | .enforced => "enforced"
  | .advisory => "advisory"

def ofName? (name : String) : Option Enforcement :=
  [Enforcement.enforced, .advisory].find? (·.name == name)

def severity : Enforcement → Severity
  | .enforced => .error
  | .advisory => .warning

end Enforcement

/-- A documented exception of a forbidden pattern. -/
structure AllowedMatch where
  /-- A pattern that has to match the whole of a match. -/
  pattern : String
  rationale : String
  deriving DecidableEq, Repr

/-- A forbidden pattern. -/
structure PatternSpec where
  id : String
  pattern : String
  message : Option String := none
  allow : List AllowedMatch := []
  deriving DecidableEq, Repr

/-- What a rule checks. -/
inductive Check where
  /-- Declared permissions, and a repository that every first step must use. -/
  | permissions (topLevel jobLevel : Bool) (hardeningStep : Option String)
  /-- References pinned to commit ids, which `verify` has looked up. -/
  | shaPinning (verify : Bool)
  /-- Remote references that match one of the globs. -/
  | allowlist (allowed : List String)
  | unsafePattern (patterns : List PatternSpec)
  /-- The length and content of inline scripts. -/
  | inlineScript (maxLines : Option Nat) (patterns : List PatternSpec)
  /-- Triggers that need an allowed path or a safeguard among the keys of a job. -/
  | highRiskTrigger (triggers allowed safeguards : List String)
  /-- Paths that artifact steps must upload, in the definitions it applies to. -/
  | artifactPolicy (requiredPaths artifactActions appliesTo : List String)
  | dockerPinning
  deriving DecidableEq, Repr

def Check.category : Check → Category
  | .permissions .. => .permissions
  | .shaPinning _ => .shaPinning
  | .allowlist _ => .allowlist
  | .unsafePattern _ => .unsafePattern
  | .inlineScript .. => .inlineScript
  | .highRiskTrigger .. => .highRiskTrigger
  | .artifactPolicy .. => .artifactPolicy
  | .dockerPinning => .dockerPinning

structure Rule where
  id : String
  mode : Enforcement := .enforced
  description : Option String := none
  check : Check
  deriving DecidableEq, Repr

namespace Rule

def category (rule : Rule) : Category := rule.check.category

def severity (rule : Rule) : Severity := rule.mode.severity

/-- A finding of the rule. -/
def violation (rule : Rule) (code message : String) (location : Location) : Violation :=
  Violation.make rule.id rule.category code rule.severity message location

end Rule

structure Policy where
  rules : List Rule := []
  /-- Where the policy comes from. -/
  source : String := ""
  deriving DecidableEq, Repr

end WorkflowAudit
