import WorkflowAudit.Policy.Basic
import WorkflowAudit.Text.Blank
import WorkflowAudit.Text.Pieces

/-!
# Valid policies

Rules have distinct ids that are not blank, and every check has the parameters
that it cannot do without.  Patterns and globs are not looked at here: a bad
one becomes a finding of the scan.
-/

namespace WorkflowAudit

open Text

/-- What is wrong with a check. -/
inductive CheckFault where
  | hardeningStepShape
  | blankAllowedEntry
  | noPatterns
  | nothingToCheck
  | zeroMaxLines
  | noTriggers
  | noRequiredPaths
  | noArtifactActions
  | blankPatternId
  | repeatedPatternId (id : String)
  | emptyPattern (id : String)
  | missingRationale (id : String)
  deriving DecidableEq, Repr

def CheckFault.reason : CheckFault → String
  | .hardeningStepShape => "permissions.hardening_step must be 'owner/repo'"
  | .blankAllowedEntry => "allowlist.allowed entries cannot be empty"
  | .noPatterns => "unsafe_pattern.patterns cannot be empty"
  | .nothingToCheck => "inline_script requires max_lines or patterns"
  | .zeroMaxLines => "inline_script.max_lines must be > 0"
  | .noTriggers => "high_risk_trigger.triggers cannot be empty"
  | .noRequiredPaths => "artifact_policy.required_paths cannot be empty"
  | .noArtifactActions => "artifact_policy.artifact_actions cannot be empty"
  | .blankPatternId => "pattern id cannot be empty"
  | .repeatedPatternId id => s!"duplicate pattern id '{id}'"
  | .emptyPattern id => s!"pattern '{id}' is empty"
  | .missingRationale id => s!"allow entry of pattern '{id}' has no rationale"

inductive PolicyFault where
  | emptyRuleId
  | repeatedRuleId (id : String)
  | invalidCheck (rule : String) (fault : CheckFault)
  deriving DecidableEq, Repr

def PolicyFault.message : PolicyFault → String
  | .emptyRuleId => "policy has a rule with an empty id"
  | .repeatedRuleId id => s!"policy has duplicate rule id '{id}'"
  | .invalidCheck rule fault => s!"rule '{rule}' has invalid check: {fault.reason}"

/-- The fault of one pattern among those with the ids `seen`. -/
def PatternSpec.fault? (seen : List String) (spec : PatternSpec) : Option CheckFault :=
  if isBlankString spec.id then some .blankPatternId
  else if seen.contains spec.id then some (.repeatedPatternId spec.id)
  else if spec.pattern.isEmpty then some (.emptyPattern spec.id)
  else if spec.allow.any fun allow => isBlankString allow.rationale then
    some (.missingRationale spec.id)
  else none

/-- The first fault of a list of patterns. -/
def patternFault? (seen : List String) : List PatternSpec → Option CheckFault
  | [] => none
  | spec :: rest =>
      match spec.fault? seen with
      | some fault => some fault
      | none => patternFault? (spec.id :: seen) rest

/-- Whether a text is `owner/repo` with neither part empty. -/
def isOwnerRepo (text : String) : Bool :=
  match splitOn '/' text.toList with
  | [owner, repo] => !owner.isEmpty && !repo.isEmpty
  | _ => false

def Check.fault? : Check → Option CheckFault
  | .permissions _ _ hardeningStep =>
      if hardeningStep.all isOwnerRepo then none else some .hardeningStepShape
  | .shaPinning _ | .dockerPinning => none
  | .allowlist allowed => if allowed.any isBlankString then some .blankAllowedEntry else none
  | .unsafePattern patterns =>
      if patterns.isEmpty then some .noPatterns else patternFault? [] patterns
  | .inlineScript maxLines patterns =>
      if maxLines.isNone && patterns.isEmpty then some .nothingToCheck
      else if maxLines = some 0 then some .zeroMaxLines
      else patternFault? [] patterns
  | .highRiskTrigger triggers _ _ => if triggers.isEmpty then some .noTriggers else none
  | .artifactPolicy requiredPaths artifactActions _ =>
      if requiredPaths.isEmpty then some .noRequiredPaths
      else if artifactActions.isEmpty then some .noArtifactActions
      else none

/-- The first fault of a list of rules that follow rules with the ids `seen`. -/
def ruleFault? (seen : List String) : List Rule → Option PolicyFault
  | [] => none
  | rule :: rest =>
      if isBlankString rule.id then some .emptyRuleId
      else if seen.contains rule.id then some (.repeatedRuleId rule.id)
      else match rule.check.fault? with
        | some fault => some (.invalidCheck rule.id fault)
        | none => ruleFault? (rule.id :: seen) rest

def Policy.fault? (policy : Policy) : Option PolicyFault := ruleFault? [] policy.rules

end WorkflowAudit
