import WorkflowAudit.Json.Basic
import WorkflowAudit.Policy.Basic

/-!
# Policies as JSON

Every field is written, with null for an absent value.
-/

namespace WorkflowAudit

def AllowedMatch.toJson (allow : AllowedMatch) : Json :=
  .obj [("pattern", .str allow.pattern), ("rationale", .str allow.rationale)]

def PatternSpec.toJson (spec : PatternSpec) : Json :=
  .obj [("id", .str spec.id), ("pattern", .str spec.pattern),
    ("message", Json.ofOption (spec.message.map .str)),
    ("allow", .arr (spec.allow.map AllowedMatch.toJson))]

/-- The parameters of a check, without the category. -/
def Check.entries : Check → List (String × Json)
  | .permissions topLevel jobLevel hardeningStep =>
      [("top_level", .bool topLevel), ("job_level", .bool jobLevel),
        ("hardening_step", Json.ofOption (hardeningStep.map .str))]
  | .shaPinning verify => [("verify", .bool verify)]
  | .allowlist allowed => [("allowed", Json.strings allowed)]
  | .unsafePattern patterns => [("patterns", .arr (patterns.map PatternSpec.toJson))]
  | .inlineScript maxLines patterns =>
      [("max_lines", Json.ofOption (maxLines.map Json.ofNat)),
        ("patterns", .arr (patterns.map PatternSpec.toJson))]
  | .highRiskTrigger triggers allowed safeguards =>
      [("triggers", Json.strings triggers), ("allowed", Json.strings allowed),
        ("safeguards", Json.strings safeguards)]
  | .artifactPolicy requiredPaths artifactActions appliesTo =>
      [("required_paths", Json.strings requiredPaths),
        ("artifact_actions", Json.strings artifactActions),
        ("applies_to", Json.strings appliesTo)]
  | .dockerPinning => []

def Check.toJson (check : Check) : Json :=
  .obj (("category", .str check.category.name) :: check.entries)

def Rule.toJson (rule : Rule) : Json :=
  .obj [("id", .str rule.id), ("mode", .str rule.mode.name),
    ("description", Json.ofOption (rule.description.map .str)), ("check", rule.check.toJson)]

def Policy.toJson (policy : Policy) : Json :=
  .obj [("rules", .arr (policy.rules.map Rule.toJson))]

end WorkflowAudit
