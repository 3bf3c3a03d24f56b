import WorkflowAudit.Json.Record
import WorkflowAudit.Verification.Settings
import WorkflowAudit.Violation.Basic

/-!
# Violations, verdicts and settings as JSON

Absent jobs and steps are left out of a location; every other field is always
written.  Readers accept what the writers produce, ignore unknown entries, and
fill in defaults.
-/

namespace WorkflowAudit

open Json

def Location.toJson (location : Location) : Json :=
  .obj ([("path", .str location.path)] ++
    (location.job.toList.map fun job => ("job", Json.str job)) ++
    (location.step.toList.map fun step => ("step", Json.ofNat step)))

def Location.ofJson? (value : Json) : Option Location := do
  match ← value.fields? [("path", .required), ("job", .defaulted), ("step", .defaulted)] with
  | [some path, job, step] =>
      return ⟨← path.string?, ← optional? string? job, ← optional? word64? step⟩
  | _ => none

/-- The entries of a violation's object. -/
def Violation.entries (v : Violation) : List (String × Json) :=
  [("rule_id", .str v.ruleId), ("category", .str v.category.name), ("code", .str v.code),
    ("message", .str v.message), ("severity", .str v.severity.name),
    ("location", v.location.toJson), ("fingerprint", .str v.fingerprint)]

def Violation.toJson (v : Violation) : Json := .obj v.entries

def Violation.ofJson? (value : Json) : Option Violation := do
  match ← value.fields? [("rule_id", .required), ("category", .required), ("code", .required),
      ("message", .required), ("severity", .required), ("location", .required),
      ("fingerprint", .required)] with
  | [some ruleId, some category, some code, some message, some severity, some location,
      some fingerprint] =>
      return {
        ruleId := ← ruleId.string?
        category := ← named? Category.ofName? category
        code := ← code.string?
        message := ← message.string?
        severity := ← named? Severity.ofName? severity
        location := ← Location.ofJson? location
        fingerprint := ← fingerprint.string? }
  | _ => none

def Verdict.toJson (verdict : Verdict) : Json :=
  .obj [("ok", .bool verdict.ok), ("error", ofOption (verdict.kind.map fun kind => .str kind.name))]

def Verdict.ofJson? (value : Json) : Option Verdict := do
  match ← value.fields? [("ok", .required), ("error", .nullable)] with
  | [some ok, kind] => return ⟨← ok.bool?, ← optional? (named? FindingKind.ofName?) kind⟩
  | _ => none

def VerifierSettings.toJson (settings : VerifierSettings) : Json :=
  .obj [("api_url", .str settings.apiUrl), ("token", ofOption (settings.token.map .str)),
    ("enabled", .bool settings.enabled), ("timeout_secs", ofNat settings.timeoutSeconds)]

def VerifierSettings.ofJson? (value : Json) : Option VerifierSettings := do
  let standard : VerifierSettings := {}
  match ← value.fields? [("api_url", .defaulted), ("token", .defaulted), ("enabled", .defaulted),
      ("timeout_secs", .defaulted)] with
  | [apiUrl, token, enabled, timeout] =>
      return {
        apiUrl := ← orElse? string? standard.apiUrl apiUrl
        token := ← optional? string? token
        enabled := ← orElse? bool? standard.enabled enabled
        timeoutSeconds := ← orElse? word64? standard.timeoutSeconds timeout }
  | _ => none

end WorkflowAudit
