import WorkflowAudit.Report.Decision
import WorkflowAudit.Verification.Settings
import WorkflowAudit.Violation.Encoding

/-!
# Reports

A run is reported as JSON with sorted keys, so that equal runs have equal
reports, or as lines of text.
-/

namespace WorkflowAudit

/-- The version of the report's layout. -/
def reportLayout : String := "1.1.0"

def Summary.toJson (s : Summary) : Json :=
  .obj [("total", Json.ofNat s.total), ("errors", Json.ofNat s.errors),
    ("warnings", Json.ofNat s.warnings), ("exempted", Json.ofNat s.exempted)]

/-- The fields of the violation and the rationale in one object. -/
def ExemptedViolation.toJson (e : ExemptedViolation) : Json :=
  .obj (e.violation.entries ++ [("rationale", .str e.rationale)])

namespace Decision

/-- The three lists of violations. -/
def listEntries (d : Decision) : List (String × Json) :=
  [("remaining", .arr (d.remaining.map Violation.toJson)),
    ("advisories", .arr (d.advisories.map Violation.toJson)),
    ("exempted", .arr (d.exempted.map ExemptedViolation.toJson))]

def toJson (d : Decision) : Json :=
  .obj ([("exit_ok", .bool d.passes), ("mode", .str d.mode.name)] ++ d.listEntries)

end Decision

/-- The report of a run over a number of definitions. -/
structure ScanReport where
  decision : Decision
  definitions : Nat
  deriving DecidableEq, Repr

namespace ScanReport

def toJson (r : ScanReport) : Json :=
  .obj ([("schema_version", .str reportLayout), ("tool_version", .str toolVersion),
    ("mode", .str r.decision.mode.name), ("exit_ok", .bool r.decision.passes),
    ("exit_code", Json.ofNat r.decision.exitCode), ("definitions", Json.ofNat r.definitions),
    ("summary", r.decision.summary.toJson)] ++ r.decision.listEntries)

/-- The text of the report: sorted keys, and a line feed at the end. -/
def text (r : ScanReport) : String := r.toJson.sortKeys.pretty ++ "\n"

end ScanReport

end WorkflowAudit
