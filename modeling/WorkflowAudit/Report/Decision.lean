import WorkflowAudit.Exceptions
import WorkflowAudit.Verification.Verdict

/-!
# The outcome of a run

Exceptions are applied here and nowhere else.  Every violation ends up in
exactly one of three lists, each in the order of the scan: exempted by the
first exception that covers it, remaining if it is an error, or advisory.  Only
remaining violations fail a run.
-/

namespace WorkflowAudit

structure ExemptedViolation where
  violation : Violation
  rationale : String
  deriving DecidableEq, Repr

structure Decision where
  mode : ExecutionMode
  remaining : List Violation := []
  advisories : List Violation := []
  exempted : List ExemptedViolation := []
  deriving DecidableEq, Repr

structure Summary where
  total : Nat
  errors : Nat
  warnings : Nat
  exempted : Nat
  deriving DecidableEq, Repr

namespace Decision

def passes (d : Decision) : Bool := d.remaining.isEmpty

/-- The exit status of the process: 1 where violations remain. -/
def exitCode (d : Decision) : Nat := if d.passes then 0 else 1

def summary (d : Decision) : Summary where
  total := d.remaining.length + d.advisories.length + d.exempted.length
  errors := d.remaining.length
  warnings := d.advisories.length
  exempted := d.exempted.length

end Decision

/-- Applies exceptions and decides a run. -/
def decideRun (violations : List Violation) (exceptions : ExceptionSet) (mode : ExecutionMode) :
    Decision :=
  let uncovered := violations.filter fun v => (exceptions.find? v).isNone
  { mode := mode
    remaining := uncovered.filter Violation.isError
    advisories := uncovered.filter (!·.isError)
    exempted := violations.filterMap fun v =>
      (exceptions.find? v).map fun e => ⟨v, e.rationale⟩ }

end WorkflowAudit
