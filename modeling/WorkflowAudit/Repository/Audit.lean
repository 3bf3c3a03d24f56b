import WorkflowAudit.Report.Basic
import WorkflowAudit.Repository.Configuration
import WorkflowAudit.Scan.Scanner

/-!
# Auditing a repository

An audit reads everything before it scans anything: policy, exceptions,
directories, workflows, bundles.  The first fault ends it without a report.  One
scanner then goes through the workflows and the bundles, and the exceptions decide
the run.
-/

namespace WorkflowAudit

/-- What an audit was reading when it met a fault. -/
inductive AuditStage where
  | policy
  | exceptions
  /-- The directories below a root. -/
  | discovery (root : String)
  | definitions
  deriving DecidableEq, Repr

structure AuditFailure where
  stage : AuditStage
  fault : Fault
  deriving DecidableEq, Repr

/-- What stands before the message of a fault. -/
def AuditStage.lead : AuditStage → String
  | .policy => "loading policy: "
  | .exceptions => "loading exceptions: "
  | .discovery root => s!"discovering definitions in {root}: "
  | .definitions => ""

def AuditFailure.message (failure : AuditFailure) : String :=
  failure.stage.lead ++ failure.fault.message

/-- Everything that an audit has read. -/
structure AuditInput where
  policy : Policy
  exceptions : ExceptionSet
  pipelines : List Definition
  bundles : List Definition
  deriving DecidableEq, Repr

namespace AuditInput

/-- Reads a repository in the order in which faults are reported. -/
def read (view : FileView) (root : String) (policyPath exceptionsPath : Option String) :
    Except AuditFailure AuditInput := do
  let policy ← (resolvePolicy view root policyPath).mapError (AuditFailure.mk .policy)
  let exceptions ←
    (resolveExceptions view root exceptionsPath).mapError (AuditFailure.mk .exceptions)
  let found ← (discover view root).mapError (AuditFailure.mk (.discovery root))
  let load := fun (kind : DefinitionKind) (files : List FoundFile) =>
    (loadDefinitions kind root files).mapError (AuditFailure.mk .definitions)
  let pipelines ← load .pipeline found.pipelines
  let bundles ← load .bundle found.bundles
  return ⟨policy, exceptions, pipelines, bundles⟩

/-- All violations, those of workflows first. -/
def violations {σ : Type} (input : AuditInput) (engine : Pattern.Engine)
    (verifier : ReferenceVerifier σ) (state : σ) : List Violation :=
  let scanner := Scanner.start engine input.policy state
  let (ofPipelines, scanner) := scanner.scan verifier input.pipelines
  ofPipelines ++ (scanner.scan verifier input.bundles).1

/-- Scans what was read, and reports it. -/
def report {σ : Type} (input : AuditInput) (engine : Pattern.Engine)
    (verifier : ReferenceVerifier σ) (mode : ExecutionMode) (state : σ) : ScanReport where
  decision := decideRun (input.violations engine verifier state) input.exceptions mode
  definitions := input.pipelines.length + input.bundles.length

end AuditInput

end WorkflowAudit
