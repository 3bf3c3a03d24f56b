import WorkflowAudit.CommandLine.Command
import WorkflowAudit.Repository.Audit
import WorkflowAudit.Verification.Ladder

/-!
# What the tool answers

A command answers with output, an exit status, perhaps a file to write, and a
fatal message where it could not do its work.  The exit status is 0 for success,
1 for findings, and 2 where nothing could be decided.
-/

namespace WorkflowAudit.CommandLine

structure Response where
  output : String := ""
  exitCode : Nat := 0
  /-- A file that is still to be written, with its text. -/
  pendingFile : Option (String × String) := none
  fatal : Option String := none
  deriving DecidableEq, Repr

def failureCode : Nat := 2

namespace Response

def failed (message : String) : Response := { exitCode := failureCode, fatal := some message }

/-- The response once its file could not be written. -/
def writeFailed (response : Response) (path detail : String) : Response :=
  let fault := Fault.file path detail
  { response with
    exitCode := failureCode
    pendingFile := none
    fatal := some s!"writing report to {path}: {fault.message}" }

end Response

/-- The lines of a report, each ended by a line feed. -/
def reportLines (report : ScanReport) : List String :=
  let decision := report.decision
  let summary := decision.summary
  let listed := (decision.remaining ++ decision.advisories).map Violation.summaryLine
  let exempted := decision.exempted.map fun e =>
    s!"[exempted] {e.violation.summaryLine} ({e.rationale})"
  let kinds := s!"{summary.errors} errors, {summary.warnings} warnings, {summary.exempted} exempted"
  s!"pipeguard check: {report.definitions} definition(s), mode {decision.mode.name}" ::
    listed ++ exempted ++
    ["", s!"Summary: {summary.total} total ({kinds})", if decision.passes then "PASS" else "FAIL"]

def reportText (report : ScanReport) : String :=
  String.join ((reportLines report).map (· ++ "\n"))

def renderReport (format : OutputFormat) (report : ScanReport) : String :=
  match format with
  | .text => reportText report
  | .json => report.text

section

variable {σ : Type} (engine : Pattern.Engine) (connect : Connector σ) (state : σ)

/-- A verifier as the options and the environment set it up. -/
def verifierOf (transport : Transport σ) (options : VerifyOptions) (env : Environment) :
    Verifier σ where
  settings := options.settings env
  mode := options.executionMode env
  transport := transport

/-- What a command says that could not build access to the lookup service. -/
def clientFailure (detail : String) : String :=
  "failed to build HTTP client: configuration error: failed to create HTTP client: " ++ detail

def runCheck (view : FileView) (env : Environment) (options : CheckOptions) : Response :=
  match AuditInput.read view options.root options.policy options.exceptions with
  | .error failure => .failed failure.message
  | .ok input =>
      match connect (options.verify.settings env) with
      | .error detail => .failed (clientFailure detail)
      | .ok transport =>
          let verifier := verifierOf transport options.verify env
          let report := input.report engine verifier.verify verifier.mode (Run.fresh state)
          { output := renderReport options.format report
            exitCode := report.decision.exitCode
            pendingFile := options.report.map fun path => (path, report.text) }

def runVerify (env : Environment) (reference sha : String) (options : VerifyOptions) : Response :=
  match connect (options.settings env) with
  | .error detail => .failed (clientFailure detail)
  | .ok transport =>
      let verifier := verifierOf transport options env
      let verdict := (verifier.verify reference sha (Run.fresh state)).1
      let answer := Json.obj [("reference", .str reference), ("sha", .str sha),
        ("mode", .str verifier.mode.name), ("ok", .bool verdict.ok),
        ("error", Json.ofOption (verdict.kind.map fun kind => .str kind.name))]
      { output := answer.sortKeys.pretty ++ "\n", exitCode := if verdict.ok then 0 else 1 }

def Command.run (view : FileView) (env : Environment) : Command → Response
  | .check options => runCheck engine connect state view env options
  | .verify reference sha options => runVerify connect state env reference sha options
  | .version => { output := toolVersion ++ "\n" }

def usageText : String :=
  "Usage: pipeguard [-v] <check [OPTIONS] | verify REFERENCE SHA [OPTIONS] | version>\n"

/-- Answers the arguments of a process.  Refused arguments give no output. -/
def respond (view : FileView) (env : Environment) (arguments : List String) : Response :=
  match Command.parse env arguments with
  | .ok command => command.run engine connect state view env
  | .error (.early .help) => { output := usageText }
  | .error (.early .version) => { output := s!"pipeguard {toolVersion}\n" }
  | .error (.usage _) => { exitCode := failureCode }

end

/-- The paths that a command can ask for. -/
def Command.paths : Command → List String
  | .check options =>
      options.policy.toList ++ options.exceptions.toList ++
        ([workflowDirectory, actionDirectory] ++ bundleNames ++ policyCandidates ++
          exceptionCandidates).map (joinPath options.root)
  | .verify .. | .version => []

end WorkflowAudit.CommandLine
