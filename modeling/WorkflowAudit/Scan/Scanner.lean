import WorkflowAudit.Scan.Content
import WorkflowAudit.Scan.References
import WorkflowAudit.Scan.Workflow
import WorkflowAudit.Verification.Verdict

/-!
# The scanner

A scanner applies every rule of one policy to every definition: definitions in
order, and for each of them the rules in the order of the policy.  It compiles
the policy once, and it asks the verifier once for each reference and commit.
A scan never fails; whatever is wrong becomes a violation.
-/

namespace WorkflowAudit

open Text

/-- Answers whether a reference has the commit that it claims.  The state is
whatever the answers depend on. -/
abbrev ReferenceVerifier (σ : Type) := (reference claimed : String) → σ → Verdict × σ

/-- The answers of a verifier so far, and its state. -/
structure Inquiry (σ : Type) where
  /-- Verdicts by reference and lower-case commit. -/
  verdicts : List (String × Verdict) := []
  state : σ

namespace Inquiry

variable {σ : Type}

/-- What the answers for a reference and a commit are kept under. -/
def memoKey (reference claimed : String) : String :=
  reference ++ "@" ++ lowerAsciiString claimed

/-- Asks the verifier unless it has answered for the same reference and commit. -/
def verify (verifier : ReferenceVerifier σ) (reference claimed : String)
    (inquiry : Inquiry σ) : Verdict × Inquiry σ :=
  match inquiry.verdicts.lookup (memoKey reference claimed) with
  | some verdict => (verdict, inquiry)
  | none =>
      let (verdict, state) := verifier reference claimed inquiry.state
      (verdict, { verdicts := inquiry.verdicts ++ [(memoKey reference claimed, verdict)], state })

/-- Looks at items one after the other; the findings come out in the same order. -/
def collect {α : Type} (look : α → Inquiry σ → List Violation × Inquiry σ) :
    List α → Inquiry σ → List Violation × Inquiry σ
  | [], inquiry => ([], inquiry)
  | item :: rest, inquiry =>
      let (first, inquiry) := look item inquiry
      let (others, inquiry) := collect look rest inquiry
      (first ++ others, inquiry)

end Inquiry

/-- What a reference needs in order to be judged: nothing more, or the verdict on
a pinned remote reference. -/
inductive PinningStatus where
  | settled (finding : Option Violation)
  | pinned (remote : RemoteReference)

/-- References have to be pinned: images by digest, remote ones by commit. -/
def pinningStatus (rule : Rule) (location : Location) (uses : String) : PinningStatus :=
  match StepReference.parse uses with
  | .error e => .settled (some (rule.violation "invalid_reference" e.message location))
  | .ok (.inside _) => .settled none
  | .ok (.image image) =>
      .settled (if image.isPinned then none
        else some (rule.violation "image_not_pinned"
          s!"image '{image.display}' is not pinned by sha256 digest" location))
  | .ok (.remote remote) =>
      if remote.isPinned then .pinned remote
      else .settled (some (rule.violation "ref_not_pinned"
        s!"'{remote.display}' is not pinned to a full commit SHA" location))

/-- What a verdict on a pinned reference is reported as. -/
def verdictFinding (rule : Rule) (location : Location) (remote : RemoteReference)
    (verdict : Verdict) : Option Violation :=
  match verdict.ok, verdict.kind with
  | false, some kind => some (rule.violation kind.name
      s!"'{remote.display}' failed verification: {kind.name}" location)
  | _, _ => none

section

variable {σ : Type}

/-- Judges one reference.  The verifier is asked about pinned remote ones only. -/
def pinningFinding (verifier : ReferenceVerifier σ) (rule : Rule) (verify : Bool)
    (location : Location) (uses : String) (inquiry : Inquiry σ) :
    Option Violation × Inquiry σ :=
  match pinningStatus rule location uses with
  | .settled finding => (finding, inquiry)
  | .pinned remote =>
      if verify then
        let (verdict, inquiry) := inquiry.verify verifier remote.path remote.gitRef
        (verdictFinding rule location remote verdict, inquiry)
      else (none, inquiry)

/-- Judges references one after the other. -/
def pinningFindings (verifier : ReferenceVerifier σ) (rule : Rule) (verify : Bool) :
    List (Location × String) → Inquiry σ → List Violation × Inquiry σ :=
  Inquiry.collect fun (location, uses) inquiry =>
    let (finding, inquiry) := pinningFinding verifier rule verify location uses inquiry
    (finding.toList, inquiry)

/-- The findings of a check that needs no verifier. -/
def staticFindings (prepared : PreparedPolicy) (rule : Rule) (d : Definition) :
    List Violation :=
  let library := prepared.patterns
  let globs := prepared.globs.ofRule? rule
  match rule.check with
  | .permissions topLevel jobLevel hardeningStep =>
      permissionFindings rule topLevel jobLevel hardeningStep d
  | .shaPinning _ => []
  | .allowlist _ => allowlistFindings rule globs d
  | .unsafePattern patterns => patternFindings rule library patterns d
  | .inlineScript maxLines patterns => scriptFindings rule library maxLines patterns d
  | .highRiskTrigger triggers _ safeguards => triggerFindings rule triggers safeguards globs d
  | .artifactPolicy requiredPaths artifactActions _ =>
      artifactFindings rule requiredPaths artifactActions globs d
  | .dockerPinning => dockerFindings rule d

/-- Applies one rule to one definition. -/
def applyRule (verifier : ReferenceVerifier σ) (prepared : PreparedPolicy) (rule : Rule)
    (d : Definition) (inquiry : Inquiry σ) : List Violation × Inquiry σ :=
  match rule.check with
  | .shaPinning verify => pinningFindings verifier rule verify d.references inquiry
  | _ => (staticFindings prepared rule d, inquiry)

/-- Applies rules to one definition, in order. -/
def applyRules (verifier : ReferenceVerifier σ) (prepared : PreparedPolicy)
    (d : Definition) : List Rule → Inquiry σ → List Violation × Inquiry σ :=
  Inquiry.collect fun rule => applyRule verifier prepared rule d

/-- Scans definitions, in order. -/
def scanDefinitions (verifier : ReferenceVerifier σ) (policy : PreparedPolicy) :
    List Definition → Inquiry σ → List Violation × Inquiry σ :=
  Inquiry.collect fun d => applyRules verifier policy d policy.rules

/-- A scanner of one policy.  Problems of the policy are reported by the first
scan. -/
structure Scanner (σ : Type) where
  policy : PreparedPolicy
  unreported : List Violation
  inquiry : Inquiry σ

namespace Scanner

def start (engine : Pattern.Engine) (policy : Policy) (state : σ) : Scanner σ :=
  let prepared := policy.prepare engine
  { policy := prepared, unreported := policy.problems prepared.patterns, inquiry := { state } }

def scan (verifier : ReferenceVerifier σ) (definitions : List Definition) (scanner : Scanner σ) :
    List Violation × Scanner σ :=
  let (findings, inquiry) := scanDefinitions verifier scanner.policy definitions scanner.inquiry
  (scanner.unreported ++ findings, { scanner with unreported := [], inquiry })

end Scanner

end

end WorkflowAudit
