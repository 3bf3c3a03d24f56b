import WorkflowAudit.Reference
import WorkflowAudit.Verification.Settings

/-!
# The verification ladder

A call climbs rungs that may each settle it: local paths, verification turned
off, missing input, a ref that is no full commit id, a reference without
`owner/repo`.  Only what is left reaches the lookup service, after one
reachability probe per run and at most once per repository and commit.  The
service is any state-passing `Transport`, so every answer it could give,
including answers that change over time, is covered.
-/

namespace WorkflowAudit

open Text

/-- Why the lookup service gave no status. -/
inductive TransportFault where
  | timeout
  | network
  | configuration
  | rejected
  deriving DecidableEq, Repr

/-- Access to the lookup service.  The state `σ` is whatever decides its
answers.  Any response at all counts as reachable for the probe. -/
structure Transport (σ : Type) where
  probe : σ → Except TransportFault Unit × σ
  commitStatus : (repo sha : String) → σ → Except TransportFault Nat × σ

/-- A service that no request reaches. -/
def Transport.offline : Transport Unit where
  probe _ := (.error .network, ())
  commitStatus _ _ _ := (.error .network, ())

/-- Builds access to the lookup service from the settings of a verifier.  It can fail,
in the words of the client, before any request is made. -/
abbrev Connector (σ : Type) := VerifierSettings → Except String (Transport σ)

def Connector.offline : Connector Unit := fun _ => .ok .offline

/-- One call of the lookup service. -/
inductive Request where
  | probe
  | lookup (repo sha : String)
  deriving DecidableEq, Repr

def Request.display : Request → String
  | .probe => "probe"
  | .lookup repo sha => repo ++ "@" ++ sha

/-- A request together with what the lookup service answered to it. -/
inductive Exchange where
  | probe (answer : Except TransportFault Unit)
  | lookup (repo sha : String) (answer : Except TransportFault Nat)
  deriving Repr

/-- A normalized repository and a commit id in lower case. -/
structure LookupKey where
  repo : String
  sha : String
  deriving DecidableEq, Repr

/-- The verdict on a key that the service has given an answer to. -/
def Verdict.ofAnswer (mode : ExecutionMode) : Except TransportFault Nat → Verdict
  | .ok status => ofStatus status
  | .error _ => unreachable mode

/-- What the early rungs make of a call. -/
inductive Admission where
  | settled (verdict : Verdict)
  | lookup (key : LookupKey)
  deriving DecidableEq, Repr

/-- The rungs that need no network, in order; each looks at trimmed input. -/
def VerifierSettings.admit (settings : VerifierSettings)
    (reference claimed : String) : Admission :=
  let reference := trimString reference
  let claimed := trimString claimed
  if isLocalReference reference then .settled (.bypass .localAction)
  else if !settings.enabled then .settled (.bypass .verificationDisabled)
  else if reference.isEmpty || claimed.isEmpty then .settled (.bypass .missingActionOrRef)
  else if !isFullSha claimed then .settled (.bypass .notSha)
  else match normalizeRepo reference with
    | .error _ => .settled (.failed .invalidReference)
    | .ok repo => .lookup ⟨repo, lowerAsciiString claimed⟩

/-- The shared state of one run: the outcome of the probe once there is one, the
keys that have a cell in the cache, the verdicts of the cells that hold one, the
requests sent and the answers received so far (oldest first), and the state of
the service. -/
structure Run (σ : Type) where
  reachable : Option Bool := none
  cells : List LookupKey := []
  verdicts : List (LookupKey × Verdict) := []
  requests : List Request := []
  exchanges : List Exchange := []
  service : σ

namespace Run

variable {σ : Type}

def fresh (service : σ) : Run σ where
  service := service

/-- Whether the probe has completed in this run. -/
def probed (run : Run σ) : Bool := run.reachable.isSome

/-- The number of distinct keys in the cache. -/
def cachedEntries (run : Run σ) : Nat := run.cells.length

/-- Gives a key its cell unless it has one. -/
def list (key : LookupKey) (run : Run σ) : Run σ :=
  if key ∈ run.cells then run else { run with cells := run.cells ++ [key] }

/-- Notes a request as sent. -/
def send (request : Request) (run : Run σ) : Run σ :=
  { run with requests := run.requests ++ [request] }

/-- Takes the answer to the probe and keeps it for the whole run. -/
def answerProbe (transport : Transport σ) (run : Run σ) : Bool × Run σ :=
  let (answer, service) := transport.probe run.service
  (answer.toBool, { run with
    reachable := some answer.toBool
    exchanges := run.exchanges ++ [.probe answer]
    service := service })

/-- Takes the answer to the lookup of a key and keeps its verdict for the whole
run.  A failed lookup is kept like any other answer. -/
def answerLookup (transport : Transport σ) (mode : ExecutionMode) (key : LookupKey)
    (run : Run σ) : Verdict × Run σ :=
  let (answer, service) := transport.commitStatus key.repo key.sha run.service
  let verdict := Verdict.ofAnswer mode answer
  (verdict, { run with
    verdicts := run.verdicts ++ [(key, verdict)]
    exchanges := run.exchanges ++ [.lookup key.repo key.sha answer]
    service := service })

/-- Sends the probe unless this run has done so. -/
def ensureProbed (transport : Transport σ) (run : Run σ) : Bool × Run σ :=
  match run.reachable with
  | some reachable => (reachable, run)
  | none => (run.send .probe).answerProbe transport

/-- Looks a key up in its cell, and where that is empty at the service. -/
def ensureLookedUp (transport : Transport σ) (mode : ExecutionMode) (key : LookupKey)
    (run : Run σ) : Verdict × Run σ :=
  let run := run.list key
  match run.verdicts.lookup key with
  | some verdict => (verdict, run)
  | none => (run.send (.lookup key.repo key.sha)).answerLookup transport mode key

end Run

/-- A verifier of remote references. -/
structure Verifier (σ : Type) where
  settings : VerifierSettings
  mode : ExecutionMode
  transport : Transport σ

/-- Verifies a reference against the commit id it claims.  Every outcome is a
verdict; nothing fails. -/
def Verifier.verify {σ : Type} (verifier : Verifier σ) (reference claimed : String)
    (run : Run σ) : Verdict × Run σ :=
  match verifier.settings.admit reference claimed with
  | .settled verdict => (verdict, run)
  | .lookup key =>
      match run.ensureProbed verifier.transport with
      | (true, run) => run.ensureLookedUp verifier.transport verifier.mode key
      | (false, run) => (Verdict.unreachable verifier.mode, run)

/-- Verifies several references one after the other in one run. -/
def Verifier.verifyEach {σ : Type} (verifier : Verifier σ) :
    List (String × String) → Run σ → List Verdict × Run σ
  | [], run => ([], run)
  | (reference, claimed) :: rest, run =>
      let (verdict, run) := verifier.verify reference claimed run
      let (verdicts, run) := verifier.verifyEach rest run
      (verdict :: verdicts, run)

end WorkflowAudit
