import WorkflowAudit.Text.Blank
import WorkflowAudit.Text.Ascii

/-!
# Verdicts on pinned references

A verdict says whether a reference may pass and, in most cases, why.  The
names of the kinds are part of the public contract, and so is the mapping of
answer statuses to verdicts, which lives here and nowhere else.
-/

namespace WorkflowAudit

open Text

/-- Strict runs fail closed when the lookup service cannot be reached;
tolerant runs skip the verification instead. -/
inductive ExecutionMode where
  | strict
  | tolerant
  deriving DecidableEq, Repr

namespace ExecutionMode

def name : ExecutionMode → String
  | .strict => "strict"
  | .tolerant => "tolerant"

def all : List ExecutionMode := [.strict, .tolerant]

def ofName? (name : String) : Option ExecutionMode := all.find? (·.name == name)

/-- Reads a mode; surrounding blanks and the case of ASCII letters are ignored. -/
def parse? (value : String) : Option ExecutionMode :=
  ofName? (lowerAsciiString (trimString value))

def isStrict : ExecutionMode → Bool
  | .strict => true
  | .tolerant => false

end ExecutionMode

/-- Why a verification was skipped or failed. -/
inductive FindingKind where
  | localAction
  | verificationDisabled
  | missingActionOrRef
  | notSha
  | invalidReference
  | apiUnreachable
  | apiUnreachableLocalSkip
  | refNotFound
  | unauthorized
  | forbiddenOrRateLimited
  | rateLimited
  | unexpectedStatus
  deriving DecidableEq, Repr

namespace FindingKind

def name : FindingKind → String
  | .localAction => "local_action"
  | .verificationDisabled => "verification_disabled"
  | .missingActionOrRef => "missing_action_or_ref"
  | .notSha => "not_sha"
  | .invalidReference => "invalid_reference"
  | .apiUnreachable => "api_unreachable"
  | .apiUnreachableLocalSkip => "api_unreachable_local_skip"
  | .refNotFound => "ref_not_found"
  | .unauthorized => "unauthorized"
  | .forbiddenOrRateLimited => "forbidden_or_rate_limited"
  | .rateLimited => "rate_limited"
  | .unexpectedStatus => "unexpected_status"

def all : List FindingKind :=
  [.localAction, .verificationDisabled, .missingActionOrRef, .notSha, .invalidReference,
    .apiUnreachable, .apiUnreachableLocalSkip, .refNotFound, .unauthorized,
    .forbiddenOrRateLimited, .rateLimited, .unexpectedStatus]

def ofName? (name : String) : Option FindingKind := all.find? (·.name == name)

/-- Kinds that report a fault of the lookup service rather than of a reference. -/
def isInfrastructure : FindingKind → Bool
  | .apiUnreachable | .apiUnreachableLocalSkip | .unauthorized
  | .forbiddenOrRateLimited | .rateLimited | .unexpectedStatus => true
  | _ => false

end FindingKind

/-- The outcome of verifying one reference against one claimed commit id. -/
structure Verdict where
  ok : Bool
  kind : Option FindingKind
  deriving DecidableEq, Repr

namespace Verdict

/-- The commit exists in the remote repository. -/
def verified : Verdict := ⟨true, none⟩

/-- Verification was skipped, which is no failure. -/
def bypass (kind : FindingKind) : Verdict := ⟨true, some kind⟩

def failed (kind : FindingKind) : Verdict := ⟨false, some kind⟩

def code (v : Verdict) : String :=
  match v.kind with
  | some kind => kind.name
  | none => "ok"

/-- The verdict that a lookup's status stands for. -/
def ofStatus (status : Nat) : Verdict :=
  match status with
  | 200 => verified
  | 404 => failed .refNotFound
  | 401 => failed .unauthorized
  | 403 => failed .forbiddenOrRateLimited
  | 429 => failed .rateLimited
  | _ => failed .unexpectedStatus

/-- What a run reports when the service cannot be reached. -/
def unreachable (mode : ExecutionMode) : Verdict :=
  if mode.isStrict then failed .apiUnreachable else bypass .apiUnreachableLocalSkip

end Verdict

end WorkflowAudit
