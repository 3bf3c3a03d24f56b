import WorkflowAudit.Verification.Ladder

/-!
# Calls that overlap

Calls of one run may be started together and take their steps in any order.  A
call stands still in two places, before the probe and before the lookup of its
key, while another call waits there for the service's answer.  The first call
to arrive sends the request, and its answer is everybody's.  A schedule names
the call that moves next, so every schedule is one interleaving.
-/

namespace WorkflowAudit

/-- Where a call stands: not begun, past the rungs that need no network,
waiting for the probe's answer, told that the service is reachable, given the
cell of its key, waiting for the lookup's answer, or done. -/
inductive CallState where
  | called (reference claimed : String)
  | admitted (key : LookupKey)
  | probing (key : LookupKey)
  | connected (key : LookupKey)
  | listed (key : LookupKey)
  | lookingUp (key : LookupKey)
  | finished (verdict : Verdict)
  deriving DecidableEq, Repr

namespace CallState

def isProbing : CallState → Bool
  | .probing _ => true
  | _ => false

def isLookingUp (key : LookupKey) : CallState → Bool
  | .lookingUp other => decide (other = key)
  | _ => false

def verdict? : CallState → Option Verdict
  | .finished verdict => some verdict
  | _ => none

end CallState

/-- Calls under way in one run. -/
structure Flight (σ : Type) where
  run : Run σ
  calls : List CallState

namespace Flight

variable {σ : Type}

def start (calls : List (String × String)) (run : Run σ) : Flight σ where
  run := run
  calls := calls.map fun (reference, claimed) => .called reference claimed

/-- One step of a call.  It stands still while another call is waiting for the
answer that it needs. -/
def advance (verifier : Verifier σ) (flight : Flight σ) : CallState → CallState × Run σ
  | .called reference claimed =>
      match verifier.settings.admit reference claimed with
      | .settled verdict => (.finished verdict, flight.run)
      | .lookup key => (.admitted key, flight.run)
  | .admitted key =>
      match flight.run.reachable with
      | some true => (.connected key, flight.run)
      | some false => (.finished (Verdict.unreachable verifier.mode), flight.run)
      | none =>
          if flight.calls.any CallState.isProbing then (.admitted key, flight.run)
          else (.probing key, flight.run.send .probe)
  | .probing key =>
      match flight.run.answerProbe verifier.transport with
      | (true, run) => (.connected key, run)
      | (false, run) => (.finished (Verdict.unreachable verifier.mode), run)
  | .connected key => (.listed key, flight.run.list key)
  | .listed key =>
      match flight.run.verdicts.lookup key with
      | some verdict => (.finished verdict, flight.run)
      | none =>
          if flight.calls.any (CallState.isLookingUp key) then (.listed key, flight.run)
          else (.lookingUp key, flight.run.send (.lookup key.repo key.sha))
  | .lookingUp key =>
      let (verdict, run) := flight.run.answerLookup verifier.transport verifier.mode key
      (.finished verdict, run)
  | .finished verdict => (.finished verdict, flight.run)

/-- Lets one call take a step. -/
def step (verifier : Verifier σ) (flight : Flight σ) (index : Nat) : Flight σ :=
  match flight.calls[index]? with
  | none => flight
  | some call =>
      let (call, run) := flight.advance verifier call
      { run := run, calls := flight.calls.set index call }

/-- Lets the calls move in the order of a schedule. -/
def follow (verifier : Verifier σ) (schedule : List Nat) (flight : Flight σ) : Flight σ :=
  schedule.foldl (step verifier) flight

/-- The schedule under which each call runs to its end before the next one
moves; no call takes more than six steps. -/
def inTurn (calls : Nat) : List Nat :=
  (List.range calls).flatMap (List.replicate 6)

end Flight

/-- Verifies references started together, over a service that answers at once. -/
def Verifier.verifyTogether {σ : Type} (verifier : Verifier σ)
    (calls : List (String × String)) (run : Run σ) : List Verdict × Run σ :=
  let flight := (Flight.start calls run).follow verifier (Flight.inTurn calls.length)
  (flight.calls.filterMap CallState.verdict?, flight.run)

end WorkflowAudit
