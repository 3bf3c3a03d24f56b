import WorkflowAudit.Verification.Ladder

/-!
# A lookup service that follows a script

A script lists outcomes for successive calls; the last one repeats, and an
empty script always answers 200.  The probe, each listed repository, and all
other repositories together have a script of their own.
-/

namespace WorkflowAudit

inductive ScriptedOutcome where
  | status (code : Nat)
  | fault (cause : TransportFault)
  deriving DecidableEq, Repr

def ScriptedOutcome.answer : ScriptedOutcome → Except TransportFault Nat
  | .status code => .ok code
  | .fault cause => .error cause

abbrev Script := List ScriptedOutcome

/-- The outcome of the next call, and the script for the calls after it. -/
def Script.next : Script → ScriptedOutcome × Script
  | [] => (.status 200, [])
  | [outcome] => (outcome, [outcome])
  | outcome :: rest => (outcome, rest)

structure ScriptedService where
  probe : Script := []
  repositories : List (String × Script) := []
  others : Script := []
  deriving Repr

namespace ScriptedService

/-- Advances the script of one listed repository. -/
def advance (repo : String) : List (String × Script) →
    Option (ScriptedOutcome × List (String × Script))
  | [] => none
  | (name, script) :: rest =>
      if name = repo then
        let (outcome, script) := Script.next script
        some (outcome, (name, script) :: rest)
      else (advance repo rest).map fun (outcome, rest) => (outcome, (name, script) :: rest)

def transport : Transport ScriptedService where
  probe service :=
    let (outcome, probe) := Script.next service.probe
    (outcome.answer.map fun _ => (), { service with probe := probe })
  commitStatus repo _ service :=
    match advance repo service.repositories with
    | some (outcome, repositories) =>
        (outcome.answer, { service with repositories := repositories })
    | none =>
        let (outcome, others) := Script.next service.others
        (outcome.answer, { service with others := others })

end ScriptedService

end WorkflowAudit
