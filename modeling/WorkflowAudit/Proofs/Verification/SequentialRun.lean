import Mathlib.Tactic.Common
import WorkflowAudit.Verification.Ladder

/-!
# Calls of a run, one after the other

A run remembers the outcome of its probe and one verdict for each key, and it
answers later calls from that memory.  The ladder is stated here a second time
without any memory: the first rung that applies settles a call, and what no rung
settles is decided by the probe and by the first answer for the key.  A run of
any length gives exactly those verdicts, and its requests are one probe and then
each key at its first occurrence.
-/

namespace WorkflowAudit

open Text

/-! ## The ladder without memory -/

/-- The rungs that need no network, from the first to the last, on trimmed
input: whether each applies, and what it settles a call with. -/
def VerifierSettings.rungs (settings : VerifierSettings) (reference claimed : String) :
    List (Bool × Verdict) :=
  [(isLocalReference reference, .bypass .localAction),
    (!settings.enabled, .bypass .verificationDisabled),
    (reference.isEmpty || claimed.isEmpty, .bypass .missingActionOrRef),
    (!isFullSha claimed, .bypass .notSha),
    (!(normalizeRepo reference).isOk, .failed .invalidReference)]

/-- What the first rung that applies settles a call with. -/
def VerifierSettings.firstRung? (settings : VerifierSettings) (call : String × String) :
    Option Verdict :=
  (settings.rungs (trimString call.1) (trimString call.2)).lookup true

/-- The key of a call that no rung settles. -/
def VerifierSettings.key? (settings : VerifierSettings) (call : String × String) :
    Option LookupKey :=
  match settings.firstRung? call, normalizeRepo (trimString call.1) with
  | none, .ok repo => some ⟨repo, lowerAsciiString (trimString call.2)⟩
  | _, _ => none

/-- The keys of calls that no rung settles, each at its first occurrence. -/
def VerifierSettings.distinctKeys (settings : VerifierSettings)
    (calls : List (String × String)) : List LookupKey :=
  (calls.filterMap settings.key?).eraseDups

def LookupKey.request (key : LookupKey) : Request := .lookup key.repo key.sha

def LookupKey.exchange (key : LookupKey) (answer : Except TransportFault Nat) : Exchange :=
  .lookup key.repo key.sha answer

/-- Asks the service for keys one after the other. -/
def Transport.lookUpEach {σ : Type} (transport : Transport σ) :
    List LookupKey → σ → List (LookupKey × Except TransportFault Nat) × σ
  | [], service => ([], service)
  | key :: keys, service =>
      let (answer, service) := transport.commitStatus key.repo key.sha service
      let (answers, service) := transport.lookUpEach keys service
      ((key, answer) :: answers, service)

/-- The verdict on a call, given the outcome of the one probe and the answers to
the keys in the order in which they were asked for. -/
inductive Verifier.Judges {σ : Type} (verifier : Verifier σ) (reachable : Bool)
    (answers : List (LookupKey × Except TransportFault Nat)) :
    String × String → Verdict → Prop
  | settled {call : String × String} {verdict : Verdict}
      (hrung : verifier.settings.firstRung? call = some verdict) :
      Judges verifier reachable answers call verdict
  | unreachable {call : String × String}
      (hrung : verifier.settings.firstRung? call = none) (hprobe : reachable = false) :
      Judges verifier reachable answers call (Verdict.unreachable verifier.mode)
  | answered {call : String × String} {key : LookupKey} {answer : Except TransportFault Nat}
      (hkey : verifier.settings.key? call = some key) (hprobe : reachable = true)
      (hanswer : answers.lookup key = some answer) :
      Judges verifier reachable answers call (Verdict.ofAnswer verifier.mode answer)

/-! ## Admission is the first rung -/

theorem VerifierSettings.admit_cases (settings : VerifierSettings) (call : String × String) :
    (∃ verdict, settings.admit call.1 call.2 = .settled verdict ∧
      settings.firstRung? call = some verdict ∧ settings.key? call = none) ∨
    (∃ key, settings.admit call.1 call.2 = .lookup key ∧
      settings.firstRung? call = none ∧ settings.key? call = some key) := by
  unfold VerifierSettings.key? VerifierSettings.firstRung? VerifierSettings.rungs
    VerifierSettings.admit
  generalize trimString call.1 = reference
  generalize trimString call.2 = claimed
  dsimp only
  cases isLocalReference reference with
  | true => exact .inl ⟨_, rfl, rfl, rfl⟩
  | false =>
      cases settings.enabled with
      | false => exact .inl ⟨_, rfl, rfl, rfl⟩
      | true =>
          cases reference.isEmpty || claimed.isEmpty with
          | true => exact .inl ⟨_, rfl, rfl, rfl⟩
          | false =>
              cases isFullSha claimed with
              | false => exact .inl ⟨_, rfl, rfl, rfl⟩
              | true =>
                  cases normalizeRepo reference with
                  | error fault => exact .inl ⟨_, rfl, rfl, rfl⟩
                  | ok repo => exact .inr ⟨_, rfl, rfl, rfl⟩

theorem VerifierSettings.distinctKeys_append_settled {settings : VerifierSettings}
    {call : String × String} (earlier : List (String × String))
    (hkey : settings.key? call = none) :
    settings.distinctKeys (earlier ++ [call]) = settings.distinctKeys earlier := by
  simp [VerifierSettings.distinctKeys, List.filterMap_append, hkey]

theorem VerifierSettings.distinctKeys_append_seen {settings : VerifierSettings}
    {call : String × String} {key : LookupKey} {earlier : List (String × String)}
    (hkey : settings.key? call = some key) (hseen : key ∈ settings.distinctKeys earlier) :
    settings.distinctKeys (earlier ++ [call]) = settings.distinctKeys earlier := by
  rw [VerifierSettings.distinctKeys, List.mem_eraseDups] at hseen
  simp [VerifierSettings.distinctKeys, List.filterMap_append, hkey, List.eraseDups_append,
    List.removeAll, hseen]

theorem VerifierSettings.distinctKeys_append_new {settings : VerifierSettings}
    {call : String × String} {key : LookupKey} {earlier : List (String × String)}
    (hkey : settings.key? call = some key) (hnew : key ∉ settings.distinctKeys earlier) :
    settings.distinctKeys (earlier ++ [call]) = settings.distinctKeys earlier ++ [key] := by
  rw [VerifierSettings.distinctKeys, List.mem_eraseDups] at hnew
  simp [VerifierSettings.distinctKeys, List.filterMap_append, hkey, List.eraseDups_append,
    List.removeAll, List.eraseDups_cons, hnew]

theorem VerifierSettings.distinctKeys_prefix (settings : VerifierSettings)
    (earlier later : List (String × String)) :
    settings.distinctKeys earlier <+: settings.distinctKeys (earlier ++ later) := by
  rw [VerifierSettings.distinctKeys, VerifierSettings.distinctKeys, List.filterMap_append,
    List.eraseDups_append]
  exact List.prefix_append _ _

theorem VerifierSettings.distinctKeys_eq_nil_iff (settings : VerifierSettings)
    (calls : List (String × String)) :
    settings.distinctKeys calls = [] ↔ ∀ call ∈ calls, settings.key? call = none := by
  simp [VerifierSettings.distinctKeys, List.eq_nil_iff_forall_not_mem, List.mem_eraseDups,
    Option.eq_none_iff_forall_ne_some]
  grind

/-! ## Asking for several keys -/

section

variable {σ : Type}

theorem Transport.lookUpEach_append (transport : Transport σ) (keys more : List LookupKey)
    (service : σ) :
    transport.lookUpEach (keys ++ more) service =
      ((transport.lookUpEach keys service).1 ++
          (transport.lookUpEach more (transport.lookUpEach keys service).2).1,
        (transport.lookUpEach more (transport.lookUpEach keys service).2).2) := by
  induction keys generalizing service with
  | nil => rfl
  | cons key keys ih => simp only [List.cons_append, Transport.lookUpEach, ih]

theorem Transport.keys_lookUpEach (transport : Transport σ) (keys : List LookupKey)
    (service : σ) : (transport.lookUpEach keys service).1.map Prod.fst = keys := by
  induction keys generalizing service with
  | nil => rfl
  | cons key keys ih => simp only [Transport.lookUpEach, List.map_cons, ih]

theorem Transport.lookup_lookUpEach_eq_none_iff (transport : Transport σ)
    (keys : List LookupKey) (key : LookupKey) (service : σ) :
    (transport.lookUpEach keys service).1.lookup key = none ↔ key ∉ keys := by
  rw [List.lookup_eq_none_iff]
  constructor
  · intro hnone hmem
    rw [← transport.keys_lookUpEach keys service] at hmem
    obtain ⟨pair, hpair, rfl⟩ := List.mem_map.1 hmem
    simpa using hnone pair hpair
  · intro hmem pair hpair
    have hkey : pair.1 ∈ keys := by
      rw [← transport.keys_lookUpEach keys service]
      exact List.mem_map_of_mem hpair
    simpa using fun heq : key = pair.1 => hmem (heq ▸ hkey)

/-- The first answer to a key is found again once further keys have been asked for. -/
theorem Transport.lookup_lookUpEach_of_prefix {transport : Transport σ}
    {keys more : List LookupKey} (hextends : keys <+: more) {key : LookupKey} {service : σ}
    {answer : Except TransportFault Nat}
    (hanswer : (transport.lookUpEach keys service).1.lookup key = some answer) :
    (transport.lookUpEach more service).1.lookup key = some answer := by
  obtain ⟨rest, rfl⟩ := hextends
  rw [Transport.lookUpEach_append, List.lookup_append, hanswer]
  rfl

theorem Verifier.Judges.of_prefix {verifier : Verifier σ} {reachable : Bool}
    {keys more : List LookupKey} (hextends : keys <+: more) {service : σ}
    {call : String × String} {verdict : Verdict}
    (hjudged : verifier.Judges reachable
      (verifier.transport.lookUpEach keys service).1 call verdict) :
    verifier.Judges reachable (verifier.transport.lookUpEach more service).1 call verdict := by
  cases hjudged with
  | settled hrung => exact .settled hrung
  | unreachable hrung hprobe => exact .unreachable hrung hprobe
  | answered hkey hprobe hanswer =>
      exact .answered hkey hprobe (Transport.lookup_lookUpEach_of_prefix hextends hanswer)

/-! ## The state of a run in closed form -/

/-- The run behind its probe, once it has looked up some keys. -/
def Verifier.probedRun (verifier : Verifier σ) (service : σ) (keys : List LookupKey) : Run σ :=
  let (answer, service) := verifier.transport.probe service
  if answer.toBool then
    let (answers, service) := verifier.transport.lookUpEach keys service
    { reachable := some true
      cells := keys
      verdicts := answers.map fun (key, answer) => (key, .ofAnswer verifier.mode answer)
      requests := .probe :: keys.map LookupKey.request
      exchanges := .probe answer :: answers.map fun (key, answer) => key.exchange answer
      service }
  else
    { reachable := some false, requests := [.probe], exchanges := [.probe answer], service }

/-- The run once calls with these keys have been made. -/
def Verifier.runAfter (verifier : Verifier σ) (service : σ) (keys : List LookupKey) : Run σ :=
  if keys = [] then Run.fresh service else verifier.probedRun service keys

theorem Verifier.ensureProbed_runAfter (verifier : Verifier σ) (service : σ)
    (keys : List LookupKey) :
    (verifier.runAfter service keys).ensureProbed verifier.transport =
      ((verifier.transport.probe service).1.toBool, verifier.probedRun service keys) := by
  unfold Verifier.runAfter
  cases keys with
  | nil =>
      cases hprobe : (verifier.transport.probe service).1.toBool <;>
        simp [Run.ensureProbed, Run.fresh, Run.send, Run.answerProbe, Verifier.probedRun,
          Transport.lookUpEach, hprobe]
  | cons key keys =>
      cases hprobe : (verifier.transport.probe service).1.toBool <;>
        simp [Run.ensureProbed, Verifier.probedRun, hprobe]

theorem Verifier.probedRun_of_unreachable {verifier : Verifier σ} {service : σ}
    (hprobe : (verifier.transport.probe service).1.toBool = false) (keys more : List LookupKey) :
    verifier.probedRun service keys = verifier.probedRun service more := by
  simp [Verifier.probedRun, hprobe]

theorem lookup_map_values {α β γ : Type} [BEq α] (f : β → γ) (pairs : List (α × β)) (key : α) :
    (pairs.map fun (key, value) => (key, f value)).lookup key = (pairs.lookup key).map f := by
  induction pairs with
  | nil => rfl
  | cons pair pairs ih =>
      rw [List.map_cons, List.lookup_cons, List.lookup_cons, ih]
      cases key == pair.1 <;> rfl

/-- A key that has been looked up is answered from its cell. -/
theorem Verifier.ensureLookedUp_seen {verifier : Verifier σ} {service : σ}
    (hprobe : (verifier.transport.probe service).1.toBool = true) {keys : List LookupKey}
    {key : LookupKey} {answer : Except TransportFault Nat}
    (hanswer : (verifier.transport.lookUpEach keys
      (verifier.transport.probe service).2).1.lookup key = some answer) :
    (verifier.probedRun service keys).ensureLookedUp verifier.transport verifier.mode key =
      (.ofAnswer verifier.mode answer, verifier.probedRun service keys) := by
  have hseen : key ∈ keys := by
    by_contra hnew
    rw [(Transport.lookup_lookUpEach_eq_none_iff ..).2 hnew] at hanswer
    cases hanswer
  simp [Run.ensureLookedUp, Verifier.probedRun, hprobe, Run.list, hseen, lookup_map_values, hanswer]

/-- A key that is new gets its cell and is asked for. -/
theorem Verifier.ensureLookedUp_new {verifier : Verifier σ} {service : σ}
    (hprobe : (verifier.transport.probe service).1.toBool = true) {keys : List LookupKey}
    {key : LookupKey} (hnew : key ∉ keys) :
    (verifier.probedRun service keys).ensureLookedUp verifier.transport verifier.mode key =
      (.ofAnswer verifier.mode (verifier.transport.commitStatus key.repo key.sha
          (verifier.transport.lookUpEach keys (verifier.transport.probe service).2).2).1,
        verifier.probedRun service (keys ++ [key])) := by
  have hnone := (verifier.transport.lookup_lookUpEach_eq_none_iff keys key
    (verifier.transport.probe service).2).2 hnew
  simp [Run.ensureLookedUp, Verifier.probedRun, hprobe, Run.list, hnew, lookup_map_values, hnone,
    Run.send, Run.answerLookup, Transport.lookUpEach_append, Transport.lookUpEach,
    LookupKey.request, LookupKey.exchange]

/-- One call moves a run from the state behind the earlier calls to the state
behind the earlier calls and itself. -/
theorem Verifier.verify_runAfter (verifier : Verifier σ) (service : σ)
    (earlier : List (String × String)) (call : String × String) :
    verifier.Judges (verifier.transport.probe service).1.toBool
        (verifier.transport.lookUpEach (verifier.settings.distinctKeys (earlier ++ [call]))
          (verifier.transport.probe service).2).1 call
        (verifier.verify call.1 call.2
          (verifier.runAfter service (verifier.settings.distinctKeys earlier))).1 ∧
      (verifier.verify call.1 call.2
          (verifier.runAfter service (verifier.settings.distinctKeys earlier))).2 =
        verifier.runAfter service (verifier.settings.distinctKeys (earlier ++ [call])) := by
  obtain ⟨verdict, hadmission, hrung, hkey⟩ | ⟨key, hadmission, hrung, hkey⟩ :=
    verifier.settings.admit_cases call
  · rw [Verifier.verify, hadmission, VerifierSettings.distinctKeys_append_settled earlier hkey]
    exact ⟨.settled hrung, rfl⟩
  · have hmem : key ∈ verifier.settings.distinctKeys (earlier ++ [call]) := by
      simp [VerifierSettings.distinctKeys, List.mem_eraseDups, hkey]
    have hafter : verifier.runAfter service (verifier.settings.distinctKeys (earlier ++ [call])) =
        verifier.probedRun service (verifier.settings.distinctKeys (earlier ++ [call])) :=
      if_neg (List.ne_nil_of_mem hmem)
    rw [Verifier.verify, hadmission, hafter]
    dsimp only
    rw [Verifier.ensureProbed_runAfter]
    cases hprobe : (verifier.transport.probe service).1.toBool with
    | false =>
        exact ⟨.unreachable hrung rfl, Verifier.probedRun_of_unreachable hprobe _ _⟩
    | true =>
        dsimp only
        by_cases hseen : key ∈ verifier.settings.distinctKeys earlier
        · rw [VerifierSettings.distinctKeys_append_seen hkey hseen]
          obtain ⟨answer, hanswer⟩ := Option.ne_none_iff_exists'.1
            (mt (Transport.lookup_lookUpEach_eq_none_iff ..).1 (not_not_intro hseen))
          rw [Verifier.ensureLookedUp_seen hprobe hanswer]
          exact ⟨.answered hkey rfl hanswer, rfl⟩
        · rw [VerifierSettings.distinctKeys_append_new hkey hseen,
            Verifier.ensureLookedUp_new hprobe hseen]
          refine ⟨.answered hkey rfl ?_, rfl⟩
          have hnone := (verifier.transport.lookup_lookUpEach_eq_none_iff _ key
            (verifier.transport.probe service).2).2 hseen
          simp [Transport.lookUpEach_append, Transport.lookUpEach, List.lookup_append, hnone]

/-- Calls that follow earlier ones. -/
theorem Verifier.verifyEach_runAfter (verifier : Verifier σ) (service : σ)
    (earlier calls : List (String × String)) :
    List.Forall₂ (verifier.Judges (verifier.transport.probe service).1.toBool
        (verifier.transport.lookUpEach (verifier.settings.distinctKeys (earlier ++ calls))
          (verifier.transport.probe service).2).1) calls
        (verifier.verifyEach calls
          (verifier.runAfter service (verifier.settings.distinctKeys earlier))).1 ∧
      (verifier.verifyEach calls
          (verifier.runAfter service (verifier.settings.distinctKeys earlier))).2 =
        verifier.runAfter service (verifier.settings.distinctKeys (earlier ++ calls)) := by
  induction calls generalizing earlier with
  | nil => exact ⟨.nil, by rw [List.append_nil]; rfl⟩
  | cons call calls ih =>
      obtain ⟨hverdict, hrun⟩ := verifier.verify_runAfter service earlier call
      obtain ⟨hverdicts, hruns⟩ := ih (earlier ++ [call])
      rw [List.append_assoc, List.singleton_append] at hverdicts hruns
      have hextends := verifier.settings.distinctKeys_prefix (earlier ++ [call]) calls
      rw [List.append_assoc, List.singleton_append] at hextends
      simp only [Verifier.verifyEach]
      rw [hrun]
      exact ⟨.cons (hverdict.of_prefix hextends) hverdicts, hruns⟩

/-- Calls on a fresh run are judged as by the ladder without memory.  The service
sees nothing as long as rungs settle every call, then one probe, then each key at
its first occurrence if the probe was answered.  This holds of every list of
calls, so it holds at every moment of a run. -/
theorem Verifier.verifyEach_fresh_refines_uncached (verifier : Verifier σ) (service : σ)
    (calls : List (String × String)) :
    let keys := verifier.settings.distinctKeys calls
    let probe := verifier.transport.probe service
    let answers := (verifier.transport.lookUpEach keys probe.2).1
    let result := verifier.verifyEach calls (Run.fresh service)
    List.Forall₂ (verifier.Judges probe.1.toBool answers) calls result.1 ∧
      result.2.requests = (if keys = [] then [] else
        .probe :: if probe.1.toBool then keys.map LookupKey.request else []) ∧
      result.2.exchanges = (if keys = [] then [] else
        .probe probe.1 :: if probe.1.toBool then
          answers.map fun (key, answer) => key.exchange answer else []) ∧
      (result.2.probed = true ↔
        ∃ call ∈ calls, verifier.settings.firstRung? call = none) ∧
      result.2.cachedEntries = if probe.1.toBool then keys.length else 0 := by
  obtain ⟨hverdicts, hrun⟩ := verifier.verifyEach_runAfter service [] calls
  have hfresh : verifier.runAfter service (verifier.settings.distinctKeys []) =
      Run.fresh service := rfl
  rw [List.nil_append, hfresh] at hverdicts hrun
  dsimp only
  refine ⟨hverdicts, ?_⟩
  rw [hrun]
  have hprobed : verifier.settings.distinctKeys calls ≠ [] ↔
      ∃ call ∈ calls, verifier.settings.firstRung? call = none := by
    rw [Ne, VerifierSettings.distinctKeys_eq_nil_iff]
    push Not
    refine exists_congr fun call => and_congr_right ?_
    intro _
    obtain ⟨_, _, hrung, hkey⟩ | ⟨_, _, hrung, hkey⟩ := verifier.settings.admit_cases call <;>
      simp [hrung, hkey]
  rw [← hprobed]
  unfold Verifier.runAfter
  by_cases hkeys : verifier.settings.distinctKeys calls = []
  · simp [hkeys, Run.fresh, Run.probed, Run.cachedEntries]
  · cases hprobe : (verifier.transport.probe service).1.toBool <;>
      simp [hkeys, Verifier.probedRun, hprobe, Run.probed, Run.cachedEntries]

end

end WorkflowAudit
