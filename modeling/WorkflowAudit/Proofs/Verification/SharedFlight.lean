import Mathlib.Data.List.Forall2
import WorkflowAudit.Proofs.Verification.SequentialRun
import WorkflowAudit.Verification.Overlap

/-!
# Calls of a run under every schedule

Calls that are started together share the probe and the lookup of each key.  A
waiting call and an answer are counted together with the request that they
belong to, and these counts are kept by every step: a request is sent when
nobody waits for its answer and the answer is not there yet.  From this it
follows that the service sees at most one probe and one lookup of each key, that
calls with one key end alike, and that no order of steps can be told from the
answers of a service whose answers depend on the key alone.
-/

namespace WorkflowAudit

variable {σ : Type}

/-- A service whose answers depend on what it is asked and on nothing else. -/
structure Transport.KeyedAnswers (transport : Transport σ) : Prop where
  probe : ∀ left right, (transport.probe left).1 = (transport.probe right).1
  lookup : ∀ repo sha left right,
    (transport.commitStatus repo sha left).1 = (transport.commitStatus repo sha right).1

namespace Run

/-- What a run holds is never taken back. -/
structure Grows (run next : Run σ) : Prop where
  reachable : ∀ outcome, run.reachable = some outcome → next.reachable = some outcome
  verdicts : ∀ key verdict,
    run.verdicts.lookup key = some verdict → next.verdicts.lookup key = some verdict

theorem grows_send (run : Run σ) (request : Request) : run.Grows (run.send request) :=
  ⟨fun _ h => h, fun _ _ h => h⟩

theorem grows_answerProbe {run : Run σ} (hopen : run.reachable = none)
    (transport : Transport σ) : run.Grows (run.answerProbe transport).2 := by
  refine ⟨fun _ hsome => ?_, fun _ _ h => h⟩
  rw [hopen] at hsome
  cases hsome

theorem grows_answerLookup (run : Run σ) (transport : Transport σ) (mode : ExecutionMode)
    (key : LookupKey) : run.Grows (run.answerLookup transport mode key).2 := by
  refine ⟨fun _ h => h, fun _ _ hsome => ?_⟩
  simp [Run.answerLookup, List.lookup_append, hsome]

end Run

namespace CallState

/-- How far a call is from its end. -/
def remaining : CallState → Nat
  | .called .. => 6
  | .admitted _ => 5
  | .probing _ => 4
  | .connected _ => 3
  | .listed _ => 2
  | .lookingUp _ => 1
  | .finished _ => 0

/-- The states that a call can be in while its run looks like this. -/
inductive Fits (verifier : Verifier σ) (run : Run σ) (call : String × String) :
    CallState → Prop
  | called : Fits verifier run call (.called call.1 call.2)
  | admitted {key : LookupKey} (hkey : verifier.settings.admit call.1 call.2 = .lookup key) :
      Fits verifier run call (.admitted key)
  | probing {key : LookupKey} (hkey : verifier.settings.admit call.1 call.2 = .lookup key) :
      Fits verifier run call (.probing key)
  | connected {key : LookupKey} (hkey : verifier.settings.admit call.1 call.2 = .lookup key)
      (hup : run.reachable = some true) : Fits verifier run call (.connected key)
  | listed {key : LookupKey} (hkey : verifier.settings.admit call.1 call.2 = .lookup key)
      (hup : run.reachable = some true) : Fits verifier run call (.listed key)
  | lookingUp {key : LookupKey} (hkey : verifier.settings.admit call.1 call.2 = .lookup key)
      (hup : run.reachable = some true) : Fits verifier run call (.lookingUp key)
  | settled {verdict : Verdict}
      (hrung : verifier.settings.admit call.1 call.2 = .settled verdict) :
      Fits verifier run call (.finished verdict)
  | unreachable {key : LookupKey} (hkey : verifier.settings.admit call.1 call.2 = .lookup key)
      (hdown : run.reachable = some false) :
      Fits verifier run call (.finished (Verdict.unreachable verifier.mode))
  | answered {key : LookupKey} {verdict : Verdict}
      (hkey : verifier.settings.admit call.1 call.2 = .lookup key)
      (hup : run.reachable = some true) (hverdict : run.verdicts.lookup key = some verdict) :
      Fits verifier run call (.finished verdict)

theorem Fits.mono {verifier : Verifier σ} {run next : Run σ} {call : String × String}
    {state : CallState} (hfits : Fits verifier run call state) (hgrows : run.Grows next) :
    Fits verifier next call state := by
  cases hfits with
  | called => exact .called
  | admitted hkey => exact .admitted hkey
  | probing hkey => exact .probing hkey
  | connected hkey hup => exact .connected hkey (hgrows.reachable _ hup)
  | listed hkey hup => exact .listed hkey (hgrows.reachable _ hup)
  | lookingUp hkey hup => exact .lookingUp hkey (hgrows.reachable _ hup)
  | settled hrung => exact .settled hrung
  | unreachable hkey hdown => exact .unreachable hkey (hgrows.reachable _ hdown)
  | answered hkey hup hverdict =>
      exact .answered hkey (hgrows.reachable _ hup) (hgrows.verdicts _ _ hverdict)

end CallState

namespace Flight

/-- The calls that wait for the answer to the probe. -/
def probing (flight : Flight σ) : Nat := flight.calls.countP CallState.isProbing

/-- The calls that wait for the answer to the lookup of a key. -/
def lookingUp (flight : Flight σ) (key : LookupKey) : Nat :=
  flight.calls.countP (CallState.isLookingUp key)

/-- What holds of every state that calls started together can reach.  The two
counting fields say that each request belongs to a waiting call or to an answer. -/
structure Sound (verifier : Verifier σ) (called : List (String × String))
    (flight : Flight σ) : Prop where
  length_calls : flight.calls.length = called.length
  fits : ∀ (index : Nat) (call : String × String) (state : CallState),
    called[index]? = some call → flight.calls[index]? = some state →
      CallState.Fits verifier flight.run call state
  count_probe : flight.run.requests.count .probe =
    flight.probing + flight.run.reachable.toList.length
  probe_le_one : flight.run.requests.count .probe ≤ 1
  count_lookup : ∀ key : LookupKey, flight.run.requests.count key.request =
    flight.lookingUp key + (flight.run.verdicts.lookup key).toList.length
  lookup_le_one : ∀ key : LookupKey, flight.run.requests.count key.request ≤ 1
  lookup_up : ∀ key : LookupKey, key.request ∈ flight.run.requests →
    flight.run.reachable = some true
  probe_exchange : ∀ outcome, flight.run.reachable = some outcome →
    ∃ answer, .probe answer ∈ flight.run.exchanges ∧ answer.toBool = outcome
  exchange_probe : ∀ answer, .probe answer ∈ flight.run.exchanges →
    flight.run.reachable = some answer.toBool

theorem sound_start (verifier : Verifier σ) (called : List (String × String)) (service : σ) :
    Sound verifier called (start called (Run.fresh service)) where
  length_calls := List.length_map _
  fits := by
    intro index call state hcall hstate
    simp only [start, List.getElem?_map, hcall, Option.map_some, Option.some.injEq] at hstate
    subst hstate
    exact .called
  count_probe := by
    simp [start, Run.fresh, probing, List.countP_map, CallState.isProbing, Function.comp_def]
  probe_le_one := by simp [start, Run.fresh]
  count_lookup := by
    simp [start, Run.fresh, lookingUp, List.countP_map, CallState.isLookingUp, Function.comp_def]
  lookup_le_one := by simp [start, Run.fresh]
  lookup_up := by simp [start, Run.fresh]
  probe_exchange := by simp [start, Run.fresh]
  exchange_probe := by simp [start, Run.fresh]

theorem countP_set_add {α : Type} (p : α → Bool) {items : List α} {index : Nat} {old : α}
    (hold : items[index]? = some old) (new : α) :
    (items.set index new).countP p + (p old).toNat = items.countP p + (p new).toNat := by
  obtain ⟨hlt, rfl⟩ := List.getElem?_eq_some_iff.1 hold
  have hpos : p items[index] = true → 0 < items.countP p := fun hp =>
    List.countP_pos_iff.2 ⟨_, List.getElem_mem hlt, hp⟩
  rw [List.countP_set hlt]
  cases hitem : p items[index] <;> cases p new <;> simp_all

section Step

variable {verifier : Verifier σ} {called : List (String × String)} {flight : Flight σ}
  {index : Nat} {old new : CallState} {run : Run σ}

/-- A call in a new state fits, and so do the others in their old ones. -/
theorem Sound.fits_set (hsound : Sound verifier called flight)
    (hgrows : flight.run.Grows run)
    (hnew : ∀ call, called[index]? = some call → CallState.Fits verifier run call new)
    (other : Nat) (call : String × String) (state : CallState)
    (hcall : called[other]? = some call)
    (hstate : (flight.calls.set index new)[other]? = some state) :
    CallState.Fits verifier run call state := by
  rw [List.getElem?_set] at hstate
  split at hstate
  · next heq =>
      subst heq
      split at hstate
      · cases hstate
        exact hnew call hcall
      · cases hstate
  · exact (hsound.fits other call state hcall hstate).mono hgrows

/-- A step that sends nothing, takes no answer and ends no waiting. -/
theorem Sound.quiet (hsound : Sound verifier called flight)
    (hold : flight.calls[index]? = some old)
    (hnew : ∀ call, called[index]? = some call → CallState.Fits verifier run call new)
    (hprobing : new.isProbing = old.isProbing)
    (hlookingUp : ∀ key, new.isLookingUp key = old.isLookingUp key)
    (hreachable : run.reachable = flight.run.reachable)
    (hverdicts : run.verdicts = flight.run.verdicts)
    (hrequests : run.requests = flight.run.requests)
    (hexchanges : run.exchanges = flight.run.exchanges) :
    Sound verifier called ⟨run, flight.calls.set index new⟩ where
  length_calls := by rw [List.length_set, hsound.length_calls]
  fits := hsound.fits_set
    ⟨fun _ h => hreachable ▸ h, fun _ _ h => hverdicts ▸ h⟩ hnew
  count_probe := by
    have hset := countP_set_add CallState.isProbing hold new
    have hcount := hsound.count_probe
    rw [hprobing] at hset
    simp only [probing, hrequests, hreachable] at hcount ⊢
    omega
  probe_le_one := hrequests ▸ hsound.probe_le_one
  count_lookup := by
    intro key
    have hset := countP_set_add (CallState.isLookingUp key) hold new
    have hcount := hsound.count_lookup key
    rw [hlookingUp] at hset
    simp only [lookingUp, hrequests, hverdicts] at hcount ⊢
    omega
  lookup_le_one := hrequests ▸ hsound.lookup_le_one
  lookup_up := by
    rw [hrequests, hreachable]
    exact hsound.lookup_up
  probe_exchange := by
    rw [hexchanges, hreachable]
    exact hsound.probe_exchange
  exchange_probe := by
    rw [hexchanges, hreachable]
    exact hsound.exchange_probe

theorem probing_pos {key : LookupKey} (hold : flight.calls[index]? = some (.probing key)) :
    0 < flight.probing :=
  List.countP_pos_iff.2 ⟨_, List.mem_of_getElem? hold, rfl⟩

theorem lookingUp_pos {key : LookupKey} (hold : flight.calls[index]? = some (.lookingUp key)) :
    0 < flight.lookingUp key :=
  List.countP_pos_iff.2 ⟨_, List.mem_of_getElem? hold, by simp [CallState.isLookingUp]⟩

/-- While a call waits for the probe there is no outcome yet. -/
theorem Sound.reachable_of_probing (hsound : Sound verifier called flight) {key : LookupKey}
    (hold : flight.calls[index]? = some (.probing key)) : flight.run.reachable = none := by
  have hpos := probing_pos hold
  have hcount := hsound.count_probe
  have hle := hsound.probe_le_one
  cases hreachable : flight.run.reachable with
  | none => rfl
  | some outcome =>
      rw [hreachable] at hcount
      simp only [Option.toList_some, List.length_singleton] at hcount
      omega

/-- While a call waits for a lookup its cell is empty. -/
theorem Sound.verdict_of_lookingUp (hsound : Sound verifier called flight) {key : LookupKey}
    (hold : flight.calls[index]? = some (.lookingUp key)) :
    flight.run.verdicts.lookup key = none := by
  have hpos := lookingUp_pos hold
  have hcount := hsound.count_lookup key
  have hle := hsound.lookup_le_one key
  cases hverdict : flight.run.verdicts.lookup key with
  | none => rfl
  | some verdict =>
      rw [hverdict] at hcount
      simp only [Option.toList_some, List.length_singleton] at hcount
      omega

theorem probe_ne_request (key : LookupKey) : Request.probe ≠ key.request := by
  intro heq
  cases heq

theorem request_inj {key other : LookupKey} : key.request = other.request ↔ key = other := by
  constructor
  · intro heq
    obtain ⟨repo, sha⟩ := key
    obtain ⟨repo', sha'⟩ := other
    injection heq with hrepo hsha
    exact congrArg₂ LookupKey.mk hrepo hsha
  · exact congrArg _

/-- The probe is sent by a call that finds no outcome and nobody waiting for it. -/
theorem Sound.sendProbe (hsound : Sound verifier called flight) {key : LookupKey}
    (hold : flight.calls[index]? = some (.admitted key))
    (hopen : flight.run.reachable = none) (hnobody : flight.probing = 0) :
    Sound verifier called
      ⟨flight.run.send .probe, flight.calls.set index (.probing key)⟩ where
  length_calls := by rw [List.length_set, hsound.length_calls]
  fits := by
    refine hsound.fits_set (Run.grows_send _ _) ?_
    intro call hcall
    cases hsound.fits index call _ hcall hold with
    | admitted hkey => exact .probing hkey
  count_probe := by
    have hset := countP_set_add CallState.isProbing hold (.probing key)
    have hcount := hsound.count_probe
    simp only [CallState.isProbing, Bool.toNat_false, Bool.toNat_true] at hset
    simp only [probing, Run.send, List.count_append, List.count_singleton_self] at hcount ⊢
    omega
  probe_le_one := by
    have hcount := hsound.count_probe
    rw [hnobody, hopen] at hcount
    simp [Run.send, List.count_append, hcount]
  count_lookup := by
    intro other
    have hset := countP_set_add (CallState.isLookingUp other) hold (.probing key)
    have hcount := hsound.count_lookup other
    simp only [CallState.isLookingUp, Bool.toNat_false] at hset
    simp only [lookingUp, Run.send, List.count_append,
      List.count_singleton, beq_iff_eq, probe_ne_request, if_false] at hcount ⊢
    omega
  lookup_le_one := by
    intro other
    simpa [Run.send, List.count_append, List.count_singleton, probe_ne_request] using
      hsound.lookup_le_one other
  lookup_up := by
    intro other hmem
    simp only [Run.send, List.mem_append, List.mem_singleton,
      (probe_ne_request other).symm, or_false] at hmem
    exact hsound.lookup_up other hmem
  probe_exchange := hsound.probe_exchange
  exchange_probe := hsound.exchange_probe

/-- The call that waits for the probe takes its answer. -/
theorem Sound.takeProbe (hsound : Sound verifier called flight) {key : LookupKey}
    (hold : flight.calls[index]? = some (.probing key))
    (hquiet : new.isProbing = false ∧ ∀ other, new.isLookingUp other = false)
    (hnew : ∀ call, called[index]? = some call →
      CallState.Fits verifier (flight.run.answerProbe verifier.transport).2 call new) :
    Sound verifier called
      ⟨(flight.run.answerProbe verifier.transport).2, flight.calls.set index new⟩ where
  length_calls := by rw [List.length_set, hsound.length_calls]
  fits := hsound.fits_set
    (Run.grows_answerProbe (hsound.reachable_of_probing hold) verifier.transport) hnew
  count_probe := by
    have hset := countP_set_add CallState.isProbing hold new
    have hcount := hsound.count_probe
    rw [hsound.reachable_of_probing hold] at hcount
    rw [show (CallState.probing key).isProbing = true from rfl, hquiet.1] at hset
    simp only [Bool.toNat_false, Bool.toNat_true] at hset
    simp only [probing, Run.answerProbe, Option.toList_none, Option.toList_some,
      List.length_nil, List.length_singleton] at hcount ⊢
    omega
  probe_le_one := hsound.probe_le_one
  count_lookup := by
    intro other
    have hset := countP_set_add (CallState.isLookingUp other) hold new
    have hcount := hsound.count_lookup other
    rw [show (CallState.probing key).isLookingUp other = false from rfl, hquiet.2] at hset
    simp only [lookingUp, Run.answerProbe] at hcount ⊢
    omega
  lookup_le_one := hsound.lookup_le_one
  lookup_up := by
    intro other hmem
    have hup := hsound.lookup_up other hmem
    rw [hsound.reachable_of_probing hold] at hup
    cases hup
  probe_exchange := by
    intro outcome houtcome
    simp only [Run.answerProbe, Option.some.injEq] at houtcome
    exact ⟨_, List.mem_append_right _ (List.mem_singleton_self _), houtcome⟩
  exchange_probe := by
    intro answer hmem
    simp only [Run.answerProbe, List.mem_append, List.mem_singleton,
      Exchange.probe.injEq] at hmem ⊢
    rcases hmem with hmem | rfl
    · have hsome := hsound.exchange_probe answer hmem
      rw [hsound.reachable_of_probing hold] at hsome
      cases hsome
    · rfl

/-- A lookup is sent by a call that finds its cell empty and nobody waiting for it. -/
theorem Sound.sendLookup (hsound : Sound verifier called flight) {key : LookupKey}
    (hold : flight.calls[index]? = some (.listed key))
    (hopen : flight.run.verdicts.lookup key = none) (hnobody : flight.lookingUp key = 0) :
    Sound verifier called
      ⟨flight.run.send key.request, flight.calls.set index (.lookingUp key)⟩ where
  length_calls := by rw [List.length_set, hsound.length_calls]
  fits := by
    refine hsound.fits_set (Run.grows_send _ _) ?_
    intro call hcall
    cases hsound.fits index call _ hcall hold with
    | listed hkey hup => exact .lookingUp hkey hup
  count_probe := by
    have hset := countP_set_add CallState.isProbing hold (.lookingUp key)
    have hcount := hsound.count_probe
    simp only [CallState.isProbing, Bool.toNat_false] at hset
    simp only [probing, Run.send, List.count_append, List.count_singleton, beq_iff_eq,
      (probe_ne_request key).symm, if_false] at hcount ⊢
    omega
  probe_le_one := by
    simpa [Run.send, List.count_append, List.count_singleton, (probe_ne_request key).symm] using
      hsound.probe_le_one
  count_lookup := by
    intro other
    have hset := countP_set_add (CallState.isLookingUp other) hold (.lookingUp key)
    have hcount := hsound.count_lookup other
    simp only [CallState.isLookingUp, Bool.toNat_false] at hset
    simp only [lookingUp, Run.send, List.count_append, List.count_singleton, beq_iff_eq,
      request_inj] at hcount ⊢
    by_cases heq : key = other <;> simp only [heq, decide_true, decide_false, Bool.toNat_true,
      Bool.toNat_false, if_true, if_false] at hset ⊢ <;> omega
  lookup_le_one := by
    intro other
    have hcount := hsound.count_lookup other
    have hle := hsound.lookup_le_one other
    simp only [Run.send, List.count_append, List.count_singleton, beq_iff_eq, request_inj]
    by_cases heq : key = other
    · subst heq
      rw [hnobody, hopen] at hcount
      simp [hcount]
    · simpa [heq] using hle
  lookup_up := by
    intro other hmem
    simp only [Run.send, List.mem_append, List.mem_singleton] at hmem
    rcases hmem with hmem | _
    · exact hsound.lookup_up other hmem
    · have hlt : index < called.length := by
        rw [← hsound.length_calls]
        exact (List.getElem?_eq_some_iff.1 hold).1
      cases hsound.fits index called[index] _ (List.getElem?_eq_getElem hlt) hold with
      | listed _ hup => exact hup
  probe_exchange := hsound.probe_exchange
  exchange_probe := hsound.exchange_probe

/-- The call that waits for a lookup takes its answer. -/
theorem Sound.takeLookup (hsound : Sound verifier called flight) {key : LookupKey}
    (hold : flight.calls[index]? = some (.lookingUp key)) :
    Sound verifier called
      ⟨(flight.run.answerLookup verifier.transport verifier.mode key).2,
        flight.calls.set index (.finished
          (flight.run.answerLookup verifier.transport verifier.mode key).1)⟩ where
  length_calls := by rw [List.length_set, hsound.length_calls]
  fits := by
    refine hsound.fits_set (Run.grows_answerLookup _ _ _ _) ?_
    intro call hcall
    cases hsound.fits index call _ hcall hold with
    | lookingUp hkey hup =>
        refine .answered hkey hup ?_
        simp [Run.answerLookup, List.lookup_append, hsound.verdict_of_lookingUp hold]
  count_probe := by
    have hset := countP_set_add CallState.isProbing hold (.finished
      (flight.run.answerLookup verifier.transport verifier.mode key).1)
    have hcount := hsound.count_probe
    simp only [CallState.isProbing, Bool.toNat_false] at hset
    simp only [probing, Run.answerLookup] at hcount hset ⊢
    omega
  probe_le_one := hsound.probe_le_one
  count_lookup := by
    intro other
    have hset := countP_set_add (CallState.isLookingUp other) hold (.finished
      (flight.run.answerLookup verifier.transport verifier.mode key).1)
    have hcount := hsound.count_lookup other
    have hempty := hsound.verdict_of_lookingUp hold
    simp only [CallState.isLookingUp, Bool.toNat_false] at hset
    simp only [lookingUp, Run.answerLookup, List.lookup_append, List.lookup_cons,
      List.lookup_nil] at hcount hset ⊢
    by_cases heq : key = other
    · subst heq
      simp only [hempty, decide_true, Bool.toNat_true, Option.toList_none, List.length_nil,
        Option.none_or, beq_self_eq_true, Option.toList_some, List.length_singleton]
        at hcount hset ⊢
      omega
    · rw [beq_false_of_ne (Ne.symm heq)]
      simp only [heq, decide_false, Bool.toNat_false, Option.or_none] at hset ⊢
      omega
  lookup_le_one := hsound.lookup_le_one
  lookup_up := hsound.lookup_up
  probe_exchange := by
    intro outcome houtcome
    obtain ⟨answer, hmem, hanswer⟩ := hsound.probe_exchange outcome houtcome
    exact ⟨answer, List.mem_append_left _ hmem, hanswer⟩
  exchange_probe := by
    intro answer hmem
    simp only [Run.answerLookup, List.mem_append, List.mem_singleton, reduceCtorEq,
      or_false] at hmem
    exact hsound.exchange_probe answer hmem

theorem probing_eq_zero (hnobody : ¬flight.calls.any CallState.isProbing = true) :
    flight.probing = 0 :=
  List.countP_eq_zero.2 fun state hmem hstate =>
    hnobody (List.any_eq_true.2 ⟨state, hmem, hstate⟩)

theorem lookingUp_eq_zero {key : LookupKey}
    (hnobody : ¬flight.calls.any (CallState.isLookingUp key) = true) :
    flight.lookingUp key = 0 :=
  List.countP_eq_zero.2 fun state hmem hstate =>
    hnobody (List.any_eq_true.2 ⟨state, hmem, hstate⟩)

/-- A step that leaves the run alone. -/
theorem Sound.move (hsound : Sound verifier called flight)
    (hold : flight.calls[index]? = some old)
    (hnew : ∀ call, called[index]? = some call → CallState.Fits verifier flight.run call new)
    (hprobing : new.isProbing = old.isProbing)
    (hlookingUp : ∀ key, new.isLookingUp key = old.isLookingUp key) :
    Sound verifier called ⟨flight.run, flight.calls.set index new⟩ :=
  hsound.quiet hold hnew hprobing hlookingUp rfl rfl rfl rfl

theorem Sound.step_called (hsound : Sound verifier called flight) {reference claimed : String}
    (hold : flight.calls[index]? = some (.called reference claimed)) :
    Sound verifier called (flight.step verifier index) := by
  cases hadmission : verifier.settings.admit reference claimed with
  | settled verdict =>
      simp only [Flight.step, hold, advance, hadmission]
      refine hsound.move hold ?_ rfl fun _ => rfl
      intro call hcall
      cases hsound.fits index call _ hcall hold
      exact .settled hadmission
  | lookup key =>
      simp only [Flight.step, hold, advance, hadmission]
      refine hsound.move hold ?_ rfl fun _ => rfl
      intro call hcall
      cases hsound.fits index call _ hcall hold
      exact .admitted hadmission

theorem Sound.step_admitted (hsound : Sound verifier called flight) {key : LookupKey}
    (hold : flight.calls[index]? = some (.admitted key)) :
    Sound verifier called (flight.step verifier index) := by
  have hkey : ∀ call, called[index]? = some call →
      verifier.settings.admit call.1 call.2 = .lookup key := by
    intro call hcall
    cases hsound.fits index call _ hcall hold with
    | admitted hkey => exact hkey
  cases hreachable : flight.run.reachable with
  | none =>
      simp only [Flight.step, hold, advance, hreachable]
      split
      · exact hsound.move hold (fun call hcall => .admitted (hkey call hcall)) rfl fun _ => rfl
      · next hnobody => exact hsound.sendProbe hold hreachable (probing_eq_zero hnobody)
  | some outcome =>
      cases outcome with
      | true =>
          simp only [Flight.step, hold, advance, hreachable]
          exact hsound.move hold (fun call hcall => .connected (hkey call hcall) hreachable) rfl
            fun _ => rfl
      | false =>
          simp only [Flight.step, hold, advance, hreachable]
          exact hsound.move hold (fun call hcall => .unreachable (hkey call hcall) hreachable) rfl
            fun _ => rfl

theorem Sound.step_probing (hsound : Sound verifier called flight) {key : LookupKey}
    (hold : flight.calls[index]? = some (.probing key)) :
    Sound verifier called (flight.step verifier index) := by
  have hkey : ∀ call, called[index]? = some call →
      verifier.settings.admit call.1 call.2 = .lookup key := by
    intro call hcall
    cases hsound.fits index call _ hcall hold with
    | probing hkey => exact hkey
  have houtcome : (flight.run.answerProbe verifier.transport).2.reachable =
      some (flight.run.answerProbe verifier.transport).1 := rfl
  have hanswer : flight.run.answerProbe verifier.transport =
      ((flight.run.answerProbe verifier.transport).1,
        (flight.run.answerProbe verifier.transport).2) := rfl
  simp only [Flight.step, hold, advance]
  cases hprobe : (flight.run.answerProbe verifier.transport).1 with
  | true =>
      rw [hprobe] at hanswer houtcome
      rw [hanswer]
      exact hsound.takeProbe hold ⟨rfl, fun _ => rfl⟩ fun call hcall =>
        .connected (hkey call hcall) houtcome
  | false =>
      rw [hprobe] at hanswer houtcome
      rw [hanswer]
      exact hsound.takeProbe hold ⟨rfl, fun _ => rfl⟩ fun call hcall =>
        .unreachable (hkey call hcall) houtcome

theorem Sound.step_connected (hsound : Sound verifier called flight) {key : LookupKey}
    (hold : flight.calls[index]? = some (.connected key)) :
    Sound verifier called (flight.step verifier index) := by
  have hlist : (flight.run.list key).reachable = flight.run.reachable ∧
      (flight.run.list key).verdicts = flight.run.verdicts ∧
      (flight.run.list key).requests = flight.run.requests ∧
      (flight.run.list key).exchanges = flight.run.exchanges := by
    unfold Run.list
    split <;> exact ⟨rfl, rfl, rfl, rfl⟩
  obtain ⟨hreachable, hverdicts, hrequests, hexchanges⟩ := hlist
  simp only [Flight.step, hold, advance]
  refine hsound.quiet hold ?_ rfl (fun _ => rfl) hreachable hverdicts hrequests hexchanges
  intro call hcall
  cases hsound.fits index call _ hcall hold with
  | connected hkey hup => exact .listed hkey (hreachable.trans hup)

theorem Sound.step_listed (hsound : Sound verifier called flight) {key : LookupKey}
    (hold : flight.calls[index]? = some (.listed key)) :
    Sound verifier called (flight.step verifier index) := by
  have hfits := fun call hcall => hsound.fits index call _ hcall hold
  cases hverdict : flight.run.verdicts.lookup key with
  | none =>
      simp only [Flight.step, hold, advance, hverdict]
      split
      · exact hsound.move hold hfits rfl fun _ => rfl
      · next hnobody => exact hsound.sendLookup hold hverdict (lookingUp_eq_zero hnobody)
  | some verdict =>
      simp only [Flight.step, hold, advance, hverdict]
      refine hsound.move hold ?_ rfl fun _ => rfl
      intro call hcall
      cases hfits call hcall with
      | listed hkey hup => exact .answered hkey hup hverdict

theorem Sound.step (hsound : Sound verifier called flight) (index : Nat) :
    Sound verifier called (flight.step verifier index) := by
  cases hold : flight.calls[index]? with
  | none =>
      rw [Flight.step, hold]
      exact hsound
  | some old =>
      cases old with
      | called reference claimed => exact hsound.step_called hold
      | admitted key => exact hsound.step_admitted hold
      | probing key => exact hsound.step_probing hold
      | connected key => exact hsound.step_connected hold
      | listed key => exact hsound.step_listed hold
      | lookingUp key =>
          simp only [Flight.step, hold, advance]
          exact hsound.takeLookup hold
      | finished verdict =>
          simp only [Flight.step, hold, advance]
          exact hsound.move hold (fun call hcall => hsound.fits index call _ hcall hold) rfl
            fun _ => rfl

theorem Sound.follow (hsound : Sound verifier called flight) (schedule : List Nat) :
    Sound verifier called (flight.follow verifier schedule) := by
  induction schedule generalizing flight with
  | nil => exact hsound
  | cons index schedule ih => exact ih (hsound.step index)

end Step

/-! ## Every call can be brought to its end -/

/-- The steps that are left to all calls together. -/
def remaining (flight : Flight σ) : Nat :=
  (flight.calls.map CallState.remaining).foldr (· + ·) 0

/-- A call moves on when nobody waits for the service, and so does one that waits itself. -/
theorem advance_remaining_lt (verifier : Verifier σ) {flight : Flight σ} {state : CallState}
    (hopen : state.remaining ≠ 0)
    (hfree : (flight.calls.any CallState.isProbing = false ∧
        ∀ key, flight.calls.any (CallState.isLookingUp key) = false) ∨
      state.isProbing = true ∨ ∃ key, state.isLookingUp key = true) :
    (flight.advance verifier state).1.remaining < state.remaining := by
  cases state with
  | called reference claimed =>
      simp only [advance]
      split <;> simp [CallState.remaining]
  | admitted key =>
      obtain ⟨hprobing, -⟩ | hstate | ⟨_, hstate⟩ := hfree
      · rw [advance, hprobing]
        split <;> simp [CallState.remaining]
      · cases hstate
      · cases hstate
  | probing key =>
      simp only [advance]
      split <;> simp [CallState.remaining]
  | connected key => simp [advance, CallState.remaining]
  | listed key =>
      obtain ⟨-, hlookingUp⟩ | hstate | ⟨_, hstate⟩ := hfree
      · rw [advance, hlookingUp]
        split <;> simp [CallState.remaining]
      · cases hstate
      · cases hstate
  | lookingUp key => exact Nat.one_pos
  | finished verdict => exact absurd rfl hopen

theorem foldr_add_set {items : List Nat} {index old : Nat} (hold : items[index]? = some old)
    (new : Nat) :
    (items.set index new).foldr (· + ·) 0 + old = items.foldr (· + ·) 0 + new := by
  induction items generalizing index with
  | nil => cases hold
  | cons item items ih =>
      cases index with
      | zero =>
          cases hold
          simp only [List.set_cons_zero, List.foldr_cons]
          omega
      | succ index =>
          have := ih hold
          simp only [List.set_cons_succ, List.foldr_cons]
          omega

theorem step_remaining_lt (verifier : Verifier σ) {flight : Flight σ} {index : Nat}
    {state : CallState} (hstate : flight.calls[index]? = some state)
    (hadvance : (flight.advance verifier state).1.remaining < state.remaining) :
    (flight.step verifier index).remaining < flight.remaining := by
  have hold : (flight.calls.map CallState.remaining)[index]? = some state.remaining := by
    rw [List.getElem?_map, hstate]
    rfl
  have hsum := foldr_add_set hold (flight.advance verifier state).1.remaining
  simp only [step, hstate, remaining, List.map_set]
  omega

theorem exists_step_remaining_lt (verifier : Verifier σ) {flight : Flight σ}
    (hopen : ∃ state ∈ flight.calls, state.remaining ≠ 0) :
    ∃ index, (flight.step verifier index).remaining < flight.remaining := by
  have hmove : ∀ state ∈ flight.calls,
      (flight.advance verifier state).1.remaining < state.remaining →
        ∃ index, (flight.step verifier index).remaining < flight.remaining := by
    intro state hmem hadvance
    obtain ⟨index, hindex⟩ := List.mem_iff_getElem?.1 hmem
    exact ⟨index, step_remaining_lt verifier hindex hadvance⟩
  -- A call that waits for the service is moved first, because others may wait for it.
  by_cases hprobing : ∃ state ∈ flight.calls, state.isProbing = true
  · obtain ⟨state, hmem, hstate⟩ := hprobing
    refine hmove state hmem (advance_remaining_lt verifier ?_ (.inr (.inl hstate)))
    cases state <;> simp_all [CallState.isProbing, CallState.remaining]
  by_cases hlookingUp : ∃ key, ∃ state ∈ flight.calls, state.isLookingUp key = true
  · obtain ⟨key, state, hmem, hstate⟩ := hlookingUp
    refine hmove state hmem (advance_remaining_lt verifier ?_ (.inr (.inr ⟨key, hstate⟩)))
    cases state <;> simp_all [CallState.isLookingUp, CallState.remaining]
  obtain ⟨state, hmem, hstate⟩ := hopen
  refine hmove state hmem (advance_remaining_lt verifier hstate (.inl ⟨?_, fun key => ?_⟩))
  · simpa [List.any_eq_false] using hprobing
  · simp only [not_exists, not_and, Bool.not_eq_true] at hlookingUp
    exact List.any_eq_false.2 fun other hother => by simp [hlookingUp key other hother]

/-- Whatever has happened so far, there are steps that finish all calls. -/
theorem exists_follow_finished (verifier : Verifier σ) (flight : Flight σ) :
    ∃ schedule, ∀ state ∈ (flight.follow verifier schedule).calls,
      ∃ verdict, state = .finished verdict := by
  induction hsteps : flight.remaining using Nat.strongRecOn generalizing flight with
  | ind steps ih =>
    by_cases hopen : ∃ state ∈ flight.calls, state.remaining ≠ 0
    · obtain ⟨index, hlt⟩ := exists_step_remaining_lt verifier hopen
      obtain ⟨schedule, hfinished⟩ := ih _ (hsteps ▸ hlt) (flight.step verifier index) rfl
      exact ⟨index :: schedule, hfinished⟩
    · refine ⟨[], ?_⟩
      intro state hmem
      have hzero : state.remaining = 0 := by
        by_contra hne
        exact hopen ⟨state, hmem, hne⟩
      cases state <;> first | exact ⟨_, rfl⟩ | cases hzero

/-! ## A service that answers by key -/

/-- What a run has kept is what the service would answer in the given state. -/
structure Agrees (verifier : Verifier σ) (service : σ) (run : Run σ) : Prop where
  reachable : ∀ outcome, run.reachable = some outcome →
    (verifier.transport.probe service).1.toBool = outcome
  verdicts : ∀ key verdict, run.verdicts.lookup key = some verdict →
    .ofAnswer verifier.mode
      (verifier.transport.commitStatus key.repo key.sha service).1 = verdict

section Keyed

variable {verifier : Verifier σ} {service : σ} {flight : Flight σ} {run : Run σ}

theorem Agrees.answerProbe (hkeyed : verifier.transport.KeyedAnswers)
    (hagrees : Agrees verifier service run) :
    Agrees verifier service (run.answerProbe verifier.transport).2 where
  reachable := by
    intro outcome houtcome
    cases houtcome
    rw [hkeyed.probe service run.service]
  verdicts := hagrees.verdicts

theorem Agrees.answerLookup (hkeyed : verifier.transport.KeyedAnswers)
    (hagrees : Agrees verifier service run) (key : LookupKey) :
    Agrees verifier service (run.answerLookup verifier.transport verifier.mode key).2 where
  reachable := hagrees.reachable
  verdicts := by
    intro other verdict hverdict
    simp only [Run.answerLookup, List.lookup_append, List.lookup_cons, List.lookup_nil,
      Option.or_eq_some_iff] at hverdict
    obtain hearlier | ⟨-, hnew⟩ := hverdict
    · exact hagrees.verdicts other verdict hearlier
    · by_cases heq : other = key
      · subst heq
        simp only [beq_self_eq_true, Option.some.injEq] at hnew
        rw [← hnew, hkeyed.lookup other.repo other.sha service run.service]
      · rw [beq_false_of_ne heq] at hnew
        cases hnew

theorem Agrees.advance (hkeyed : verifier.transport.KeyedAnswers)
    (hagrees : Agrees verifier service flight.run) (state : CallState) :
    Agrees verifier service (flight.advance verifier state).2 := by
  have hsend : ∀ request, Agrees verifier service (flight.run.send request) := fun _ =>
    ⟨hagrees.reachable, hagrees.verdicts⟩
  cases state with
  | called reference claimed =>
      simp only [Flight.advance]
      split <;> exact hagrees
  | admitted key =>
      simp only [Flight.advance]
      split
      · exact hagrees
      · exact hagrees
      · split
        · exact hagrees
        · exact hsend _
  | probing key =>
      have hanswered := hagrees.answerProbe hkeyed
      simp only [Flight.advance]
      split <;> next heq => rw [heq] at hanswered; exact hanswered
  | connected key =>
      simp only [Flight.advance, Run.list]
      split
      · exact hagrees
      · exact ⟨hagrees.reachable, hagrees.verdicts⟩
  | listed key =>
      simp only [Flight.advance]
      split
      · exact hagrees
      · split
        · exact hagrees
        · exact hsend _
  | lookingUp key => exact hagrees.answerLookup hkeyed key
  | finished verdict => exact hagrees

theorem Agrees.follow (hkeyed : verifier.transport.KeyedAnswers)
    (hagrees : Agrees verifier service flight.run) (schedule : List Nat) :
    Agrees verifier service (flight.follow verifier schedule).run := by
  induction schedule generalizing flight with
  | nil => exact hagrees
  | cons index schedule ih =>
      refine ih ?_
      unfold Flight.step
      split
      · exact hagrees
      · exact hagrees.advance hkeyed _

/-- A service that answers by key gives every order of keys the same answers. -/
theorem eq_of_lookup_lookUpEach (hkeyed : verifier.transport.KeyedAnswers)
    {keys : List LookupKey} {state : σ} {key : LookupKey} {answer : Except TransportFault Nat}
    (hanswer : (verifier.transport.lookUpEach keys state).1.lookup key = some answer) :
    (verifier.transport.commitStatus key.repo key.sha service).1 = answer := by
  induction keys generalizing state with
  | nil => cases hanswer
  | cons first keys ih =>
      simp only [Transport.lookUpEach, List.lookup_cons] at hanswer
      by_cases heq : key = first
      · subst heq
        simp only [beq_self_eq_true, Option.some.injEq] at hanswer
        rw [← hanswer, hkeyed.lookup key.repo key.sha service state]
      · rw [beq_false_of_ne heq] at hanswer
        exact ih hanswer

/-- What a finished call has got is what the ladder without memory gives it. -/
theorem eq_of_fits_of_judges (hkeyed : verifier.transport.KeyedAnswers)
    (hagrees : Agrees verifier service run) {call : String × String} {left right : Verdict}
    (hfits : CallState.Fits verifier run call (.finished left)) {keys : List LookupKey}
    {state : σ}
    (hjudged : verifier.Judges (verifier.transport.probe service).1.toBool
      (verifier.transport.lookUpEach keys state).1 call right) : left = right := by
  obtain ⟨verdict, hadmission, hrung, hnone⟩ | ⟨key, hadmission, hrung, hkey⟩ :=
    verifier.settings.admit_cases call
  · cases hfits with
    | settled hsettled =>
        cases hjudged <;> simp_all
    | unreachable hlookup hdown => simp_all
    | answered hlookup hup hverdict => simp_all
  · cases hfits with
    | settled hsettled => simp_all
    | unreachable hlookup hdown =>
        have hprobe := hagrees.reachable _ hdown
        cases hjudged <;> simp_all
    | answered hlookup hup hverdict =>
        have hprobe := hagrees.reachable _ hup
        have hkept := hagrees.verdicts _ _ hverdict
        rw [hadmission] at hlookup
        cases hlookup
        cases hjudged with
        | settled hsome => simp_all
        | unreachable _ hdown => simp_all
        | answered hother _ hanswer =>
            rw [hkey] at hother
            cases hother
            rw [← hkept, eq_of_lookup_lookUpEach hkeyed hanswer]

end Keyed

/-! ## What every reachable state satisfies -/

/-- A finished call that got past the rungs has the run's verdict on its key. -/
theorem verdict_of_fits_key {verifier : Verifier σ} {run : Run σ} {call : String × String}
    {key : LookupKey} {verdict : Verdict} (hkey : verifier.settings.key? call = some key)
    (hfits : CallState.Fits verifier run call (.finished verdict)) :
    (run.reachable = some false ∧ verdict = Verdict.unreachable verifier.mode) ∨
      (run.reachable = some true ∧ run.verdicts.lookup key = some verdict) := by
  obtain ⟨_, hadmission, -, hnone⟩ | ⟨other, hadmission, -, hother⟩ :=
    verifier.settings.admit_cases call
  · rw [hkey] at hnone
    cases hnone
  · rw [hkey] at hother
    cases hother
    cases hfits with
    | settled hrung =>
        rw [hadmission] at hrung
        cases hrung
    | unreachable hlookup hdown => exact .inl ⟨hdown, rfl⟩
    | answered hlookup hup hverdict =>
        rw [hadmission] at hlookup
        cases hlookup
        exact .inr ⟨hup, hverdict⟩

/-- Calls started together on a fresh run, in any state that steps in any order
lead to.  The service has seen at most one probe and at most one lookup of each
key, the lookups only after the probe was answered well; calls with one key have
one verdict; a service that answers by key gives each call what it gets when the
calls are made one after the other in any order; and all calls can be brought to
their end. -/
theorem follow_single_flight (verifier : Verifier σ) (service : σ)
    (called : List (String × String)) (schedule : List Nat) :
    let flight := (start called (Run.fresh service)).follow verifier schedule
    flight.run.requests.count .probe ≤ 1 ∧
      (∀ key : LookupKey, flight.run.requests.count key.request ≤ 1) ∧
      (∀ key : LookupKey, key.request ∈ flight.run.requests →
        .probe (.ok ()) ∈ flight.run.exchanges) ∧
      (∀ fault, .probe (.error fault) ∈ flight.run.exchanges →
        ∀ key : LookupKey, key.request ∉ flight.run.requests) ∧
      (∀ (i j : Nat) (left right : String × String) (key : LookupKey) (first second : Verdict),
        called[i]? = some left → called[j]? = some right →
        verifier.settings.key? left = some key → verifier.settings.key? right = some key →
        flight.calls[i]? = some (.finished first) → flight.calls[j]? = some (.finished second) →
        first = second) ∧
      (verifier.transport.KeyedAnswers → ∀ order : List (String × String), order.Perm called →
        ∀ (i k : Nat) (call : String × String) (verdict : Verdict),
          called[i]? = some call → order[k]? = some call →
          flight.calls[i]? = some (.finished verdict) →
          (verifier.verifyEach order (Run.fresh service)).1[k]? = some verdict) ∧
      ∃ more, ∀ state ∈ (flight.follow verifier more).calls,
        ∃ verdict, state = .finished verdict := by
  intro flight
  have hsound : Sound verifier called flight :=
    (sound_start verifier called service).follow schedule
  refine ⟨hsound.probe_le_one, hsound.lookup_le_one, ?_, ?_, ?_, ?_,
    exists_follow_finished verifier flight⟩
  · intro key hmem
    obtain ⟨answer, hexchange, hanswer⟩ := hsound.probe_exchange _ (hsound.lookup_up key hmem)
    cases answer with
    | ok => exact hexchange
    | error fault => cases hanswer
  · intro fault hexchange key hmem
    have hdown := hsound.exchange_probe _ hexchange
    rw [hsound.lookup_up key hmem] at hdown
    cases hdown
  · intro i j left right key first second hleft hright hkey hkey' hfirst hsecond
    have hone := verdict_of_fits_key hkey (hsound.fits i left _ hleft hfirst)
    have htwo := verdict_of_fits_key hkey' (hsound.fits j right _ hright hsecond)
    obtain ⟨hreachable, hone⟩ | ⟨hreachable, hone⟩ := hone <;>
      rw [hreachable] at htwo <;> simp_all
  · intro hkeyed order _ i k call verdict hcall horder hfinished
    have hstart : Agrees verifier service (start called (Run.fresh service)).run :=
      ⟨by simp [start, Run.fresh], by simp [start, Run.fresh]⟩
    have hagrees : Agrees verifier service flight.run := hstart.follow hkeyed schedule
    obtain ⟨hjudged, -⟩ := verifier.verifyEach_runAfter service [] order
    obtain ⟨hlength, hjudged⟩ := List.forall₂_iff_get.1 hjudged
    obtain ⟨hlt, rfl⟩ := List.getElem?_eq_some_iff.1 horder
    rw [List.getElem?_eq_getElem (hlength ▸ hlt), Option.some_inj]
    exact (eq_of_fits_of_judges hkeyed hagrees (hsound.fits i _ _ hcall hfinished)
      (hjudged k hlt (hlength ▸ hlt))).symm

/-- A repository in two spellings, with a commit that it does not have: the calls
overlap, and each gets what it gets when the second one is made first. -/
theorem follow_single_flight_two_spellings :
    let transport : Transport Unit :=
      { probe := fun service => (.ok (), service)
        commitStatus := fun _ _ service => (.ok 404, service) }
    let verifier : Verifier Unit := ⟨{}, .strict, transport⟩
    let sub := ("owner/repo/sub", "ABCDEF0123456789abcdef0123456789abcdef01")
    let whole := ("owner/repo", "abcdef0123456789abcdef0123456789abcdef01")
    transport.KeyedAnswers ∧ [whole, sub].Perm [sub, whole] ∧
      (verifier.verifyEach [whole, sub] (Run.fresh ())).1[1]? =
        some (.failed .refNotFound) := by
  intro transport verifier sub whole
  have hkeyed : transport.KeyedAnswers := ⟨fun _ _ => rfl, fun _ _ _ _ => rfl⟩
  have hperm : [whole, sub].Perm [sub, whole] := .swap sub whole []
  obtain ⟨-, -, -, -, -, hsame, -⟩ :=
    follow_single_flight verifier () [sub, whole] [0, 0, 1, 1, 0, 1, 1, 0, 0, 1, 0, 1]
  refine ⟨hkeyed, hperm, hsame hkeyed [whole, sub] hperm 0 1 sub _ rfl rfl ?_⟩
  decide +kernel

end Flight

end WorkflowAudit
