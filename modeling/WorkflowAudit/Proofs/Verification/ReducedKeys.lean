import WorkflowAudit.Proofs.Verification.KeptAnswers
import WorkflowAudit.Verification.Overlap
import WorkflowAudit.Verification.Script

/-!
# Only reduced keys reach the service

References and claimed commits are texts of unknown origin, and what is asked for at
the service is pasted into the address of a request.  A call gets as far as a request
only with a key: an owner and a repository of a few plain characters each, and a commit
of forty lower-case hexadecimal digits.  A run gains requests, answers, cells and
verdicts on such keys and on no others, in whatever state it was and however its calls
overlap.
-/

namespace WorkflowAudit

open Text

/-! ## Keys -/

/-- A key that holds nothing but the slug of a repository and a commit in lower case. -/
structure LookupKey.IsReduced (key : LookupKey) : Prop where
  repo : ∃ owner name : List Char, key.repo.toList = owner ++ '/' :: name ∧
    RemoteReference.IsSegment owner ∧ RemoteReference.IsSegment name
  one_slash : key.repo.toList.count '/' = 1
  sha_length : key.sha.toList.length = 40
  sha_digits : ∀ c ∈ key.sha.toList, isDecimalDigit c = true ∨ 'a' ≤ c ∧ c ≤ 'f'

theorem isDecimalDigit_or_of_toLower {c : Char} (hc : isHexDigit c = true) :
    isDecimalDigit c.toLower = true ∨ 'a' ≤ c.toLower ∧ c.toLower ≤ 'f' := by
  have hshift : ('a'.val - 'A'.val).toNat = 32 := rfl
  have hbounds : '0'.val.toNat = 48 ∧ '9'.val.toNat = 57 ∧ 'A'.val.toNat = 65 ∧
      'F'.val.toNat = 70 ∧ 'Z'.val.toNat = 90 ∧ 'a'.val.toNat = 97 ∧ 'f'.val.toNat = 102 := by
    decide
  simp only [isHexDigit, isDecimalDigit, Bool.or_eq_true, Bool.and_eq_true, decide_eq_true_eq,
    Char.le_def, UInt32.le_iff_toNat_le] at hc ⊢
  unfold Char.toLower
  split
  · next hupper =>
      simp only [ge_iff_le, UInt32.le_iff_toNat_le] at hupper
      simp only [UInt32.toNat_add]
      omega
  · next hother =>
      simp only [ge_iff_le, UInt32.le_iff_toNat_le] at hother
      omega

theorem RemoteReference.Grammatical.slug_isReduced {r : RemoteReference} (hr : r.Grammatical)
    {claimed : String} (hsha : isFullSha claimed = true) :
    LookupKey.IsReduced ⟨r.slug, lowerAsciiString claimed⟩ := by
  obtain ⟨hlength, hhex⟩ := isFullSha_iff.1 hsha
  have hslug : r.slug.toList = r.owner.toList ++ '/' :: r.repo.toList := by
    simp [RemoteReference.slug]
  constructor
  · exact ⟨_, _, hslug, hr.owner, hr.repo⟩
  · simp [hslug, List.count_append, List.count_eq_zero.2 hr.owner.slash_not_mem,
      List.count_eq_zero.2 hr.repo.slash_not_mem]
  · simpa [lowerAsciiString, lowerAscii] using hlength
  · intro c hc
    simp only [lowerAsciiString, lowerAscii, String.toList_ofList, List.mem_map] at hc
    obtain ⟨upper, hupper, rfl⟩ := hc
    exact isDecimalDigit_or_of_toLower (hhex upper hupper)

/-- What a call is looked up under: a repository and a full commit that were read from its
two texts. -/
theorem VerifierSettings.exists_repo_of_admit {settings : VerifierSettings}
    {reference claimed : String} {key : LookupKey}
    (hkey : settings.admit reference claimed = .lookup key) :
    isFullSha (trimString claimed) = true ∧ ∃ r,
      RemoteReference.parse (trimString reference) = .ok r ∧
        key = ⟨r.slug, lowerAsciiString (trimString claimed)⟩ := by
  unfold VerifierSettings.admit normalizeRepo at hkey
  dsimp only at hkey
  -- Every rung but the last one settles the call.
  split at hkey
  · cases hkey
  split at hkey
  · cases hkey
  split at hkey
  · cases hkey
  split at hkey
  · cases hkey
  next hsha =>
    cases hread : RemoteReference.parse (trimString reference) with
    | error fault => simp [hread, Except.map] at hkey
    | ok r =>
        simp only [hread, Except.map, Admission.lookup.injEq] at hkey
        exact ⟨by simpa using hsha, r, rfl, hkey.symm⟩

/-- Whatever the two texts are, the rungs let nothing but a reduced key through. -/
theorem VerifierSettings.isReduced_of_admit {settings : VerifierSettings}
    {reference claimed : String} {key : LookupKey}
    (hkey : settings.admit reference claimed = .lookup key) : key.IsReduced := by
  obtain ⟨hsha, r, hread, rfl⟩ := VerifierSettings.exists_repo_of_admit hkey
  exact (RemoteReference.grammatical_of_parse hread).slug_isReduced hsha

/-! ## What a run gains -/

/-- A lookup of a reduced key, or the probe, which names no key. -/
def Request.IsReduced : Request → Prop
  | .probe => True
  | .lookup repo sha => LookupKey.IsReduced ⟨repo, sha⟩

def Exchange.IsReduced : Exchange → Prop
  | .probe _ => True
  | .lookup repo sha _ => LookupKey.IsReduced ⟨repo, sha⟩

/-- A list that begins with another one and goes on with items of a kind. -/
def Continues {α : Type} (p : α → Prop) (items more : List α) : Prop :=
  ∃ added, more = items ++ added ∧ ∀ item ∈ added, p item

section

variable {α : Type} {p : α → Prop} {items more : List α}

theorem Continues.refl (p : α → Prop) (items : List α) : Continues p items items :=
  ⟨[], (List.append_nil items).symm, by simp⟩

theorem Continues.trans (hmore : Continues p items more) {most : List α}
    (hmost : Continues p more most) : Continues p items most := by
  obtain ⟨first, rfl, hfirst⟩ := hmore
  obtain ⟨second, rfl, hsecond⟩ := hmost
  refine ⟨first ++ second, List.append_assoc .., fun item hitem => ?_⟩
  rcases List.mem_append.1 hitem with hitem | hitem
  · exact hfirst item hitem
  · exact hsecond item hitem

theorem continues_append_singleton {item : α} (hitem : p item) :
    Continues p items (items ++ [item]) :=
  ⟨[item], rfl, by simpa using hitem⟩

end

/-- What a run gains on the way to a later one, all of it on reduced keys. -/
structure Run.Gains {σ : Type} (run next : Run σ) : Prop where
  requests : Continues Request.IsReduced run.requests next.requests
  exchanges : Continues Exchange.IsReduced run.exchanges next.exchanges
  cells : Continues LookupKey.IsReduced run.cells next.cells
  verdicts : Continues (fun entry => entry.1.IsReduced) run.verdicts next.verdicts

namespace Run

variable {σ : Type} {run next last : Run σ} {key : LookupKey}

theorem Gains.refl (run : Run σ) : run.Gains run :=
  ⟨.refl .., .refl .., .refl .., .refl ..⟩

theorem Gains.trans (hnext : run.Gains next) (hlast : next.Gains last) : run.Gains last :=
  ⟨hnext.requests.trans hlast.requests, hnext.exchanges.trans hlast.exchanges,
    hnext.cells.trans hlast.cells, hnext.verdicts.trans hlast.verdicts⟩

theorem gains_send (run : Run σ) (request : Request) (hrequest : request.IsReduced) :
    run.Gains (run.send request) :=
  ⟨continues_append_singleton hrequest, .refl .., .refl .., .refl ..⟩

theorem gains_list (run : Run σ) (hkey : key.IsReduced) : run.Gains (run.list key) := by
  unfold Run.list
  split
  · exact .refl run
  · exact ⟨.refl .., .refl .., continues_append_singleton hkey, .refl ..⟩

theorem gains_answerProbe (run : Run σ) (transport : Transport σ) :
    run.Gains (run.answerProbe transport).2 :=
  ⟨.refl .., continues_append_singleton trivial, .refl .., .refl ..⟩

theorem gains_answerLookup (run : Run σ) (transport : Transport σ) (mode : ExecutionMode)
    (hkey : key.IsReduced) : run.Gains (run.answerLookup transport mode key).2 :=
  ⟨.refl .., continues_append_singleton hkey, .refl .., continues_append_singleton hkey⟩

theorem gains_ensureProbed (run : Run σ) (transport : Transport σ) :
    run.Gains (run.ensureProbed transport).2 := by
  unfold Run.ensureProbed
  split
  · exact .refl run
  · exact (run.gains_send .probe trivial).trans (gains_answerProbe _ transport)

theorem gains_ensureLookedUp (run : Run σ) (transport : Transport σ) (mode : ExecutionMode)
    (hkey : key.IsReduced) : run.Gains (run.ensureLookedUp transport mode key).2 := by
  have hlisted := run.gains_list hkey
  unfold Run.ensureLookedUp
  dsimp only
  split
  · exact hlisted
  · have hsent := hlisted.trans
      ((run.list key).gains_send (.lookup key.repo key.sha) hkey)
    exact hsent.trans (gains_answerLookup _ transport mode hkey)

end Run

/-! ## Calls one after the other -/

section

variable {σ : Type} (verifier : Verifier σ)

theorem Verifier.gains_verify (reference claimed : String) (run : Run σ) :
    run.Gains (verifier.verify reference claimed run).2 := by
  unfold Verifier.verify
  cases hrung : verifier.settings.admit reference claimed with
  | settled verdict => exact .refl run
  | lookup key =>
      have hprobed := run.gains_ensureProbed verifier.transport
      dsimp only
      cases hprobe : run.ensureProbed verifier.transport with
      | mk reachable probed =>
          rw [hprobe] at hprobed
          cases reachable with
          | false => exact hprobed
          | true =>
              exact hprobed.trans (probed.gains_ensureLookedUp verifier.transport verifier.mode
                (VerifierSettings.isReduced_of_admit hrung))

theorem Verifier.gains_verifyEach (calls : List (String × String)) (run : Run σ) :
    run.Gains (verifier.verifyEach calls run).2 := by
  induction calls generalizing run with
  | nil => exact .refl run
  | cons call calls ih =>
      obtain ⟨reference, claimed⟩ := call
      simp only [Verifier.verifyEach]
      exact (verifier.gains_verify reference claimed run).trans
        (ih (verifier.verify reference claimed run).2)

/-! ## Calls that overlap -/

/-- The key that a call is on its way with. -/
def CallState.key? : CallState → Option LookupKey
  | .called .. | .finished _ => none
  | .admitted key | .probing key | .connected key | .listed key | .lookingUp key => some key

/-- A call that has no key, or a reduced one. -/
def CallState.IsReduced (state : CallState) : Prop :=
  ∀ key, state.key? = some key → key.IsReduced

namespace Flight

variable {flight : Flight σ}

/-- One step of a call, whatever the other calls are waiting for. -/
theorem gains_advance (flight : Flight σ) {state : CallState} (hstate : state.IsReduced) :
    (flight.advance verifier state).1.IsReduced ∧
      flight.run.Gains (flight.advance verifier state).2 := by
  have hfinished : ∀ verdict, (CallState.finished verdict).IsReduced := fun _ _ hkey => by
    cases hkey
  cases state with
  | called reference claimed =>
      simp only [advance]
      split
      · exact ⟨hfinished _, .refl _⟩
      · next key hrung =>
          refine ⟨fun other hother => ?_, .refl _⟩
          cases hother
          exact VerifierSettings.isReduced_of_admit hrung
  | admitted key =>
      have hkey := hstate key rfl
      simp only [advance]
      split
      · exact ⟨hstate, .refl _⟩
      · exact ⟨hfinished _, .refl _⟩
      · split
        · exact ⟨hstate, .refl _⟩
        · exact ⟨hstate, flight.run.gains_send .probe trivial⟩
  | probing key =>
      have hanswered := flight.run.gains_answerProbe verifier.transport
      simp only [advance]
      split
      · next heq =>
          rw [heq] at hanswered
          exact ⟨hstate, hanswered⟩
      · next heq =>
          rw [heq] at hanswered
          exact ⟨hfinished _, hanswered⟩
  | connected key => exact ⟨hstate, flight.run.gains_list (hstate key rfl)⟩
  | listed key =>
      simp only [advance]
      split
      · exact ⟨hfinished _, .refl _⟩
      · split
        · exact ⟨hstate, .refl _⟩
        · exact ⟨hstate, flight.run.gains_send (.lookup key.repo key.sha) (hstate key rfl)⟩
  | lookingUp key =>
      exact ⟨hfinished _, flight.run.gains_answerLookup verifier.transport verifier.mode
        (hstate key rfl)⟩
  | finished verdict => exact ⟨hfinished verdict, .refl _⟩

theorem gains_step (hcalls : ∀ state ∈ flight.calls, state.IsReduced) (index : Nat) :
    (∀ state ∈ (flight.step verifier index).calls, state.IsReduced) ∧
      flight.run.Gains (flight.step verifier index).run := by
  unfold step
  cases hcall : flight.calls[index]? with
  | none => exact ⟨hcalls, .refl _⟩
  | some call =>
      obtain ⟨hnext, hgains⟩ :=
        gains_advance verifier flight (hcalls call (List.mem_of_getElem? hcall))
      refine ⟨fun state hstate => ?_, hgains⟩
      rcases List.mem_or_eq_of_mem_set hstate with hstate | rfl
      · exact hcalls state hstate
      · exact hnext

theorem gains_follow (hcalls : ∀ state ∈ flight.calls, state.IsReduced) (schedule : List Nat) :
    flight.run.Gains (flight.follow verifier schedule).run := by
  induction schedule generalizing flight with
  | nil => exact .refl _
  | cons index schedule ih =>
      obtain ⟨hnext, hgains⟩ := gains_step verifier hcalls index
      exact hgains.trans (ih hnext)

/-- Calls with any texts whatever, in any state of the run and in any order of their
steps, add nothing to the requests of the run, to the answers it has received, to its
cells and to its verdicts but what is on reduced keys.  The same holds of calls that are
made one after the other.  A run that starts without cells therefore never has one for
any other key. -/
theorem follow_only_on_reduced_keys (called : List (String × String)) (run : Run σ)
    (schedule : List Nat) :
    run.Gains ((start called run).follow verifier schedule).run ∧
      run.Gains (verifier.verifyEach called run).2 ∧
      ∀ service, ∀ key ∈ ((start called (Run.fresh service)).follow verifier schedule).run.cells,
        key.IsReduced := by
  have hstart : ∀ run : Run σ, ∀ state ∈ (start called run).calls, state.IsReduced := by
    intro run state hstate key hkey
    obtain ⟨call, -, rfl⟩ := List.mem_map.1 hstate
    cases hkey
  refine ⟨gains_follow verifier (hstart run) schedule, verifier.gains_verifyEach called run, ?_⟩
  intro service key hkey
  obtain ⟨listed, hcells, hlisted⟩ :=
    (gains_follow verifier (hstart (Run.fresh service)) schedule).cells
  have hnone : (start called (Run.fresh service)).run.cells = [] := rfl
  rw [hnone, List.nil_append] at hcells
  exact hlisted key (hcells ▸ hkey)

/-- The first call is refused for its repository.  The second one loses blanks, subpath
and case on the way to the service. -/
example :
    (Verifier.verifyEach ⟨{}, .strict, ScriptedService.transport⟩
      [("owner/..", "ABCDEF0123456789ABCDEF0123456789ABCDEF01"),
        (" owner/repo/sub@x y ", "\tABCDEF0123456789ABCDEF0123456789ABCDEF01 ")]
      (Run.fresh {})).2.requests =
    [.probe, .lookup "owner/repo" "abcdef0123456789abcdef0123456789abcdef01"] := by
  decide +kernel

end Flight

end

end WorkflowAudit
