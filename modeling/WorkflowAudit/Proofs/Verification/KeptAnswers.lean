import WorkflowAudit.Proofs.Reference.Remote
import WorkflowAudit.Proofs.Verification.SequentialRun

/-!
# What a run answers comes from the service

A verdict that is kept in a cell stands for an answer that was received in the
run, and answers are never forgotten.  A strict verifier that is turned on can
therefore vouch for a pinned reference in one way only: the service was asked
for its repository and commit in this run and said that the commit exists.
-/

namespace WorkflowAudit

open Text

/-! ## Verdicts -/

theorem Verdict.ofAnswer_cases (mode : ExecutionMode) (answer : Except TransportFault Nat) :
    (ofAnswer mode answer).ok = true ∨ ∃ kind, ofAnswer mode answer = failed kind := by
  cases answer with
  | ok status =>
      simp only [ofAnswer, ofStatus]
      split
      · exact .inl rfl
      all_goals exact .inr ⟨_, rfl⟩
  | error fault => cases mode <;> simp [ofAnswer, unreachable, ExecutionMode.isStrict, bypass]

theorem Verdict.ofAnswer_strict_ok {answer : Except TransportFault Nat}
    (hok : (ofAnswer .strict answer).ok = true) : answer = .ok 200 := by
  cases answer with
  | ok status =>
      simp only [ofAnswer, ofStatus] at hok
      split at hok
      · rfl
      all_goals cases hok
  | error fault => cases hok

section

variable {σ : Type} {verifier : Verifier σ} {run : Run σ}

/-! ## Runs -/

/-- An entry at the end of a table is found where its key was missing. -/
theorem lookup_append_entry {α β : Type} [BEq α] [LawfulBEq α] {table : List (α × β)}
    {key other : α} {value found : β}
    (hfound : (table ++ [(key, value)]).lookup other = some found) :
    table.lookup other = some found ∨ other = key ∧ found = value := by
  simp only [List.lookup_append, List.lookup_cons, List.lookup_nil,
    Option.or_eq_some_iff] at hfound
  obtain hearlier | ⟨-, hnew⟩ := hfound
  · exact .inl hearlier
  · by_cases heq : other = key
    · subst heq
      simp only [beq_self_eq_true, Option.some.injEq] at hnew
      exact .inr ⟨rfl, hnew.symm⟩
    · rw [beq_false_of_ne heq] at hnew
      cases hnew

/-- Every cell holds the verdict on an answer that the run has received. -/
def Run.Kept (mode : ExecutionMode) (run : Run σ) : Prop :=
  ∀ key verdict, run.verdicts.lookup key = some verdict →
    ∃ answer, verdict = .ofAnswer mode answer ∧ key.exchange answer ∈ run.exchanges

theorem Run.kept_fresh (mode : ExecutionMode) (service : σ) : (Run.fresh service).Kept mode := by
  intro key verdict hverdict
  cases hverdict

theorem Run.Kept.of_eq {mode : ExecutionMode} {next : Run σ} (hkept : run.Kept mode)
    (hverdicts : next.verdicts = run.verdicts) (hexchanges : run.exchanges <+: next.exchanges) :
    next.Kept mode := by
  intro key verdict hverdict
  rw [hverdicts] at hverdict
  obtain ⟨answer, hanswer, hmem⟩ := hkept key verdict hverdict
  exact ⟨answer, hanswer, hexchanges.subset hmem⟩

theorem Run.verdicts_list (key : LookupKey) (run : Run σ) :
    (run.list key).verdicts = run.verdicts ∧ (run.list key).exchanges = run.exchanges := by
  unfold Run.list
  split <;> exact ⟨rfl, rfl⟩

theorem Run.ensureProbed_verdicts (transport : Transport σ) (run : Run σ) :
    (run.ensureProbed transport).2.verdicts = run.verdicts ∧
      run.exchanges <+: (run.ensureProbed transport).2.exchanges := by
  unfold Run.ensureProbed
  split
  · exact ⟨rfl, List.prefix_rfl⟩
  · exact ⟨rfl, List.prefix_append _ _⟩

/-- A lookup ends with the verdict on an answer that the run has received. -/
theorem Run.Kept.ensureLookedUp {mode : ExecutionMode} (hkept : run.Kept mode)
    (transport : Transport σ) (key : LookupKey) :
    (run.ensureLookedUp transport mode key).2.Kept mode ∧
      run.exchanges <+: (run.ensureLookedUp transport mode key).2.exchanges ∧
      ∃ answer, (run.ensureLookedUp transport mode key).1 = .ofAnswer mode answer ∧
        key.exchange answer ∈ (run.ensureLookedUp transport mode key).2.exchanges := by
  obtain ⟨hverdicts, hexchanges⟩ := run.verdicts_list key
  have hlisted : (run.list key).Kept mode := hkept.of_eq hverdicts (hexchanges ▸ List.prefix_rfl)
  unfold Run.ensureLookedUp
  cases hcell : (run.list key).verdicts.lookup key with
  | some verdict =>
      simp only [hcell]
      exact ⟨hlisted, hexchanges ▸ List.prefix_rfl, hlisted key verdict hcell⟩
  | none =>
      simp only [hcell]
      have hreceived : key.exchange (transport.commitStatus key.repo key.sha run.service).1 ∈
          run.exchanges ++
            [key.exchange (transport.commitStatus key.repo key.sha run.service).1] := by simp
      have hservice : (run.list key).service = run.service := by
        unfold Run.list
        split <;> rfl
      simp only [Run.answerLookup, Run.send, hverdicts, hexchanges, hservice]
      refine ⟨?_, List.prefix_append _ _, _, rfl, hreceived⟩
      intro other verdict hverdict
      obtain hearlier | ⟨rfl, rfl⟩ := lookup_append_entry hverdict
      · obtain ⟨answer, hanswer, hmem⟩ := hkept other verdict hearlier
        exact ⟨answer, hanswer, List.mem_append_left _ hmem⟩
      · exact ⟨_, rfl, hreceived⟩

/-! ## Calls -/

/-- How a call is answered: by a rung, by the failed probe, or by what the service
has answered for its key in this run. -/
inductive Verifier.Answers (verifier : Verifier σ) (call : String × String)
    (exchanges : List Exchange) : Verdict → Prop
  | settled {verdict : Verdict}
      (hrung : verifier.settings.admit call.1 call.2 = .settled verdict) :
      Answers verifier call exchanges verdict
  | unreachable {key : LookupKey}
      (hkey : verifier.settings.admit call.1 call.2 = .lookup key) :
      Answers verifier call exchanges (Verdict.unreachable verifier.mode)
  | received {key : LookupKey} {answer : Except TransportFault Nat}
      (hkey : verifier.settings.admit call.1 call.2 = .lookup key)
      (hmem : key.exchange answer ∈ exchanges) :
      Answers verifier call exchanges (Verdict.ofAnswer verifier.mode answer)

theorem Verifier.verify_kept (hkept : run.Kept verifier.mode) (reference claimed : String) :
    (verifier.verify reference claimed run).2.Kept verifier.mode ∧
      run.exchanges <+: (verifier.verify reference claimed run).2.exchanges ∧
      verifier.Answers (reference, claimed)
        (verifier.verify reference claimed run).2.exchanges
        (verifier.verify reference claimed run).1 := by
  unfold Verifier.verify
  cases hrung : verifier.settings.admit reference claimed with
  | settled verdict => exact ⟨hkept, List.prefix_rfl, .settled hrung⟩
  | lookup key =>
      obtain ⟨hverdicts, hexchanges⟩ := run.ensureProbed_verdicts verifier.transport
      have hprobed := hkept.of_eq hverdicts hexchanges
      cases hprobe : run.ensureProbed verifier.transport with
      | mk reachable next =>
          rw [hprobe] at hprobed hexchanges
          cases reachable with
          | false => exact ⟨hprobed, hexchanges, .unreachable hrung⟩
          | true =>
              obtain ⟨hnext, hgrows, answer, hanswer, hmem⟩ :=
                hprobed.ensureLookedUp verifier.transport key
              refine ⟨hnext, hexchanges.trans hgrows, ?_⟩
              dsimp only
              rw [hanswer]
              exact .received hrung hmem

/-! ## Pinned references -/

theorem isBlank_of_isHexDigit {c : Char} (hc : isHexDigit c = true) : isBlank c = false := by
  apply RemoteReference.isBlank_of_isSegmentChar
  simp only [isHexDigit, RemoteReference.isSegmentChar, isAsciiLetter, Bool.or_eq_true,
    Bool.and_eq_true, decide_eq_true_eq] at hc ⊢
  have hf : 'f' ≤ 'z' := by decide
  have hF : 'F' ≤ 'Z' := by decide
  rcases hc with (hc | ⟨hge, hle⟩) | ⟨hge, hle⟩
  · exact .inl (.inl (.inl (.inl hc)))
  · exact .inl (.inl (.inl (.inr (.inl ⟨hge, Char.le_trans hle hf⟩))))
  · exact .inl (.inl (.inl (.inr (.inr ⟨hge, Char.le_trans hle hF⟩))))

theorem isFullSha_iff {text : String} :
    isFullSha text = true ↔
      text.toList.length = 40 ∧ ∀ c ∈ text.toList, isHexDigit c = true := by
  simp [isFullSha]

theorem trimString_of_isFullSha {text : String} (hsha : isFullSha text = true) :
    trimString text = text := by
  have hhex := (isFullSha_iff.1 hsha).2
  rw [trimString, trim_of_all fun c hmem => isBlank_of_isHexDigit (hhex c hmem),
    String.ofList_toList]

theorem isEmpty_of_isFullSha {text : String} (hsha : isFullSha text = true) :
    text.isEmpty = false := by
  have hlength := (isFullSha_iff.1 hsha).1
  rw [Bool.eq_false_iff]
  intro hempty
  rw [String.isEmpty_iff.1 hempty] at hlength
  cases hlength

/-- No rung but the last one can settle a call for a pinned reference. -/
theorem VerifierSettings.admit_pinned_eq {settings : VerifierSettings}
    (henabled : settings.enabled = true) {r : RemoteReference} (hr : r.Grammatical)
    (hpinned : r.isPinned = true) :
    settings.admit r.path r.gitRef =
      match normalizeRepo (trimString r.path) with
      | .error _ => .settled (.failed .invalidReference)
      | .ok repo => .lookup ⟨repo, lowerAsciiString r.gitRef⟩ := by
  have hsha : isFullSha r.gitRef = true := hpinned
  have hclaimed := trimString_of_isFullSha hsha
  have hpath := hr.path.trim hr.owner hr.repo
  have hlocal : isLocalReference (trimString r.path) = false := by
    rw [isLocalReference, trimString, String.toList_ofList]
    exact hpath.isLocalPath_eq_false hr.owner hr.repo
  have hnotEmpty : (trimString r.path).isEmpty = false := by
    rw [Bool.eq_false_iff]
    intro hempty
    have hnil := congrArg String.toList (String.isEmpty_iff.1 hempty)
    rw [trimString, String.toList_ofList] at hnil
    exact hpath.ne_nil hnil
  unfold VerifierSettings.admit
  simp only [hclaimed, hlocal, henabled, hnotEmpty, isEmpty_of_isFullSha hsha, hsha]
  cases normalizeRepo (trimString r.path) <;> simp

/-- The key of a call for a pinned reference that is looked up is the slug of the
reference and its commit. -/
theorem VerifierSettings.admit_pinned {settings : VerifierSettings}
    (henabled : settings.enabled = true) {r : RemoteReference} (hr : r.Grammatical)
    (hpinned : r.isPinned = true) :
    settings.admit r.path r.gitRef = .settled (.failed .invalidReference) ∨
      settings.admit r.path r.gitRef = .lookup ⟨r.slug, lowerAsciiString r.gitRef⟩ := by
  rw [VerifierSettings.admit_pinned_eq henabled hr hpinned]
  cases hrepo : normalizeRepo (trimString r.path) with
  | error fault => exact .inl rfl
  | ok repo =>
      have hpath := hr.path.trim hr.owner hr.repo
      have hat : '@' ∉ trim r.path.toList := fun hmem => hr.at_not_mem (mem_of_mem_trim hmem)
      rw [hr.normalizeRepo_eq hpath hat hrepo]
      exact .inr rfl

/-- A strict verifier that is turned on vouches for a pinned reference only when
the service has said in this run that its repository has the commit. -/
theorem Verifier.Answers.of_pinned_ok (henabled : verifier.settings.enabled = true)
    (hstrict : verifier.mode = .strict) {r : RemoteReference} (hr : r.Grammatical)
    (hpinned : r.isPinned = true) {exchanges : List Exchange} {verdict : Verdict}
    (hanswers : verifier.Answers (r.path, r.gitRef) exchanges verdict)
    (hok : verdict.ok = true) :
    .lookup r.slug (lowerAsciiString r.gitRef) (.ok 200) ∈ exchanges := by
  cases hanswers with
  | settled hrung =>
      obtain hinvalid | hlookup := VerifierSettings.admit_pinned henabled hr hpinned
      · rw [hinvalid] at hrung
        cases hrung
        cases hok
      · rw [hlookup] at hrung
        cases hrung
  | unreachable hkey =>
      rw [hstrict] at hok
      cases hok
  | received hkey hmem =>
      rw [hstrict] at hok
      rw [Verdict.ofAnswer_strict_ok hok] at hmem
      obtain hinvalid | hlookup := VerifierSettings.admit_pinned henabled hr hpinned
      · rw [hinvalid] at hkey
        cases hkey
      · rw [hlookup] at hkey
        cases hkey
        exact hmem

theorem VerifierSettings.admit_settled {settings : VerifierSettings}
    {reference claimed : String} {verdict : Verdict}
    (hrung : settings.admit reference claimed = .settled verdict) :
    verdict.ok = true ∨ ∃ kind, verdict = .failed kind := by
  unfold VerifierSettings.admit at hrung
  dsimp only at hrung
  repeat' split at hrung
  all_goals cases hrung
  all_goals first | exact .inl rfl | exact .inr ⟨_, rfl⟩

/-- A call that fails says why. -/
theorem Verifier.Answers.failed_of_not_ok {call : String × String} {exchanges : List Exchange}
    {verdict : Verdict} (hanswers : verifier.Answers call exchanges verdict)
    (hok : verdict.ok = false) : ∃ kind, verdict = .failed kind := by
  cases hanswers with
  | settled hrung =>
      rcases VerifierSettings.admit_settled hrung with hsome | hfailed
      · rw [hsome] at hok
        cases hok
      · exact hfailed
  | unreachable hkey =>
      cases hmode : verifier.mode <;>
        simp_all [Verdict.unreachable, ExecutionMode.isStrict, Verdict.bypass]
  | received hkey hmem =>
      rcases Verdict.ofAnswer_cases verifier.mode _ with hsome | hfailed
      · rw [hsome] at hok
        cases hok
      · exact hfailed

end

end WorkflowAudit
