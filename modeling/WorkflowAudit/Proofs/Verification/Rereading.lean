import WorkflowAudit.Proofs.Verification.KeptAnswers

/-!
# Reading the path of a pinned reference again

A scan reads a `uses` value and hands the path of the reference to the verifier,
which trims that path and reads it a second time.  The first reading trims the
value before it is cut at its `@` and not the path in front of that cut, so
blanks at the end of the path are part of the reference in the first reading
only.  The two agree on paths without such blanks.  On every other path the
second reading has the same owner and repository and a shorter subpath, except
where it is left with an empty last segment: that path is refused.
-/

namespace WorkflowAudit

open Text

namespace RemoteReference

/-- The text behind the last slash of a path, or all of a path without one. -/
def lastSegment (path : String) : List Char := (splitOn '/' path.toList).getLastD []

/-- A reference without its ref and without the blanks at the end of its subpath. -/
def reread (r : RemoteReference) : RemoteReference :=
  { r with
    subpath := r.subpath.map fun sub => String.ofList (trimEndWith isBlank sub.toList)
    gitRef := "" }

/-- A text without `@` is read as a path. -/
theorem parse_of_at_not_mem {text : String} (hat : '@' ∉ text.toList) :
    parse text = (ofPath (trim text.toList) []).mapError
      fun fault => ⟨trimString text, fault⟩ := by
  have htrim : '@' ∉ trim text.toList := fun hmem => hat (mem_of_mem_trim hmem)
  rw [parse, ofChars, splitFirst?_eq_none_iff.2 htrim]
  rfl

/-- Trimming changes the last segment of a path only. -/
theorem splitOn_trim {path owner last : List Char} (howner : IsSegment owner)
    (segments : List (List Char)) (hsplit : splitOn '/' path = owner :: segments ++ [last]) :
    splitOn '/' (trim path) = owner :: segments ++ [trimEndWith isBlank last] := by
  have hslash : '/' ∈ path := by
    by_contra hmem
    rw [splitOn_of_not_mem hmem] at hsplit
    simpa using congrArg List.length hsplit
  obtain ⟨front, back, rfl, hback⟩ := exists_last_piece hslash
  rw [splitOn_append, splitOn_of_not_mem hback] at hsplit
  obtain ⟨hfront, hlast⟩ := List.append_inj' hsplit rfl
  obtain rfl : back = last := by simpa using hlast
  have htrimmed : '/' ∉ trimEndWith isBlank back :=
    fun hmem => hback ((trimEndWith_sublist isBlank back).subset hmem)
  -- the first character belongs to the owner, so nothing is trimmed in front of it
  obtain ⟨c, more, rfl⟩ := List.exists_cons_of_ne_nil howner.ne_nil
  have hc := howner.isBlank_eq_false c List.mem_cons_self
  obtain ⟨others, hothers⟩ : ∃ others, joinWith ['/'] ((c :: more) :: segments) = c :: others := by
    cases segments <;> simp [joinWith]
  rw [← hfront, joinWith_splitOn] at hothers
  rw [← hfront, hothers, List.cons_append, trim_of_head hc,
    trimEndWith_append_keep (by decide : isBlank '/' = false), ← List.cons_append, splitOn_append,
    splitOn_of_not_mem htrimmed]

/-- Blanks at the end of joined pieces are the blanks at the end of the last one. -/
theorem trimEndWith_joinWith_concat (pieces : List (List Char)) (last : List Char) :
    trimEndWith isBlank (joinWith ['/'] (pieces ++ [last])) =
      joinWith ['/'] (pieces ++ [trimEndWith isBlank last]) := by
  by_cases hpieces : pieces = []
  · subst hpieces
    rfl
  · rw [joinWith_concat '/' hpieces, joinWith_concat '/' hpieces,
      trimEndWith_append_keep (by decide : isBlank '/' = false)]

/-- What the second reading makes of the path of a reference. -/
theorem parse_path {path gitRef : List Char} {r : RemoteReference} (hat : '@' ∉ path)
    (hread : ofPath path gitRef = .ok r) :
    parse r.path =
      if (lastSegment r.path).all isBlank then .error ⟨trimString r.path, .emptySegment⟩
      else .ok r.reread := by
  have hpath := path_of_ofPath hread
  obtain ⟨owner, repo, rest, hsplit, howner, hrepo, hrest, hr⟩ := ofPath_eq_ok hread
  rw [parse_of_at_not_mem (hpath ▸ hat), hpath]
  have hsegments : lastSegment r.path = (owner :: repo :: rest).getLastD [] := by
    rw [lastSegment, hpath, hsplit]
  rcases List.eq_nil_or_concat rest with rfl | ⟨init, last, rfl⟩
  · have hkept := trimEndWith_of_all hrepo.isBlank_eq_false
    have hvisible : ¬ repo.all isBlank := by
      rw [← trimEndWith_eq_nil_iff, hkept]
      exact hrepo.ne_nil
    have htrim := splitOn_trim howner [] hsplit
    rw [hkept] at htrim
    rw [ofPath_of_splitOn htrim howner hrepo, hsegments, hr]
    simp [hvisible, reread, Except.mapError]
  · rw [List.concat_eq_append] at hsplit hsegments hrest hr
    have htrim := splitOn_trim howner (repo :: init) hsplit
    have hinit : init.any List.isEmpty = false := by
      rw [List.any_eq_false]
      intro piece hmem hempty
      exact hrest piece (List.mem_append_left _ hmem) (List.isEmpty_iff.1 hempty)
    have hlast : lastSegment r.path = last := by
      rw [hsegments, ← List.cons_append, ← List.cons_append, List.getLastD_concat]
    rw [ofPath_of_splitOn htrim howner hrepo, hlast]
    by_cases hblank : last.all isBlank
    · simp [trimEndWith_eq_nil_iff.2 hblank, hblank, Except.mapError]
    · have hkept : (trimEndWith isBlank last).isEmpty = false := by
        rw [Bool.eq_false_iff, Ne, List.isEmpty_iff, trimEndWith_eq_nil_iff]
        exact hblank
      simp [hinit, hkept, hblank, hr, reread, Except.mapError, trimEndWith_joinWith_concat]

theorem path_of_parse_path {r found : RemoteReference} (hat : '@' ∉ r.path.toList)
    (hread : parse r.path = .ok found) : found.path = trimString r.path := by
  rw [parse_of_at_not_mem hat] at hread
  cases hpath : ofPath (trim r.path.toList) [] with
  | error fault =>
      rw [hpath] at hread
      cases hread
  | ok read =>
      rw [hpath] at hread
      obtain rfl : read = found := Except.ok.inj hread
      rw [← String.toList_inj, path_of_ofPath hpath, trimString, String.toList_ofList]

/-- The second reading gives the same reference where no blank is trimmed. -/
theorem parse_path_eq_iff {path gitRef : List Char} {r : RemoteReference} (hat : '@' ∉ path)
    (hread : ofPath path gitRef = .ok r) :
    parse r.path = .ok { r with gitRef := "" } ↔ trimString r.path = r.path := by
  have hpath := path_of_ofPath hread
  constructor
  · intro hsame
    exact (path_of_parse_path (hpath ▸ hat) hsame).symm
  · intro htrim
    have hkept : trim r.path.toList = path := by
      rw [← hpath, ← String.toList_ofList (l := trim r.path.toList)]
      exact congrArg String.toList htrim
    obtain ⟨owner, repo, rest, hsplit, howner, hrepo, hrest, rfl⟩ := ofPath_eq_ok hread
    have hnone : rest.any List.isEmpty = false := by
      rw [List.any_eq_false]
      intro piece hmem hempty
      exact hrest piece hmem (List.isEmpty_iff.1 hempty)
    rw [parse_of_at_not_mem (hpath ▸ hat), hkept, ofPath_of_splitOn hsplit howner hrepo, hnone]
    rfl

theorem slug_reread (r : RemoteReference) : r.reread.slug = r.slug := rfl

end RemoteReference

section

variable {σ : Type} {verifier : Verifier σ}

/-- A call of an enabled verifier for the path of a pinned reference is settled
exactly where the path is left with an empty last segment. -/
theorem VerifierSettings.admit_path {settings : VerifierSettings}
    (henabled : settings.enabled = true) {uses : String} {r : RemoteReference}
    (hread : StepReference.parse uses = .ok (.remote r)) (hpinned : r.isPinned = true) :
    settings.admit r.path r.gitRef =
      if (RemoteReference.lastSegment r.path).all isBlank then
        .settled (.failed .invalidReference)
      else .lookup ⟨r.slug, lowerAsciiString r.gitRef⟩ := by
  obtain ⟨path, gitRef, hat, hpath⟩ := RemoteReference.exists_ofPath_of_step hread
  rw [admit_pinned_eq henabled (RemoteReference.grammatical_of_step hread) hpinned, normalizeRepo,
    RemoteReference.parse_trimString, RemoteReference.parse_path hat hpath]
  by_cases hblank : (RemoteReference.lastSegment r.path).all isBlank <;>
    simp [hblank, Except.map, RemoteReference.slug_reread]

/-! ## Calls for a key -/

/-- The kinds of the verdicts that settle a call before the service is asked. -/
def FindingKind.beforeLookup : List FindingKind :=
  [.localAction, .verificationDisabled, .missingActionOrRef, .notSha, .invalidReference]

/-- What a call that no rung settles does to a run: it asks the service for nothing
but its reachability and the key, each unless this run has done so, and it ends
with the answer that this run has received for the key. -/
structure Verifier.LooksUp (verifier : Verifier σ) (key : LookupKey) (reachable : Bool)
    (run : Run σ) (next : Verdict × Run σ) : Prop where
  kind : ∀ kind ∈ FindingKind.beforeLookup, next.1.kind ≠ some kind
  requests : ∃ new, next.2.requests = run.requests ++ new ∧ new ⊆ [.probe, key.request]
  answered : reachable = true → key.request ∈ next.2.requests ∧
    ∃ answer, key.exchange answer ∈ next.2.exchanges ∧
      next.1 = Verdict.ofAnswer verifier.mode answer
  unreachable : reachable = false → next.1 = Verdict.unreachable verifier.mode

theorem Verdict.kind_ofAnswer (mode : ExecutionMode) (answer : Except TransportFault Nat) :
    ∀ kind ∈ FindingKind.beforeLookup, (ofAnswer mode answer).kind ≠ some kind := by
  cases answer with
  | ok status =>
      simp only [ofAnswer, ofStatus]
      split <;> decide
  | error fault =>
      have hunreachable : ∀ kind ∈ FindingKind.beforeLookup,
          (unreachable mode).kind ≠ some kind := by
        cases mode <;> decide
      exact hunreachable

theorem Run.requests_ensureProbed (transport : Transport σ) (run : Run σ) :
    ∃ new, (run.ensureProbed transport).2.requests = run.requests ++ new ∧ new ⊆ [.probe] := by
  unfold Run.ensureProbed
  split
  · exact ⟨[], by simp, by simp⟩
  · exact ⟨[.probe], rfl, by simp⟩

theorem Run.requests_ensureLookedUp (transport : Transport σ) (mode : ExecutionMode)
    (key : LookupKey) (run : Run σ) :
    ∃ new, (run.ensureLookedUp transport mode key).2.requests = run.requests ++ new ∧
      new ⊆ [key.request] := by
  have hlisted : (run.list key).requests = run.requests := by
    unfold Run.list
    split <;> rfl
  unfold Run.ensureLookedUp
  dsimp only
  split
  · exact ⟨[], by simp [hlisted], by simp⟩
  · exact ⟨[key.request], by simp [Run.answerLookup, Run.send, hlisted, LookupKey.request],
      by simp⟩

theorem Verifier.requests_verify {reference claimed : String} {key : LookupKey}
    (hkey : verifier.settings.admit reference claimed = .lookup key) (run : Run σ) :
    ∃ new, (verifier.verify reference claimed run).2.requests = run.requests ++ new ∧
      new ⊆ [.probe, key.request] := by
  obtain ⟨probes, hprobes, hprobe⟩ := run.requests_ensureProbed verifier.transport
  rw [Verifier.verify, hkey]
  dsimp only
  cases hprobed : run.ensureProbed verifier.transport with
  | mk reachable probed =>
      rw [hprobed] at hprobes
      cases reachable with
      | false => exact ⟨probes, hprobes, List.Subset.trans hprobe (by simp)⟩
      | true =>
          obtain ⟨lookups, hlookups, hlookup⟩ :=
            probed.requests_ensureLookedUp verifier.transport verifier.mode key
          refine ⟨probes ++ lookups, ?_, ?_⟩
          · rw [hlookups, hprobes, List.append_assoc]
          · rw [List.append_subset]
            exact ⟨List.Subset.trans hprobe (by simp), List.Subset.trans hlookup (by simp)⟩

/-- A judged call has looked its key up in the run behind it. -/
theorem Verifier.Judges.looksUp {service : σ} {keys : List LookupKey} {key : LookupKey}
    {call : String × String} {verdict : Verdict} {run : Run σ}
    (hjudged : verifier.Judges (verifier.transport.probe service).1.toBool
      (verifier.transport.lookUpEach keys (verifier.transport.probe service).2).1 call verdict)
    (hkey : verifier.settings.admit call.1 call.2 = .lookup key) (hmem : key ∈ keys)
    (hrequests : ∃ new, (verifier.runAfter service keys).requests = run.requests ++ new ∧
      new ⊆ [.probe, key.request]) :
    verifier.LooksUp key (verifier.transport.probe service).1.toBool run
      (verdict, verifier.runAfter service keys) := by
  obtain ⟨settled, hadmitted, -, -⟩ | ⟨found, hadmitted, hrung, hfound⟩ :=
    verifier.settings.admit_cases call
  · rw [hkey] at hadmitted
    cases hadmitted
  obtain rfl : key = found := by
    rw [hkey] at hadmitted
    exact Admission.lookup.inj hadmitted
  cases hjudged with
  | settled hsettled =>
      rw [hrung] at hsettled
      cases hsettled
  | unreachable _ hprobe =>
      refine ⟨Verdict.kind_ofAnswer verifier.mode (.error .network), hrequests, ?_, fun _ => rfl⟩
      intro hreachable
      rw [hprobe] at hreachable
      cases hreachable
  | answered hanswered hprobe hanswer =>
      rw [hfound] at hanswered
      cases hanswered
      refine ⟨Verdict.kind_ofAnswer verifier.mode _, hrequests, fun _ => ?_, ?_⟩
      · have hafter : verifier.runAfter service keys = verifier.probedRun service keys :=
          if_neg (List.ne_nil_of_mem hmem)
        obtain ⟨before, after, hanswers, -⟩ := List.lookup_eq_some_iff.1 hanswer
        rw [hafter]
        simp only [Verifier.probedRun, hprobe, if_true]
        refine ⟨List.mem_cons_of_mem _ (List.mem_map_of_mem hmem), _,
          List.mem_cons_of_mem _ ?_, rfl⟩
        rw [hanswers]
        simp
      · intro hunreachable
        rw [hprobe] at hunreachable
        cases hunreachable

/-- A call that no rung settles looks its key up, whatever calls came before it. -/
theorem Verifier.looksUp_verify {reference claimed : String} {key : LookupKey}
    (hkey : verifier.settings.admit reference claimed = .lookup key) (service : σ)
    (earlier : List (String × String)) :
    let run := (verifier.verifyEach earlier (Run.fresh service)).2
    verifier.LooksUp key (verifier.transport.probe service).1.toBool run
      (verifier.verify reference claimed run) := by
  intro run
  have hrequests := Verifier.requests_verify hkey run
  have hfresh : verifier.runAfter service (verifier.settings.distinctKeys []) =
      Run.fresh service := rfl
  have hrun : run = verifier.runAfter service (verifier.settings.distinctKeys earlier) := by
    obtain ⟨-, hrun⟩ := verifier.verifyEach_runAfter service [] earlier
    rwa [hfresh, List.nil_append] at hrun
  obtain ⟨hjudged, hnext⟩ := verifier.verify_runAfter service earlier (reference, claimed)
  rw [← hrun] at hjudged hnext
  have hmem : key ∈ verifier.settings.distinctKeys (earlier ++ [(reference, claimed)]) := by
    obtain ⟨settled, hadmitted, -, -⟩ | ⟨found, hadmitted, -, hfound⟩ :=
      verifier.settings.admit_cases (reference, claimed)
    · rw [hkey] at hadmitted
      cases hadmitted
    · rw [hkey] at hadmitted
      cases hadmitted
      simp [VerifierSettings.distinctKeys, List.mem_eraseDups, hfound]
  cases hcall : verifier.verify reference claimed run with
  | mk verdict next =>
      rw [hcall] at hjudged hnext hrequests
      dsimp only at hjudged hnext hrequests
      subst hnext
      exact hjudged.looksUp hkey hmem hrequests

/-! ## Pinned references -/

/-- How an enabled verifier reads the path of a pinned reference that a `uses` value
was read as.  Both readings agree on paths without blanks at the end.  A path whose
last segment is blank is refused without a request; any other path is looked up
under the slug and the commit of the first reading, of which it may lose blanks at
the end of the subpath and nothing else. -/
theorem Verifier.verify_rereads_path (henabled : verifier.settings.enabled = true) (service : σ)
    (earlier : List (String × String)) {uses : String} {r : RemoteReference}
    (hread : StepReference.parse uses = .ok (.remote r)) (hpinned : r.isPinned = true) :
    let key : LookupKey := ⟨r.slug, lowerAsciiString r.gitRef⟩
    let run := (verifier.verifyEach earlier (Run.fresh service)).2
    let next := verifier.verify r.path r.gitRef run
    (RemoteReference.parse r.path = .ok { r with gitRef := "" } ↔ trimString r.path = r.path) ∧
      if (RemoteReference.lastSegment r.path).all isBlank then
        RemoteReference.parse r.path = .error ⟨trimString r.path, .emptySegment⟩ ∧
          next = (.failed .invalidReference, run)
      else
        RemoteReference.parse r.path = .ok r.reread ∧
          verifier.LooksUp key (verifier.transport.probe service).1.toBool run next := by
  intro key run next
  obtain ⟨path, gitRef, hat, hpath⟩ := RemoteReference.exists_ofPath_of_step hread
  refine ⟨RemoteReference.parse_path_eq_iff hat hpath, ?_⟩
  have hparse := RemoteReference.parse_path hat hpath
  have hadmit := VerifierSettings.admit_path henabled hread hpinned
  split
  · next hblank =>
      rw [if_pos hblank] at hparse hadmit
      refine ⟨hparse, ?_⟩
      simp only [next, Verifier.verify, hadmit]
  · next hvisible =>
      rw [if_neg hvisible] at hparse hadmit
      exact ⟨hparse, Verifier.looksUp_verify hadmit service earlier⟩

theorem Verifier.verify_rereads_path_blank_in_subpath :
    let transport : Transport Unit :=
      { probe := fun service => (.ok (), service)
        commitStatus := fun _ _ service => (.ok 200, service) }
    let verifier : Verifier Unit := ⟨{}, .strict, transport⟩
    let uses := "owner/repo/a b@ABCDEF0123456789abcdef0123456789abcdef01"
    let r : RemoteReference :=
      ⟨"owner", "repo", some "a b", "ABCDEF0123456789abcdef0123456789abcdef01"⟩
    let key : LookupKey := ⟨"owner/repo", "abcdef0123456789abcdef0123456789abcdef01"⟩
    let next := verifier.verify r.path r.gitRef (Run.fresh ())
    StepReference.parse uses = .ok (.remote r) ∧ r.isPinned = true ∧
      RemoteReference.parse r.path = .ok { r with gitRef := "" } ∧
      next.1 = .verified ∧ next.2.requests = [.probe, key.request] := by
  intro transport verifier uses r key next
  have hread : StepReference.parse uses = .ok (.remote r) := by decide +kernel
  have hpinned : r.isPinned = true := by decide +kernel
  have htrim : trimString r.path = r.path := by decide +kernel
  obtain ⟨hsame, -⟩ := verifier.verify_rereads_path rfl () [] hread hpinned
  refine ⟨hread, hpinned, hsame.2 htrim, ?_, ?_⟩ <;> decide +kernel

/-- Blanks in front of the `@` are read as part of the path once only: the verifier
refuses the first reference, which the scan takes for pinned, and reads another
subpath in the second one. -/
theorem Verifier.verify_misreads_blanks :
    let verifier : Verifier Unit := ⟨{}, .strict, Transport.offline⟩
    let commit := "abcdef0123456789abcdef0123456789abcdef01"
    (∃ r, StepReference.parse ("a/b/ @" ++ commit) = .ok (.remote r) ∧ r.isPinned = true ∧
      RemoteReference.parse r.path = .error ⟨"a/b/", .emptySegment⟩ ∧
      (verifier.verify r.path r.gitRef (Run.fresh ())).1 = .failed .invalidReference) ∧
    ∃ r again, StepReference.parse ("a/b/c @" ++ commit) = .ok (.remote r) ∧
      r.isPinned = true ∧ r.subpath = some "c " ∧
      RemoteReference.parse r.path = .ok again ∧ again.subpath = some "c" := by
  intro verifier commit
  refine ⟨⟨⟨"a", "b", some " ", commit⟩, ?_⟩, ⟨"a", "b", some "c ", commit⟩,
    ⟨"a", "b", some "c", ""⟩, ?_⟩ <;> decide +kernel

end

end WorkflowAudit
