import WorkflowAudit.Proofs.Scan.Tolerance
import WorkflowAudit.Proofs.Verification.ReducedKeys
import WorkflowAudit.Proofs.Verification.SharedFlight

/-!
# The memory of a scanner is transparent

A scanner keeps verdicts by the text of a reference, and the run of its verifier keeps
them by repository and commit.  What a run has answered once it answers again without a
request and without any change to itself, whatever has been asked in between and however
it came to the answer.  The first memory therefore only saves calls that would do nothing:
a scanner without it finds the same and leaves the run in the same state.
-/

namespace WorkflowAudit

open Text

variable {σ : Type}

/-! ## Scans by any way of asking -/

/-- Asks the verifier whatever it has answered before, and remembers nothing. -/
def Inquiry.askAgain (verifier : ReferenceVerifier σ) (reference claimed : String)
    (inquiry : Inquiry σ) : Verdict × Inquiry σ :=
  let (verdict, state) := verifier reference claimed inquiry.state
  (verdict, { inquiry with state })

section

variable (ask : ReferenceVerifier (Inquiry σ))

/-- Judges one reference.  Verdicts on pinned remote ones come from `ask`. -/
def pinningFindingBy (rule : Rule) (verify : Bool) (location : Location) (uses : String)
    (inquiry : Inquiry σ) : Option Violation × Inquiry σ :=
  match pinningStatus rule location uses with
  | .settled finding => (finding, inquiry)
  | .pinned remote =>
      if verify then
        let (verdict, inquiry) := ask remote.path remote.gitRef inquiry
        (verdictFinding rule location remote verdict, inquiry)
      else (none, inquiry)

def applyRuleBy (prepared : PreparedPolicy) (rule : Rule) (d : Definition)
    (inquiry : Inquiry σ) : List Violation × Inquiry σ :=
  match rule.check with
  | .shaPinning verify =>
      Inquiry.collect (fun (location, uses) inquiry =>
        let (finding, inquiry) := pinningFindingBy ask rule verify location uses inquiry
        (finding.toList, inquiry)) d.references inquiry
  | _ => (staticFindings prepared rule d, inquiry)

def scanDefinitionsBy (policy : PreparedPolicy) :
    List Definition → Inquiry σ → List Violation × Inquiry σ :=
  Inquiry.collect fun d =>
    Inquiry.collect (fun rule => applyRuleBy ask policy rule d) policy.rules

namespace Scanner

def scanBy (definitions : List Definition) (scanner : Scanner σ) :
    List Violation × Scanner σ :=
  let (findings, inquiry) := scanDefinitionsBy ask scanner.policy definitions scanner.inquiry
  (scanner.unreported ++ findings, { scanner with unreported := [], inquiry })

/-- Scans one list of definitions after the other. -/
def scanEachBy : List (List Definition) → Scanner σ → List (List Violation) × Scanner σ
  | [], scanner => ([], scanner)
  | definitions :: rest, scanner =>
      let (found, scanner) := scanner.scanBy ask definitions
      let (others, scanner) := scanner.scanEachBy rest
      (found :: others, scanner)

/-- A scanner asks by looking into its memory first. -/
theorem scan_eq_scanBy (verifier : ReferenceVerifier σ) (definitions : List Definition)
    (scanner : Scanner σ) :
    scanner.scan verifier definitions = scanner.scanBy (Inquiry.verify verifier) definitions :=
  rfl

theorem scanEach_eq_scanEachBy (verifier : ReferenceVerifier σ)
    (batches : List (List Definition)) (scanner : Scanner σ) :
    scanner.scanEach verifier batches =
      scanner.scanEachBy (Inquiry.verify verifier) batches := by
  induction batches generalizing scanner with
  | nil => rfl
  | cons definitions batches ih =>
      simp only [scanEach, scanEachBy, scan_eq_scanBy, ih]

end Scanner

end

/-! ## What a run answers again -/

namespace Run

variable {run next last : Run σ}

theorem Grows.trans (hnext : run.Grows next) (hlast : next.Grows last) : run.Grows last where
  reachable outcome houtcome := hlast.reachable outcome (hnext.reachable outcome houtcome)
  verdicts key verdict hverdict := hlast.verdicts key verdict (hnext.verdicts key verdict hverdict)

theorem grows_list (run : Run σ) (key : LookupKey) : run.Grows (run.list key) := by
  unfold Run.list
  split <;> exact ⟨fun _ h => h, fun _ _ h => h⟩

theorem grows_ensureProbed (run : Run σ) (transport : Transport σ) :
    run.Grows (run.ensureProbed transport).2 := by
  unfold Run.ensureProbed
  split
  · exact ⟨fun _ h => h, fun _ _ h => h⟩
  · next hopen =>
      have hsent : (run.send .probe).reachable = none := hopen
      exact (run.grows_send .probe).trans (grows_answerProbe hsent transport)

theorem grows_ensureLookedUp (run : Run σ) (transport : Transport σ) (mode : ExecutionMode)
    (key : LookupKey) : run.Grows (run.ensureLookedUp transport mode key).2 := by
  have hlisted := run.grows_list key
  unfold Run.ensureLookedUp
  dsimp only
  split
  · exact hlisted
  · have hsent := (run.list key).grows_send (.lookup key.repo key.sha)
    exact (hlisted.trans hsent).trans (grows_answerLookup _ transport mode key)

end Run

section

variable {verifier : Verifier σ} {run next : Run σ} {reference claimed : String}

theorem Verifier.grows_verify (verifier : Verifier σ) (reference claimed : String)
    (run : Run σ) : run.Grows (verifier.verify reference claimed run).2 := by
  unfold Verifier.verify
  cases verifier.settings.admit reference claimed with
  | settled verdict => exact ⟨fun _ h => h, fun _ _ h => h⟩
  | lookup key =>
      have hprobed := run.grows_ensureProbed verifier.transport
      dsimp only
      cases hprobe : run.ensureProbed verifier.transport with
      | mk reachable probed =>
          rw [hprobe] at hprobed
          cases reachable with
          | false => exact hprobed
          | true => exact hprobed.trans (probed.grows_ensureLookedUp ..)

/-- The verdict on a call that a run can give out of what it holds: one of a rung, the
one of the failed probe, or the one in the cell of its key. -/
inductive Verifier.Recalls (verifier : Verifier σ) (run : Run σ) (reference claimed : String) :
    Verdict → Prop
  | settled {verdict : Verdict}
      (hrung : verifier.settings.admit reference claimed = .settled verdict) :
      Recalls verifier run reference claimed verdict
  | unreachable {key : LookupKey}
      (hkey : verifier.settings.admit reference claimed = .lookup key)
      (hdown : run.reachable = some false) :
      Recalls verifier run reference claimed (Verdict.unreachable verifier.mode)
  | kept {key : LookupKey} {verdict : Verdict}
      (hkey : verifier.settings.admit reference claimed = .lookup key)
      (hup : run.reachable = some true) (hcell : key ∈ run.cells)
      (hverdict : run.verdicts.lookup key = some verdict) :
      Recalls verifier run reference claimed verdict

/-- A call is answered out of what the run holds, and the run stays as it is. -/
theorem Verifier.Recalls.verify_eq {verdict : Verdict}
    (hrecalls : verifier.Recalls run reference claimed verdict) :
    verifier.verify reference claimed run = (verdict, run) := by
  cases hrecalls with
  | settled hrung => rw [Verifier.verify, hrung]
  | unreachable hkey hdown => simp [Verifier.verify, hkey, Run.ensureProbed, hdown]
  | kept hkey hup hcell hverdict =>
      simp [Verifier.verify, hkey, Run.ensureProbed, hup, Run.ensureLookedUp, Run.list, hcell,
        hverdict]

theorem Verifier.Recalls.mono {verdict : Verdict}
    (hrecalls : verifier.Recalls run reference claimed verdict) (hgrows : run.Grows next)
    (hgains : run.Gains next) : verifier.Recalls next reference claimed verdict := by
  cases hrecalls with
  | settled hrung => exact .settled hrung
  | unreachable hkey hdown => exact .unreachable hkey (hgrows.reachable _ hdown)
  | kept hkey hup hcell hverdict =>
      obtain ⟨listed, hcells, -⟩ := hgains.cells
      refine .kept hkey (hgrows.reachable _ hup) ?_ (hgrows.verdicts _ _ hverdict)
      rw [hcells]
      exact List.mem_append_left _ hcell

theorem Run.reachable_ensureProbed (run : Run σ) (transport : Transport σ) :
    (run.ensureProbed transport).2.reachable = some (run.ensureProbed transport).1 := by
  unfold Run.ensureProbed
  split
  · assumption
  · rfl

theorem Run.recalls_ensureLookedUp (run : Run σ) (transport : Transport σ)
    (mode : ExecutionMode) (key : LookupKey) :
    (run.ensureLookedUp transport mode key).2.reachable = run.reachable ∧
      key ∈ (run.ensureLookedUp transport mode key).2.cells ∧
      (run.ensureLookedUp transport mode key).2.verdicts.lookup key =
        some (run.ensureLookedUp transport mode key).1 := by
  have hlisted : (run.list key).reachable = run.reachable ∧ key ∈ (run.list key).cells := by
    unfold Run.list
    split <;> simp_all
  unfold Run.ensureLookedUp
  dsimp only
  split
  · next verdict hverdict => exact ⟨hlisted.1, hlisted.2, hverdict⟩
  · next hnone =>
      refine ⟨hlisted.1, hlisted.2, ?_⟩
      simp [Run.answerLookup, Run.send, List.lookup_append, hnone]

/-- Whatever a call comes to, the run holds it from then on. -/
theorem Verifier.recalls_verify (verifier : Verifier σ) (reference claimed : String)
    (run : Run σ) :
    verifier.Recalls (verifier.verify reference claimed run).2 reference claimed
      (verifier.verify reference claimed run).1 := by
  unfold Verifier.verify
  cases hrung : verifier.settings.admit reference claimed with
  | settled verdict => exact .settled hrung
  | lookup key =>
      have hreachable := run.reachable_ensureProbed verifier.transport
      dsimp only
      cases hprobe : run.ensureProbed verifier.transport with
      | mk reachable probed =>
          rw [hprobe] at hreachable
          cases reachable with
          | false => exact .unreachable hrung hreachable
          | true =>
              obtain ⟨hup, hcell, hverdict⟩ :=
                probed.recalls_ensureLookedUp verifier.transport verifier.mode key
              exact .kept hrung (hup.trans hreachable) hcell hverdict

/-- Full commit ids that differ in case only are one and the same to a verifier. -/
theorem VerifierSettings.admit_congr (settings : VerifierSettings) (reference : String)
    {claimed claimed' : String} (hsha : isFullSha claimed = true)
    (hsha' : isFullSha claimed' = true)
    (hlower : lowerAsciiString claimed = lowerAsciiString claimed') :
    settings.admit reference claimed = settings.admit reference claimed' := by
  unfold VerifierSettings.admit
  simp only [trimString_of_isFullSha hsha, trimString_of_isFullSha hsha',
    isEmpty_of_isFullSha hsha, isEmpty_of_isFullSha hsha', hsha, hsha', hlower]

theorem Verifier.Recalls.congr {claimed' : String} {verdict : Verdict}
    (hrecalls : verifier.Recalls run reference claimed verdict)
    (hadmission : verifier.settings.admit reference claimed' =
      verifier.settings.admit reference claimed) :
    verifier.Recalls run reference claimed' verdict := by
  cases hrecalls with
  | settled hrung => exact .settled (hadmission.trans hrung)
  | unreachable hkey hdown => exact .unreachable (hadmission.trans hkey) hdown
  | kept hkey hup hcell hverdict => exact .kept (hadmission.trans hkey) hup hcell hverdict

/-! ## With and without memory -/

/-- A scan with memory beside one without: their runs are in the same state, which holds
every verdict that is remembered. -/
structure Inquiry.Mirrors (verifier : Verifier σ) (inquiry plain : Inquiry (Run σ)) : Prop where
  state : inquiry.state = plain.state
  verdicts : ∀ r : RemoteReference, r.Grammatical → r.isPinned = true → ∀ verdict,
    inquiry.verdicts.lookup (memoKey r.path r.gitRef) = some verdict →
      verifier.Recalls inquiry.state r.path r.gitRef verdict

/-- One question, asked of the memory first and of the verifier at once. -/
theorem Inquiry.Mirrors.verify {inquiry plain : Inquiry (Run σ)}
    (hmirrors : inquiry.Mirrors verifier plain) {r : RemoteReference} (hr : r.Grammatical)
    (hpinned : r.isPinned = true) :
    (inquiry.verify verifier.verify r.path r.gitRef).1 =
        (plain.askAgain verifier.verify r.path r.gitRef).1 ∧
      (inquiry.verify verifier.verify r.path r.gitRef).2.Mirrors verifier
        (plain.askAgain verifier.verify r.path r.gitRef).2 := by
  unfold Inquiry.verify Inquiry.askAgain
  rw [← hmirrors.state]
  cases hmemo : inquiry.verdicts.lookup (memoKey r.path r.gitRef) with
  | some verdict =>
      rw [(hmirrors.verdicts r hr hpinned verdict hmemo).verify_eq]
      exact ⟨rfl, rfl, hmirrors.verdicts⟩
  | none =>
      have hgrows := verifier.grows_verify r.path r.gitRef inquiry.state
      have hgains := verifier.gains_verify r.path r.gitRef inquiry.state
      have hrecalls := verifier.recalls_verify r.path r.gitRef inquiry.state
      dsimp only
      generalize verifier.verify r.path r.gitRef inquiry.state = result at *
      refine ⟨rfl, rfl, fun other hother hpinned' verdict hverdict => ?_⟩
      obtain hearlier | ⟨hkey, rfl⟩ := lookup_append_entry hverdict
      · exact (hmirrors.verdicts other hother hpinned' verdict hearlier).mono hgrows hgains
      · obtain ⟨hpath, hsha⟩ := path_of_memoKey_eq hother hr hkey
        rw [hpath]
        exact hrecalls.congr (verifier.settings.admit_congr r.path hpinned' hpinned hsha)

theorem pinningFindingBy_mirrors (rule : Rule) (verify : Bool) (location : Location)
    (uses : String) {inquiry plain : Inquiry (Run σ)} (hmirrors : inquiry.Mirrors verifier plain) :
    (pinningFindingBy (Inquiry.verify verifier.verify) rule verify location uses inquiry).1 =
        (pinningFindingBy (Inquiry.askAgain verifier.verify) rule verify location uses plain).1 ∧
      (pinningFindingBy (Inquiry.verify verifier.verify) rule verify location uses
          inquiry).2.Mirrors verifier
        (pinningFindingBy (Inquiry.askAgain verifier.verify) rule verify location uses
          plain).2 := by
  unfold pinningFindingBy
  cases hstatus : pinningStatus rule location uses with
  | settled finding => exact ⟨rfl, hmirrors⟩
  | pinned r =>
      obtain ⟨-, hr, hpinned⟩ := grammatical_of_pinningStatus hstatus
      cases verify with
      | false =>
          simp only [Bool.false_eq_true, if_false]
          exact ⟨trivial, hmirrors⟩
      | true =>
          obtain ⟨hverdict, hnext⟩ := hmirrors.verify hr hpinned
          simp only [if_true]
          exact ⟨congrArg (verdictFinding rule location r) hverdict, hnext⟩

theorem applyRuleBy_mirrors (prepared : PreparedPolicy) (rule : Rule)
    (d : Definition) {inquiry plain : Inquiry (Run σ)}
    (hmirrors : inquiry.Mirrors verifier plain) :
    (applyRuleBy (Inquiry.verify verifier.verify) prepared rule d inquiry).1 =
        (applyRuleBy (Inquiry.askAgain verifier.verify) prepared rule d plain).1 ∧
      (applyRuleBy (Inquiry.verify verifier.verify) prepared rule d inquiry).2.Mirrors verifier
        (applyRuleBy (Inquiry.askAgain verifier.verify) prepared rule d plain).2 := by
  unfold applyRuleBy
  cases rule.check with
  | shaPinning verify =>
      apply Inquiry.collect_related ?_ d.references hmirrors
      rintro ⟨location, uses⟩ inquiry plain hmirrors
      obtain ⟨hfinding, hnext⟩ := pinningFindingBy_mirrors rule verify location uses hmirrors
      exact ⟨congrArg Option.toList hfinding, hnext⟩
  | _ => exact ⟨rfl, hmirrors⟩

theorem scanDefinitionsBy_mirrors (policy : PreparedPolicy) (definitions : List Definition)
    {inquiry plain : Inquiry (Run σ)} (hmirrors : inquiry.Mirrors verifier plain) :
    (scanDefinitionsBy (Inquiry.verify verifier.verify) policy definitions inquiry).1 =
        (scanDefinitionsBy (Inquiry.askAgain verifier.verify) policy definitions plain).1 ∧
      (scanDefinitionsBy (Inquiry.verify verifier.verify) policy definitions
          inquiry).2.Mirrors verifier
        (scanDefinitionsBy (Inquiry.askAgain verifier.verify) policy definitions plain).2 := by
  apply Inquiry.collect_related ?_ definitions hmirrors
  intro d inquiry plain hmirrors
  apply Inquiry.collect_related ?_ policy.rules hmirrors
  intro rule inquiry plain hmirrors
  exact applyRuleBy_mirrors policy rule d hmirrors

namespace Scanner

/-- The scanner of a scan with memory beside that of one without. -/
structure Mirrors (verifier : Verifier σ) (scanner plain : Scanner (Run σ)) : Prop where
  policy : scanner.policy = plain.policy
  unreported : scanner.unreported = plain.unreported
  inquiry : scanner.inquiry.Mirrors verifier plain.inquiry

theorem scanBy_mirrors (definitions : List Definition) {scanner plain : Scanner (Run σ)}
    (hmirrors : scanner.Mirrors verifier plain) :
    (scanner.scanBy (Inquiry.verify verifier.verify) definitions).1 =
        (plain.scanBy (Inquiry.askAgain verifier.verify) definitions).1 ∧
      (scanner.scanBy (Inquiry.verify verifier.verify) definitions).2.Mirrors verifier
        (plain.scanBy (Inquiry.askAgain verifier.verify) definitions).2 := by
  obtain ⟨hpolicy, hunreported, hinquiry⟩ := hmirrors
  have hdefinitions := scanDefinitionsBy_mirrors plain.policy definitions hinquiry
  simp only [scanBy, hpolicy, hunreported]
  exact ⟨congrArg (plain.unreported ++ ·) hdefinitions.1, rfl, rfl, hdefinitions.2⟩

theorem scanEachBy_mirrors (batches : List (List Definition)) {scanner plain : Scanner (Run σ)}
    (hmirrors : scanner.Mirrors verifier plain) :
    (scanner.scanEachBy (Inquiry.verify verifier.verify) batches).1 =
        (plain.scanEachBy (Inquiry.askAgain verifier.verify) batches).1 ∧
      (scanner.scanEachBy (Inquiry.verify verifier.verify) batches).2.Mirrors verifier
        (plain.scanEachBy (Inquiry.askAgain verifier.verify) batches).2 := by
  induction batches generalizing scanner plain with
  | nil =>
      simp only [scanEachBy]
      exact ⟨trivial, hmirrors⟩
  | cons definitions batches ih =>
      obtain ⟨hfound, hnext⟩ := scanBy_mirrors definitions hmirrors
      obtain ⟨hothers, hlast⟩ := ih hnext
      simp only [scanEachBy]
      exact ⟨congrArg₂ List.cons hfound hothers, hlast⟩

/-- Scans with a memory of their own and scans that ask the verifier about every single
reference report the same violations, and they leave the run in the same state: with the
same requests in the same order, the same answers, cells and verdicts.  The run may be in
any state when the first scan begins. -/
theorem memory_is_transparent (engine : Pattern.Engine) (policy : Policy)
    (verifier : Verifier σ) (run : Run σ) (batches : List (List Definition)) :
    let remembering := (start engine policy run).scanEach verifier.verify batches
    let asking := (start engine policy run).scanEachBy (Inquiry.askAgain verifier.verify) batches
    remembering.1 = asking.1 ∧
      remembering.2.inquiry.state.requests = asking.2.inquiry.state.requests ∧
      remembering.2.inquiry.state = asking.2.inquiry.state := by
  intro remembering asking
  have hstart : (start engine policy run).Mirrors verifier (start engine policy run) :=
    ⟨rfl, rfl, rfl, fun _ _ _ _ hverdict => by cases hverdict⟩
  obtain ⟨hfound, hlast⟩ := scanEachBy_mirrors batches hstart
  rw [← scanEach_eq_scanEachBy] at hfound hlast
  exact ⟨hfound, congrArg Run.requests hlast.inquiry.state, hlast.inquiry.state⟩

end Scanner

end

end WorkflowAudit
