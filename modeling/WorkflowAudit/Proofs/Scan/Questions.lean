import WorkflowAudit.Proofs.Scan.Batches
import WorkflowAudit.Proofs.Scan.FailedAnswers
import WorkflowAudit.Proofs.Scan.FirstOccurrences

/-!
# The questions of a scan

The scans of one scanner come to the pinned remote references of their definitions in
order, and they ask about each path and commit where these occur first, in the spelling
that they have there.  So the questions can be read off the definitions: a verifier that is
asked exactly these, one after the other and without any memory, gives the same answers and
ends in the same state, and by these answers every occurrence is judged.
-/

namespace WorkflowAudit

open Text

variable {σ : Type}

/-! ## References with a commit to look up -/

/-- The path of a reference and its commit in lower case, which is what a verdict is about. -/
def RemoteReference.pin (r : RemoteReference) : String × String :=
  (r.path, lowerAsciiString r.gitRef)

/-- The pinned remote reference that a text is. -/
def pinnedRemote? (uses : String) : Option RemoteReference :=
  match StepReference.parse uses with
  | .ok (.remote r) => if r.isPinned then some r else none
  | _ => none

/-- The pinned remote references that a rule has looked up in a definition, as often as they
occur and in document order. -/
def Rule.lookedUp (rule : Rule) (d : Definition) : List RemoteReference :=
  match rule.check with
  | .shaPinning true => d.references.filterMap fun (_, uses) => pinnedRemote? uses
  | _ => []

/-- The same for all rules of a policy and some definitions, in order. -/
def Policy.lookedUp (policy : Policy) (definitions : List Definition) : List RemoteReference :=
  definitions.flatMap fun d => policy.rules.flatMap fun rule => rule.lookedUp d

theorem pinningStatus_eq_pinned_iff {rule : Rule} {location : Location} {uses : String}
    {r : RemoteReference} :
    pinningStatus rule location uses = .pinned r ↔ pinnedRemote? uses = some r := by
  unfold pinningStatus pinnedRemote?
  cases StepReference.parse uses with
  | error e => simp
  | ok reference =>
      cases reference with
      | inside path => simp
      | image image => simp
      | remote remote => cases hpinned : remote.isPinned <;> simp [hpinned]

theorem mem_lookedUp {policy : Policy} {definitions : List Definition} {rule : Rule}
    (hrule : rule ∈ policy.rules) (hcheck : rule.check = .shaPinning true) {d : Definition}
    (hd : d ∈ definitions) {location : Location} {uses : String}
    (huses : (location, uses) ∈ d.references) {r : RemoteReference}
    (hr : pinnedRemote? uses = some r) : r ∈ policy.lookedUp definitions := by
  refine List.mem_flatMap.2 ⟨d, hd, List.mem_flatMap.2 ⟨rule, hrule, ?_⟩⟩
  rw [Rule.lookedUp, hcheck]
  exact List.mem_filterMap.2 ⟨(location, uses), huses, hr⟩

theorem grammatical_of_mem_lookedUp {policy : Policy} {definitions : List Definition}
    {r : RemoteReference} (hr : r ∈ policy.lookedUp definitions) : r.Grammatical := by
  obtain ⟨d, -, hd⟩ := List.mem_flatMap.1 hr
  obtain ⟨rule, -, hrule⟩ := List.mem_flatMap.1 hd
  unfold Rule.lookedUp at hrule
  split at hrule
  · obtain ⟨⟨location, uses⟩, -, huses⟩ := List.mem_filterMap.1 hrule
    have hstatus : pinningStatus rule location uses = .pinned r :=
      pinningStatus_eq_pinned_iff.2 huses
    exact (grammatical_of_pinningStatus hstatus).2.1
  · cases hrule

/-! ## Questions without a memory -/

/-- Asks about one reference after the other. -/
def askEach (verifier : ReferenceVerifier σ) :
    List RemoteReference → σ → List (RemoteReference × Verdict) × σ
  | [], state => ([], state)
  | r :: rest, state =>
      let (verdict, state) := verifier r.path r.gitRef state
      let (others, state) := askEach verifier rest state
      ((r, verdict) :: others, state)

/-- The verifier with a list of what it has been asked. -/
def recording (verifier : ReferenceVerifier σ) :
    ReferenceVerifier (σ × List (String × String)) :=
  fun reference claimed (state, questions) =>
    let (verdict, state) := verifier reference claimed state
    (verdict, state, questions ++ [(reference, claimed)])

section

variable (verifier : ReferenceVerifier σ)

theorem askEach_append_singleton (references : List RemoteReference) (r : RemoteReference)
    (state : σ) :
    askEach verifier (references ++ [r]) state =
      let before := askEach verifier references state
      let (verdict, state) := verifier r.path r.gitRef before.2
      (before.1 ++ [(r, verdict)], state) := by
  induction references generalizing state with
  | nil => rfl
  | cons first references ih => simp only [List.cons_append, askEach, ih]

theorem map_fst_askEach (references : List RemoteReference) (state : σ) :
    (askEach verifier references state).1.map Prod.fst = references := by
  induction references generalizing state with
  | nil => rfl
  | cons r references ih => simp only [askEach, List.map_cons, ih]

theorem askEach_recording (references : List RemoteReference) (state : σ)
    (questions : List (String × String)) :
    askEach (recording verifier) references (state, questions) =
      let each := askEach verifier references state
      (each.1, each.2, questions ++ references.map fun r => (r.path, r.gitRef)) := by
  induction references generalizing state questions with
  | nil => simp [askEach]
  | cons r references ih =>
      simp only [askEach, recording, ih, List.map_cons, List.append_assoc, List.singleton_append]

end

/-! ## What is remembered of them -/

namespace Inquiry

theorem memoKey_eq_iff {r r' : RemoteReference} (hr : r.Grammatical) (hr' : r'.Grammatical) :
    memoKey r.path r.gitRef = memoKey r'.path r'.gitRef ↔ r.pin = r'.pin := by
  constructor
  · intro heq
    obtain ⟨hpath, hsha⟩ := path_of_memoKey_eq hr hr' heq
    exact Prod.ext hpath hsha
  · intro heq
    obtain ⟨hpath, hsha⟩ := Prod.mk.inj heq
    rw [memoKey, memoKey, hpath, hsha]

/-- Verifies one reference after the other. -/
def verifyEach (verifier : ReferenceVerifier σ) (references : List RemoteReference)
    (inquiry : Inquiry σ) : Inquiry σ :=
  references.foldl (fun inquiry r => (inquiry.verify verifier r.path r.gitRef).2) inquiry

/-- The inquiry with the answers to some questions. -/
def ofAnswers (answers : List (RemoteReference × Verdict)) (state : σ) : Inquiry σ where
  verdicts := answers.map fun (r, verdict) => (memoKey r.path r.gitRef, verdict)
  state := state

variable {verifier : ReferenceVerifier σ}

/-- A walk that verifies some references at each item verifies all of them, in order. -/
theorem collect_eq_verifyEach {α : Type} {look : α → Inquiry σ → List Violation × Inquiry σ}
    {asks : α → List RemoteReference}
    (hlook : ∀ item inquiry, (look item inquiry).2 = inquiry.verifyEach verifier (asks item))
    (items : List α) (inquiry : Inquiry σ) :
    (collect look items inquiry).2 = inquiry.verifyEach verifier (items.flatMap asks) := by
  induction items generalizing inquiry with
  | nil => rfl
  | cons item items ih =>
      calc
        (collect look (item :: items) inquiry).2 =
            (collect look items (look item inquiry).2).2 := rfl
        _ = (inquiry.verifyEach verifier (asks item)).verifyEach verifier
              (items.flatMap asks) := by rw [ih, hlook]
        _ = inquiry.verifyEach verifier ((item :: items).flatMap asks) := by
              rw [List.flatMap_cons, verifyEach, verifyEach, verifyEach, List.foldl_append]

theorem lookup_ofAnswers_eq_none_iff (state : σ) {answers : List (RemoteReference × Verdict)}
    {asked : List RemoteReference} (hasked : answers.map Prod.fst = asked)
    (hgrammatical : ∀ first ∈ asked, first.Grammatical) {r : RemoteReference}
    (hr : r.Grammatical) :
    (ofAnswers answers state).verdicts.lookup (memoKey r.path r.gitRef) = none ↔
      r.pin ∉ asked.map RemoteReference.pin := by
  subst hasked
  have hkeys : ∀ answer ∈ answers, memoKey r.path r.gitRef ≠
      memoKey answer.1.path answer.1.gitRef ↔ answer.1.pin ≠ r.pin := by
    intro answer hanswer
    have hfirst := hgrammatical answer.1 (List.mem_map_of_mem hanswer)
    exact (not_congr (memoKey_eq_iff hr hfirst)).trans ne_comm
  simp only [ofAnswers, List.lookup_eq_none_iff, List.mem_map, forall_exists_index, and_imp,
    forall_apply_eq_imp_iff₂, bne_iff_ne, not_exists, not_and]
  exact forall₂_congr hkeys

/-- The answer on a path and a commit is found again by them. -/
theorem lookup_ofAnswers (state : σ) {answers : List (RemoteReference × Verdict)}
    (hanswers : ∀ first ∈ answers.map Prod.fst, first.Grammatical)
    (hnodup : ((answers.map Prod.fst).map RemoteReference.pin).Nodup) {first : RemoteReference}
    {verdict : Verdict} (hmem : (first, verdict) ∈ answers) :
    (ofAnswers answers state).verdicts.lookup (memoKey first.path first.gitRef) =
      some verdict := by
  induction answers with
  | nil => cases hmem
  | cons answer answers ih =>
      obtain ⟨hnew, hnodup⟩ := List.nodup_cons.1 hnodup
      rcases List.mem_cons.1 hmem with rfl | hmem
      · exact List.lookup_cons_self
      · have hpin : first.pin ∈ (answers.map Prod.fst).map RemoteReference.pin :=
          List.mem_map_of_mem (List.mem_map_of_mem hmem)
        have hkey : memoKey first.path first.gitRef ≠ memoKey answer.1.path answer.1.gitRef := by
          intro heq
          apply hnew
          rwa [← (memoKey_eq_iff (hanswers _ (List.mem_map_of_mem (.tail _ hmem)))
            (hanswers _ List.mem_cons_self)).1 heq]
        calc
          (ofAnswers (answer :: answers) state).verdicts.lookup (memoKey first.path first.gitRef) =
              (ofAnswers answers state).verdicts.lookup (memoKey first.path first.gitRef) := by
                simp only [ofAnswers, List.map_cons, List.lookup_cons, beq_false_of_ne hkey]
          _ = some verdict := ih (fun r hr => hanswers r (List.mem_cons_of_mem _ hr)) hnodup hmem

/-- Whatever the verifier is, only first occurrences are asked about. -/
theorem verifyEach_eq_ofAnswers (verifier : ReferenceVerifier σ)
    {references : List RemoteReference} (hgrammatical : ∀ r ∈ references, r.Grammatical)
    (state : σ) :
    verifyEach verifier references { state } =
      let each := askEach verifier (firstsBy RemoteReference.pin references) state
      ofAnswers each.1 each.2 := by
  induction references using List.reverseRecOn with
  | nil => rfl
  | append_singleton references r ih =>
      have hbefore : ∀ first ∈ references, first.Grammatical :=
        fun first hfirst => hgrammatical first (List.mem_append_left _ hfirst)
      have hlast : verifyEach verifier (references ++ [r]) { state } =
          ((verifyEach verifier references { state }).verify verifier r.path r.gitRef).2 :=
        List.foldl_concat ..
      have hlookup := lookup_ofAnswers_eq_none_iff
        (askEach verifier (firstsBy RemoteReference.pin references) state).2
        (map_fst_askEach verifier (firstsBy RemoteReference.pin references) state)
        (fun first hfirst => hbefore first (mem_of_mem_firstsBy hfirst))
        (hgrammatical r (List.mem_append_right _ List.mem_cons_self))
      rw [mem_map_firstsBy_iff] at hlookup
      rw [hlast, ih hbefore, firstsBy_append_singleton, verify]
      by_cases hseen : r.pin ∈ references.map RemoteReference.pin
      · obtain ⟨verdict, hmemo⟩ :=
          Option.ne_none_iff_exists'.1 fun hnone => hlookup.1 hnone hseen
        rw [hmemo, if_pos hseen]
      · rw [hlookup.2 hseen, if_neg hseen, askEach_append_singleton]
        simp [ofAnswers]

end Inquiry

/-! ## What scans ask -/

section

variable (verifier : ReferenceVerifier σ)

theorem inquiry_pinningFinding (rule : Rule) (verify : Bool) (location : Location)
    (uses : String) (inquiry : Inquiry σ) :
    (pinningFinding verifier rule verify location uses inquiry).2 =
      inquiry.verifyEach verifier (if verify then (pinnedRemote? uses).toList else []) := by
  unfold pinningFinding
  cases hstatus : pinningStatus rule location uses with
  | settled finding =>
      have hnone : pinnedRemote? uses = none := by
        apply Option.eq_none_iff_forall_ne_some.2
        intro r hr
        rw [pinningStatus_eq_pinned_iff.2 hr] at hstatus
        cases hstatus
      rw [hnone]
      cases verify <;> rfl
  | pinned r =>
      rw [pinningStatus_eq_pinned_iff.1 hstatus]
      cases verify <;> rfl

theorem inquiry_pinningFindings (rule : Rule) (verify : Bool)
    (references : List (Location × String)) (inquiry : Inquiry σ) :
    (pinningFindings verifier rule verify references inquiry).2 =
      inquiry.verifyEach verifier (references.flatMap fun (_, uses) =>
        if verify then (pinnedRemote? uses).toList else []) := by
  apply Inquiry.collect_eq_verifyEach
  rintro ⟨location, uses⟩ inquiry
  exact inquiry_pinningFinding verifier rule verify location uses inquiry

theorem inquiry_applyRule (prepared : PreparedPolicy) (rule : Rule) (d : Definition)
    (inquiry : Inquiry σ) :
    (applyRule verifier prepared rule d inquiry).2 =
      inquiry.verifyEach verifier (rule.lookedUp d) := by
  unfold applyRule Rule.lookedUp
  cases hcheck : rule.check with
  | shaPinning verify =>
      have hwalk := inquiry_pinningFindings verifier rule verify d.references inquiry
      cases verify with
      | true => simpa [List.filterMap_eq_flatMap_toList] using hwalk
      | false =>
          have hnone : ∀ reference ∈ d.references, (fun (_, uses) =>
              if false then (pinnedRemote? uses).toList else []) reference = [] :=
            fun _ _ => rfl
          rwa [List.flatMap_eq_nil_iff.2 hnone] at hwalk
  | _ => rfl

theorem inquiry_scanDefinitions (engine : Pattern.Engine) (policy : Policy)
    (definitions : List Definition) (inquiry : Inquiry σ) :
    (scanDefinitions verifier (policy.prepare engine) definitions inquiry).2 =
      inquiry.verifyEach verifier (policy.lookedUp definitions) := by
  apply Inquiry.collect_eq_verifyEach
  intro d inquiry
  exact Inquiry.collect_eq_verifyEach (fun rule => inquiry_applyRule verifier _ rule d) _ _

end

namespace Scanner

section

variable (verifier : ReferenceVerifier σ) (engine : Pattern.Engine) (policy : Policy) (state : σ)
  (batches : List (List Definition))

/-- Scans in a row end with the answers to the first occurrences. -/
theorem inquiry_scanEach :
    ((start engine policy state).scanEach verifier batches).2.inquiry =
      let each := askEach verifier
        (firstsBy RemoteReference.pin (policy.lookedUp batches.flatten)) state
      .ofAnswers each.1 each.2 := by
  have hflatten := scanDefinitions_flatten verifier (policy.prepare engine) batches { state }
  calc
    ((start engine policy state).scanEach verifier batches).2.inquiry =
        (scanDefinitionsEach verifier (policy.prepare engine) batches { state }).2 :=
      congrArg (fun run => run.2.inquiry) (scanEach_eq verifier batches _)
    _ = (scanDefinitions verifier (policy.prepare engine) batches.flatten { state }).2 :=
      (congrArg Prod.snd hflatten).symm
    _ = Inquiry.verifyEach verifier (policy.lookedUp batches.flatten) { state } :=
      inquiry_scanDefinitions verifier engine policy batches.flatten _
    _ = _ := Inquiry.verifyEach_eq_ofAnswers verifier
      (fun _ hr => grammatical_of_mem_lookedUp hr) state

/-- The findings of scans in a row, read off the answers that are held in the end. -/
theorem scanEach_eq_findings :
    let scanned := (start engine policy state).scanEach verifier batches
    scanned.1 = (batches.map fun definitions => definitions.flatMap fun d =>
      policy.rules.flatMap fun rule => rule.findings scanned.2.inquiry.answer
        (policy.prepare engine) d).modifyHead
          (policy.problems (policy.patternLibrary engine) ++ ·) := by
  intro scanned
  have hscanned : scanned = _ := scanEach_eq verifier batches (start engine policy state)
  have hinquiry : scanned.2.inquiry =
      (scanDefinitionsEach verifier (policy.prepare engine) batches { state }).2 :=
    congrArg (fun run => run.2.inquiry) hscanned
  have hfindings :
      (scanDefinitionsEach verifier (policy.prepare engine) batches { state }).1 = _ :=
    scanDefinitionsEach_of_reaches .refl
  rw [hinquiry]
  exact (congrArg Prod.fst hscanned).trans (congrArg (List.modifyHead _) hfindings)

/-- The answer for a path and a commit is the one to the first reference with them. -/
theorem exists_answer_of_mem_lookedUp {r : RemoteReference}
    (hr : r ∈ policy.lookedUp batches.flatten) :
    let scanned := (start engine policy state).scanEach verifier batches
    let asked := firstsBy RemoteReference.pin (policy.lookedUp batches.flatten)
    ∃ first : RemoteReference, first.pin = r.pin ∧
      (first, scanned.2.inquiry.answer r.path (lowerAsciiString r.gitRef)) ∈
        (askEach verifier asked state).1 := by
  intro scanned asked
  have hasked := map_fst_askEach verifier asked state
  have hgrammatical : ∀ first ∈ asked, first.Grammatical :=
    fun first hfirst => grammatical_of_mem_lookedUp (mem_of_mem_firstsBy hfirst)
  have hnodup : (asked.map RemoteReference.pin).Nodup := nodup_map_firstsBy _ _
  obtain ⟨first, hfirst, hpin⟩ : ∃ first ∈ asked, first.pin = r.pin :=
    List.mem_map.1 (mem_map_firstsBy_iff.2 (List.mem_map_of_mem hr))
  rw [← hasked] at hfirst
  obtain ⟨⟨_, verdict⟩, hanswer, rfl⟩ := List.mem_map.1 hfirst
  refine ⟨_, hpin, ?_⟩
  rw [← hasked] at hgrammatical hnodup
  have hlookup := Inquiry.lookup_ofAnswers (askEach verifier asked state).2
    hgrammatical hnodup hanswer
  obtain ⟨hpath, hsha⟩ := Prod.mk.inj hpin
  rw [Inquiry.memoKey, hpath, hsha, ← inquiry_scanEach verifier engine] at hlookup
  rw [Inquiry.answer, hlookup]
  exact hanswer

end

/-- The questions that a verifier is asked in scans in a row, and no others, are those about
the first reference with each path and commit among the pinned remote ones that rules with
verification come to, in their order and spelling.  Each reference is judged, by every rule
and in every scan, by the answer to the one question about its path and commit. -/
theorem verifier_is_asked_once (verifier : ReferenceVerifier σ) (engine : Pattern.Engine)
    (policy : Policy) (state : σ) (batches : List (List Definition)) :
    let scanned := (start engine policy state).scanEach verifier batches
    let recorded := (start engine policy (state, [])).scanEach (recording verifier) batches
    let examined := policy.lookedUp batches.flatten
    let asked := firstsBy RemoteReference.pin examined
    let each := askEach verifier asked state
    let answer := scanned.2.inquiry.answer
    ListedBy (· < ·) (FirstAt RemoteReference.pin examined) asked ∧
      (asked.map RemoteReference.pin).Nodup ∧
      recorded.1 = scanned.1 ∧ scanned.2.inquiry.state = each.2 ∧
      recorded.2.inquiry.state = (each.2, asked.map fun r => (r.path, r.gitRef)) ∧
      scanned.1 = (batches.map fun definitions => definitions.flatMap fun d =>
        policy.rules.flatMap fun rule => rule.findings answer
          (policy.prepare engine) d).modifyHead
            (policy.problems (policy.patternLibrary engine) ++ ·) ∧
      ∀ rule ∈ policy.rules, rule.check = .shaPinning true →
        (∀ d, rule.findings answer (policy.prepare engine) d =
          d.references.flatMap fun (location, uses) =>
            (answeredFinding answer rule true location uses).toList) ∧
        ∀ d ∈ batches.flatten, ∀ location uses, (location, uses) ∈ d.references →
          ∀ r, pinnedRemote? uses = some r → ∃ first verdict, (first, verdict) ∈ each.1 ∧
            first.pin = r.pin ∧ answeredFinding answer rule true location uses =
              verdictFinding rule location r verdict := by
  intro scanned recorded examined asked each answer
  have hinquiry : scanned.2.inquiry = .ofAnswers each.1 each.2 :=
    inquiry_scanEach verifier engine policy state batches
  have hrecorded : recorded.2.inquiry =
      .ofAnswers each.1 (each.2, asked.map fun r => (r.path, r.gitRef)) := by
    refine (inquiry_scanEach (recording verifier) engine policy (state, []) batches).trans ?_
    simp only [askEach_recording, List.nil_append, each, asked, examined]
  have hanswer : recorded.2.inquiry.answer = answer := by
    funext path sha
    simp only [answer, Inquiry.answer, hrecorded, hinquiry, Inquiry.ofAnswers]
  have hfindings := scanEach_eq_findings verifier engine policy state batches
  have hsame := scanEach_eq_findings (recording verifier) engine policy (state, []) batches
  refine ⟨listedBy_firstsBy _ _, nodup_map_firstsBy _ _, ?_, congrArg Inquiry.state hinquiry,
    congrArg Inquiry.state hrecorded, hfindings, fun rule hrule hcheck => ⟨fun d => ?_, ?_⟩⟩
  · calc
      recorded.1 = _ := hsame
      _ = scanned.1 := by rw [hanswer, hfindings]
  · unfold Rule.findings
    rw [hcheck]
  · intro d hd location uses huses r hr
    obtain ⟨first, hpin, hmem⟩ := exists_answer_of_mem_lookedUp verifier engine policy state
      batches (mem_lookedUp hrule hcheck hd huses hr)
    refine ⟨first, _, hmem, hpin, ?_⟩
    simp only [answeredFinding, pinningStatus_eq_pinned_iff.2 hr, if_true]
    rfl

/-- A verifier that refuses only what it is asked first, and a commit in two spellings: the
second workflow is judged by the answer that the first one led to. -/
theorem verifier_is_asked_once_two_spellings :
    let verifier : ReferenceVerifier Nat := fun _ _ asked =>
      (if asked = 0 then .failed .refNotFound else .verified, asked + 1)
    let rule : Rule := { id := "pinned", check := .shaPinning true }
    let policy : Policy := { rules := [rule] }
    let workflow (path uses : String) : Definition :=
      { path := path, kind := .pipeline,
        jobs := [{ id := "build", steps := [{ index := 0, uses := some uses }] }] }
    let upper : RemoteReference :=
      ⟨"owner", "repo", none, "ABCDEF0123456789abcdef0123456789abcdef01"⟩
    let lower : RemoteReference :=
      ⟨"owner", "repo", none, "abcdef0123456789abcdef0123456789abcdef01"⟩
    let uses := "owner/repo@abcdef0123456789abcdef0123456789abcdef01"
    let release := workflow "release.yml" uses
    let batches :=
      [[workflow "ci.yml" "owner/repo@ABCDEF0123456789abcdef0123456789abcdef01"], [release]]
    let location := Location.atStep "release.yml" "build" 0
    policy.lookedUp batches.flatten = [upper, lower] ∧
      ((start .standard policy (0, [])).scanEach (recording verifier) batches).2.inquiry.state =
        (1, [("owner/repo", "ABCDEF0123456789abcdef0123456789abcdef01")]) ∧
      answeredFinding ((start .standard policy 0).scanEach verifier batches).2.inquiry.answer
          rule true location uses =
        verdictFinding rule location lower (.failed .refNotFound) := by
  intro verifier rule policy workflow upper lower uses release batches location
  have hread : pinnedRemote? uses = some lower := by decide +kernel
  have hlookedUp : policy.lookedUp batches.flatten = [upper, lower] := by decide +kernel
  have hasked : firstsBy RemoteReference.pin [upper, lower] = [upper] := by decide +kernel
  obtain ⟨-, -, -, -, hstate, -, hjudged⟩ :=
    verifier_is_asked_once verifier .standard policy 0 batches
  rw [hlookedUp, hasked] at hstate hjudged
  have hpath : upper.path = "owner/repo" := by decide +kernel
  rw [List.map_singleton, hpath] at hstate
  have hrelease : release ∈ batches.flatten := .tail _ List.mem_cons_self
  have huses : (location, uses) ∈ release.references := List.mem_cons_self
  obtain ⟨-, hjudged⟩ := hjudged rule List.mem_cons_self rfl
  obtain ⟨first, verdict, hmem, -, hfinding⟩ :=
    hjudged release hrelease location uses huses lower hread
  have hrefused : verdict = .failed .refNotFound :=
    (Prod.mk.inj (List.mem_singleton.1 hmem)).2
  rw [hrefused] at hfinding
  exact ⟨hlookedUp, hstate, hfinding⟩

end Scanner

end WorkflowAudit
