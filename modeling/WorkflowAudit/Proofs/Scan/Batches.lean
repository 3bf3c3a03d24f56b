import WorkflowAudit.Proofs.Scan.FailedAnswers

/-!
# Scans in batches

All that a scan leaves to the next one is its inquiry, and that the problems of the policy
have been reported.  So definitions may be scanned in one list or in several, workflows and
bundles alike: the same is found, the same is asked, and the scanner ends in the same
state.  Whoever takes a new scanner for each list has the problems of the policy reported
with each of them, and finds the same in the definitions as long as the verifier answers by
the reference and the commit alone.
-/

namespace WorkflowAudit

open Text

variable {σ : Type}

section

variable (verifier : ReferenceVerifier σ) (policy : PreparedPolicy)

/-- Looks at one list of definitions after the other. -/
def scanDefinitionsEach :
    List (List Definition) → Inquiry σ → List (List Violation) × Inquiry σ
  | [], inquiry => ([], inquiry)
  | definitions :: rest, inquiry =>
      let (found, inquiry) := scanDefinitions verifier policy definitions inquiry
      let (others, inquiry) := scanDefinitionsEach rest inquiry
      (found :: others, inquiry)

theorem scanDefinitions_append (definitions more : List Definition) (inquiry : Inquiry σ) :
    scanDefinitions verifier policy (definitions ++ more) inquiry =
      let first := scanDefinitions verifier policy definitions inquiry
      let second := scanDefinitions verifier policy more first.2
      (first.1 ++ second.1, second.2) :=
  Inquiry.collect_append _ definitions more inquiry

theorem scanDefinitions_flatten (batches : List (List Definition)) (inquiry : Inquiry σ) :
    scanDefinitions verifier policy batches.flatten inquiry =
      let each := scanDefinitionsEach verifier policy batches inquiry
      (each.1.flatten, each.2) := by
  induction batches generalizing inquiry with
  | nil => rfl
  | cons definitions batches ih =>
      simp only [List.flatten_cons, scanDefinitions_append, ih, scanDefinitionsEach]

theorem reaches_scanDefinitionsEach (batches : List (List Definition)) (inquiry : Inquiry σ) :
    inquiry.Reaches verifier (scanDefinitionsEach verifier policy batches inquiry).2 := by
  induction batches generalizing inquiry with
  | nil => exact .refl
  | cons definitions batches ih =>
      have hfirst := Inquiry.reaches_collect
        (fun d => reaches_applyRules verifier policy d policy.rules) definitions inquiry
      exact hfirst.trans (ih _)

end

/-- What a walk finds in each list, read off the answers that are held in the end. -/
theorem scanDefinitionsEach_of_reaches {verifier : ReferenceVerifier σ} {policy : PreparedPolicy}
    {batches : List (List Definition)} {inquiry last : Inquiry σ}
    (hlast : (scanDefinitionsEach verifier policy batches inquiry).2.Reaches verifier last) :
    (scanDefinitionsEach verifier policy batches inquiry).1 =
      batches.map fun definitions => definitions.flatMap fun d =>
        policy.rules.flatMap (Rule.findings last.answer policy d) := by
  induction batches generalizing inquiry with
  | nil => rfl
  | cons definitions batches ih =>
      have hrest := reaches_scanDefinitionsEach verifier policy batches
        (scanDefinitions verifier policy definitions inquiry).2
      exact congrArg₂ List.cons (scanDefinitions_of_reaches (hrest.trans hlast)) (ih hlast)

/-- A list without definitions has nothing found in it, wherever it stands. -/
theorem scanDefinitionsEach_getElem? (verifier : ReferenceVerifier σ) (policy : PreparedPolicy)
    {batches : List (List Definition)} {k : Nat} (hempty : batches[k]? = some [])
    (inquiry : Inquiry σ) :
    (scanDefinitionsEach verifier policy batches inquiry).1[k]? = some [] := by
  rw [scanDefinitionsEach_of_reaches .refl, List.getElem?_map, hempty]
  rfl

namespace Scanner

/-- Scans in a row: the walk over their definitions, with what is still to be reported in
front of the first of them. -/
theorem scanEach_eq (verifier : ReferenceVerifier σ) (batches : List (List Definition))
    (scanner : Scanner σ) :
    scanner.scanEach verifier batches =
      let each := scanDefinitionsEach verifier scanner.policy batches scanner.inquiry
      (each.1.modifyHead (scanner.unreported ++ ·),
        { scanner with
          unreported := if batches.isEmpty then scanner.unreported else []
          inquiry := each.2 }) := by
  induction batches generalizing scanner with
  | nil => rfl
  | cons definitions batches ih =>
      have hrest : ∀ found : List (List Violation), found.modifyHead ([] ++ ·) = found := by
        intro found
        cases found <;> rfl
      simp only [scanEach, scan, ih, hrest, scanDefinitionsEach, List.modifyHead_cons,
        List.isEmpty_cons, Bool.false_eq_true, if_false, ite_self]

/-- Scans one list of definitions after the other, each with a new scanner.  The verifier is
the same for all of them. -/
def scanEachAnew (verifier : ReferenceVerifier σ) (engine : Pattern.Engine) (policy : Policy) :
    List (List Definition) → σ → List (List Violation) × σ
  | [], state => ([], state)
  | definitions :: rest, state =>
      let (found, scanner) := (start engine policy state).scan verifier definitions
      let (others, state) := scanEachAnew verifier engine policy rest scanner.inquiry.state
      (found :: others, state)

/-- What new scanners report, under a verifier that answers by the reference and the commit
alone. -/
theorem scanEachAnew_eq {verifier : ReferenceVerifier σ} {answer : String → String → Verdict}
    (hanswers : AnswersBy verifier answer) (engine : Pattern.Engine) (policy : Policy)
    (batches : List (List Definition)) (state : σ) :
    (scanEachAnew verifier engine policy batches state).1 =
      batches.map fun definitions => policy.problems (policy.patternLibrary engine) ++
        definitions.flatMap fun d =>
          policy.rules.flatMap (Rule.findings answer (policy.prepare engine) d) := by
  induction batches generalizing state with
  | nil => rfl
  | cons definitions batches ih =>
      simp only [scanEachAnew, List.map_cons, ih]
      congr 1
      exact scan_start_eq hanswers engine policy state definitions

end Scanner

/-- What a walk finds in each list, under such a verifier. -/
theorem scanDefinitionsEach_eq_findings {verifier : ReferenceVerifier σ}
    {answer : String → String → Verdict} (hanswers : AnswersBy verifier answer)
    (policy : PreparedPolicy) (batches : List (List Definition)) {inquiry : Inquiry σ}
    (hremembers : inquiry.Remembers answer) :
    (scanDefinitionsEach verifier policy batches inquiry).1 =
      batches.map fun definitions => definitions.flatMap fun d =>
        policy.rules.flatMap (Rule.findings answer policy d) := by
  induction batches generalizing inquiry with
  | nil => rfl
  | cons definitions batches ih =>
      obtain ⟨hfound, hnext⟩ := scanDefinitions_eq_findings hanswers policy definitions hremembers
      simp only [scanDefinitionsEach, List.map_cons, hfound, ih hnext]

namespace Scanner

/-- One scan of two lists of definitions finds, asks and leaves behind the same as a scan of
the first and then of the second, whatever the state of the scanner.  Of scans in a row
with a new scanner the first reports the problems of the policy in front of all else, with
or without definitions, and apart from that each reports what there is in its definitions.
With a new scanner for each of them every one begins with these problems, and that is the
whole difference if the verifier answers by the reference and the commit alone. -/
theorem scans_in_batches (verifier : ReferenceVerifier σ) :
    (∀ (scanner : Scanner σ) (definitions more : List Definition),
      let first := scanner.scan verifier definitions
      let second := first.2.scan verifier more
      scanner.scan verifier (definitions ++ more) = (first.1 ++ second.1, second.2)) ∧
    ∀ (engine : Pattern.Engine) (policy : Policy) (state : σ) (batches : List (List Definition)),
      let problems := policy.problems (policy.patternLibrary engine)
      let ofDefinitions :=
        (scanDefinitionsEach verifier (policy.prepare engine) batches { state }).1
      ((start engine policy state).scanEach verifier batches).1 =
          ofDefinitions.modifyHead (problems ++ ·) ∧
        (∀ k : Nat, batches[k]? = some [] → ofDefinitions[k]? = some []) ∧
        ∀ answer, AnswersBy verifier answer →
          (scanEachAnew verifier engine policy batches state).1 =
            ofDefinitions.map (problems ++ ·) := by
  constructor
  · intro scanner definitions more first second
    have hwalk := scanDefinitions_append verifier scanner.policy definitions more scanner.inquiry
    simp only [first, second, scan, hwalk, List.nil_append, List.append_assoc]
  · intro engine policy state batches problems ofDefinitions
    refine ⟨?_, fun k hempty => ?_, fun answer hanswers => ?_⟩
    · exact congrArg Prod.fst (scanEach_eq verifier batches (start engine policy state))
    · exact scanDefinitionsEach_getElem? verifier _ hempty _
    · have hfound : ofDefinitions = _ := scanDefinitionsEach_eq_findings hanswers _ batches
        (Inquiry.remembers_start answer state)
      rw [scanEachAnew_eq hanswers, hfound, List.map_map]
      rfl

/-- A policy with a rejected pattern, and scans of no definition, of a workflow and of the
same workflow again: a shared scanner reports the pattern once and asks once. -/
theorem scans_in_batches_none_first :
    let verifier : ReferenceVerifier Nat := fun _ _ asked => (.failed .refNotFound, asked + 1)
    let policy : Policy :=
      { rules := [{ id := "shell", check := .unsafePattern [{ id := "open", pattern := "(" }] },
          { id := "pinned", check := .shaPinning true }] }
    let uses := "owner/repo@abcdef0123456789abcdef0123456789abcdef01"
    let workflow : Definition :=
      { path := "ci.yml", kind := .pipeline,
        jobs := [{ id := "build", steps := [{ index := 0, uses := some uses }] }] }
    let batches := [[], [workflow], [workflow]]
    let problems := policy.problems (policy.patternLibrary .standard)
    let ofDefinitions :=
      (scanDefinitionsEach verifier (policy.prepare .standard) batches { state := 0 }).1
    let shared := (start .standard policy 0).scanEach verifier batches
    let anew := scanEachAnew verifier .standard policy batches 0
    shared.1.map (List.map Violation.code) =
        [["invalid_regex"], ["ref_not_found"], ["ref_not_found"]] ∧
      shared.2.inquiry.state = 1 ∧ anew.2 = 2 ∧
      AnswersBy verifier (fun _ _ => .failed .refNotFound) ∧
      shared.1 = ofDefinitions.modifyHead (problems ++ ·) ∧
      ofDefinitions[0]? = some [] ∧ anew.1 = ofDefinitions.map (problems ++ ·) := by
  intro verifier policy uses workflow batches problems ofDefinitions shared anew
  have hcodes : shared.1.map (List.map Violation.code) =
      [["invalid_regex"], ["ref_not_found"], ["ref_not_found"]] := by
    decide +kernel
  have hanswers : AnswersBy verifier (fun _ _ => .failed .refNotFound) := fun _ _ _ => rfl
  obtain ⟨-, hbatches⟩ := scans_in_batches verifier
  obtain ⟨hshared, hempty, hanew⟩ := hbatches .standard policy 0 batches
  exact ⟨hcodes, by decide +kernel, by decide +kernel, hanswers, hshared, hempty 0 rfl,
    hanew _ hanswers⟩

end Scanner

end WorkflowAudit
