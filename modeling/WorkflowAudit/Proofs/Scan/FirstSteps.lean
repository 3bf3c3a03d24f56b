import WorkflowAudit.Proofs.Reference.Grammar
import WorkflowAudit.Proofs.Scan.DocumentOrder
import WorkflowAudit.Proofs.Scan.OneRule

/-!
# First steps that a policy requires

A rule on permissions can require a repository for the first step of every job.  Its
policy is accepted when the required text has two names with a slash between them.  The
check compares this text with what a `uses` value is reduced to, and there both names are
segments.  So a first step can meet the rule if and only if the required names are
segments too.  With any other names the rule is accepted and reports every job.
-/

namespace WorkflowAudit

open Text

/-! ## Names up to the case of ASCII letters -/

/-- Only letters change with their case. -/
theorem toLower_eq_iff {c other : Char} (hother : isAsciiLetter other = false) :
    c.toLower = other ↔ c = other := by
  have hshift : ('a'.val - 'A'.val).toNat = 32 := rfl
  have hbounds : 'A'.val.toNat = 65 ∧ 'Z'.val.toNat = 90 ∧ 'a'.val.toNat = 97 ∧
      'z'.val.toNat = 122 := by
    decide
  simp only [isAsciiLetter, Bool.or_eq_false_iff, Bool.and_eq_false_iff, decide_eq_false_iff_not,
    Char.le_def, UInt32.le_iff_toNat_le] at hother
  simp only [Char.ext_iff, ← UInt32.toNat_inj]
  unfold Char.toLower
  split
  · next hupper =>
      simp only [ge_iff_le, UInt32.le_iff_toNat_le] at hupper
      simp only [UInt32.toNat_add]
      omega
  · rfl

theorem lowerAscii_eq_iff {text other : List Char}
    (hother : ∀ c ∈ other, isAsciiLetter c = false) : lowerAscii text = other ↔ text = other := by
  unfold lowerAscii
  induction text generalizing other with
  | nil => rfl
  | cons c text ih =>
      cases other with
      | nil => simp
      | cons first other =>
          obtain ⟨hfirst, hrest⟩ := List.forall_mem_cons.1 hother
          rw [List.map_cons, List.cons.injEq, List.cons.injEq, toLower_eq_iff hfirst, ih hrest]

theorem slash_not_mem_lowerAscii {text : List Char} (htext : '/' ∉ text) :
    '/' ∉ lowerAscii text := by
  intro hmem
  obtain ⟨c, hc, hlower⟩ := List.mem_map.1 hmem
  exact htext ((toLower_eq_iff (by decide)).1 hlower ▸ hc)

/-- Two slugs are equal up to case if both their names are. -/
theorem equalIgnoringCase_slug_iff {owner repo owner' repo' : List Char} (howner : '/' ∉ owner)
    (howner' : '/' ∉ owner') :
    equalIgnoringCase (String.ofList (owner ++ '/' :: repo))
        (String.ofList (owner' ++ '/' :: repo')) = true ↔
      lowerAscii owner = lowerAscii owner' ∧ lowerAscii repo = lowerAscii repo' := by
  have hlower : ∀ front back, lowerAscii (front ++ '/' :: back) =
      lowerAscii front ++ '/' :: lowerAscii back := fun front back => List.map_append
  rw [equalIgnoringCase, beq_iff_eq, String.toList_ofList, String.toList_ofList, hlower, hlower]
  constructor
  · exact append_separator_inj (slash_not_mem_lowerAscii howner) (slash_not_mem_lowerAscii howner')
  · rintro ⟨hsame, hsame'⟩
    rw [hsame, hsame']

namespace RemoteReference

theorem isSegmentChar_toLower (c : Char) : isSegmentChar c.toLower = isSegmentChar c := by
  have hshift : ('a'.val - 'A'.val).toNat = 32 := rfl
  have hbounds : '0'.val.toNat = 48 ∧ '9'.val.toNat = 57 ∧ 'A'.val.toNat = 65 ∧
      'Z'.val.toNat = 90 ∧ 'a'.val.toNat = 97 ∧ 'z'.val.toNat = 122 := by
    decide
  have hmarks : '-'.val.toNat = 45 ∧ '_'.val.toNat = 95 ∧ '.'.val.toNat = 46 := by decide
  rw [Bool.eq_iff_iff]
  simp only [isSegmentChar, isAsciiLetter, isDecimalDigit, Bool.or_eq_true, Bool.and_eq_true,
    decide_eq_true_eq, beq_iff_eq, Char.le_def, UInt32.le_iff_toNat_le, Char.ext_iff,
    ← UInt32.toNat_inj]
  unfold Char.toLower
  split
  · next hupper =>
      simp only [ge_iff_le, UInt32.le_iff_toNat_le] at hupper
      simp only [UInt32.toNat_add]
      omega
  · rfl

/-- Case is of no account for what can stand for an owner or a repository. -/
theorem isSegment_lowerAscii_iff {segment : List Char} :
    IsSegment (lowerAscii segment) ↔ IsSegment segment := by
  have hnil : lowerAscii segment = [] ↔ segment = [] := lowerAscii_eq_iff (by simp)
  have hdot : lowerAscii segment = ['.'] ↔ segment = ['.'] :=
    lowerAscii_eq_iff (by simp [isAsciiLetter])
  have hdots : lowerAscii segment = ['.', '.'] ↔ segment = ['.', '.'] :=
    lowerAscii_eq_iff (by simp [isAsciiLetter])
  have hchars : (∀ c ∈ lowerAscii segment, isSegmentChar c = true) ↔
      ∀ c ∈ segment, isSegmentChar c = true := by
    rw [lowerAscii, List.forall_mem_map]
    simp only [isSegmentChar_toLower]
  constructor
  · rintro ⟨h, h', h'', hall⟩
    exact ⟨mt hnil.2 h, mt hdot.2 h', mt hdots.2 h'', hchars.1 hall⟩
  · rintro ⟨h, h', h'', hall⟩
    exact ⟨mt hnil.1 h, mt hdot.1 h', mt hdots.1 h'', hchars.2 hall⟩

theorem IsSegment.of_lowerAscii_eq {segment other : List Char} (hsegment : IsSegment segment)
    (hsame : lowerAscii segment = lowerAscii other) : IsSegment other := by
  rw [← isSegment_lowerAscii_iff, ← hsame]
  exact isSegment_lowerAscii_iff.2 hsegment

end RemoteReference

/-! ## Required repositories -/

/-- A text that is read as a remote reference and reduced to the required repository, up to
the case of ASCII letters. -/
def NamesRepository (required uses : String) : Prop :=
  ∃ r, RemoteReference.parse uses = .ok r ∧ equalIgnoringCase r.slug required = true

/-- A text that consists of two names and the slash between them. -/
structure TwoNames (required : String) (owner repo : List Char) : Prop where
  text : required.toList = owner ++ '/' :: repo
  owner_ne_nil : owner ≠ []
  repo_ne_nil : repo ≠ []
  owner_slash : '/' ∉ owner
  repo_slash : '/' ∉ repo

theorem exists_twoNames_of_isOwnerRepo {required : String} (hshape : isOwnerRepo required = true) :
    ∃ owner repo, TwoNames required owner repo := by
  unfold isOwnerRepo at hshape
  split at hshape
  · next owner repo hsplit =>
      rw [Bool.and_eq_true, Bool.not_eq_true', Bool.not_eq_true', List.isEmpty_eq_false_iff,
        List.isEmpty_eq_false_iff] at hshape
      have hjoined := joinWith_splitOn '/' required.toList
      rw [hsplit] at hjoined
      have hpieces : ∀ piece ∈ [owner, repo], '/' ∉ piece :=
        fun piece hpiece => not_mem_of_mem_splitOn (hsplit ▸ hpiece)
      exact ⟨owner, repo, by simpa [joinWith] using hjoined.symm, hshape.1, hshape.2,
        hpieces owner (by simp), hpieces repo (by simp)⟩
  · cases hshape

section

variable {required : String} {owner repo : List Char}

open RemoteReference

/-- What has to stand in front of the `@` of a text that names the required repository. -/
theorem TwoNames.namesRepository_iff (hnames : TwoNames required owner repo) {uses : String} :
    NamesRepository required uses ↔
      ∃ owner' repo' further, Splits (pathPart uses) owner' repo' further ∧
        lowerAscii owner' = lowerAscii owner ∧ lowerAscii repo' = lowerAscii repo := by
  have hrequired : required = String.ofList (owner ++ '/' :: repo) := by
    rw [← hnames.text, String.ofList_toList]
  constructor
  · rintro ⟨r, hread, hsame⟩
    obtain ⟨owner', repo', further, hsplits, rfl⟩ := parse_eq_ok_iff.1 hread
    rw [slug_ofSegments, hrequired,
      equalIgnoringCase_slug_iff hsplits.owner.slash_not_mem hnames.owner_slash] at hsame
    exact ⟨owner', repo', further, hsplits, hsame⟩
  · rintro ⟨owner', repo', further, hsplits, hsame⟩
    refine ⟨_, parse_eq_ok_iff.2 ⟨owner', repo', further, hsplits, rfl⟩, ?_⟩
    rw [slug_ofSegments, hrequired]
    exact (equalIgnoringCase_slug_iff hsplits.owner.slash_not_mem hnames.owner_slash).2 hsame

theorem TwoNames.splits (hnames : TwoNames required owner repo) (howner : IsSegment owner)
    (hrepo : IsSegment repo) : Splits required.toList owner repo [] := by
  refine ⟨?_, howner, hrepo, List.not_mem_nil⟩
  rw [← splitOn_eq, hnames.text, splitOn_append_separator hnames.owner_slash,
    splitOn_of_not_mem hnames.repo_slash]

/-- Some text names the required repository if and only if both names are segments. -/
theorem TwoNames.exists_namesRepository_iff (hnames : TwoNames required owner repo) :
    (∃ uses, NamesRepository required uses) ↔ IsSegment owner ∧ IsSegment repo := by
  simp only [hnames.namesRepository_iff]
  constructor
  · rintro ⟨uses, owner', repo', further, hsplits, howner, hrepo⟩
    exact ⟨hsplits.owner.of_lowerAscii_eq howner, hsplits.repo.of_lowerAscii_eq hrepo⟩
  · rintro ⟨howner, hrepo⟩
    have hsplits := hnames.splits howner hrepo
    have hat : '@' ∉ required.toList := by
      have hchar : isSegmentChar '@' = false := by decide
      rw [hnames.text, List.mem_append, List.mem_cons]
      rintro (hmem | heq | hmem)
      · rw [howner.chars _ hmem] at hchar
        cases hchar
      · cases heq
      · rw [hrepo.chars _ hmem] at hchar
        cases hchar
    refine ⟨String.ofList (required.toList ++ '@' :: "v1".toList), owner, repo, [], ?_, rfl, rfl⟩
    rwa [pathPart_append_at hsplits hat]

end

/-! ## Findings on first steps -/

theorem Step.usesRepository_iff {step : Step} {required : String} :
    step.usesRepository required = true ↔
      ∃ uses, step.uses = some uses ∧ NamesRepository required uses := by
  unfold Step.usesRepository NamesRepository
  simp only [← RemoteReference.step_eq_remote_iff]
  cases huses : step.uses with
  | none => simp
  | some uses =>
      cases hread : StepReference.parse uses with
      | error fault => simp [hread]
      | ok reference => cases reference <;> simp [hread]

/-- The job at a position starts with a step that does not use the required repository, and
the rule reports this step. -/
def StartsOtherwise (rule : Rule) (required : String) (d : Definition) (i : Nat) (v : Violation) :
    Prop :=
  ∃ job first rest, d.jobs[i]? = some job ∧ job.steps = first :: rest ∧
    (¬∃ uses, first.uses = some uses ∧ NamesRepository required uses) ∧
    v = rule.violation "hardening_step_not_first"
      s!"first step of job '{job.id}' is not {required}" (.atStep d.path job.id first.index)

theorem listedBy_hardeningFindings (rule : Rule) (required : String) (d : Definition) :
    ListedBy (· < ·) (StartsOtherwise rule required d) (hardeningFindings rule required d) := by
  refine ((listedBy_getElem? d.jobs).filterMap _).congr fun i v => ?_
  unfold StartsOtherwise
  simp only [← Step.usesRepository_iff]
  constructor
  · rintro ⟨job, hjob, hfound⟩
    cases hsteps : job.steps with
    | nil => simp [hsteps] at hfound
    | cons first rest =>
        by_cases huses : first.usesRepository required = true
        · simp [hsteps, huses] at hfound
        · exact ⟨job, first, rest, hjob, hsteps, huses,
            by simpa [hsteps, huses, eq_comm] using hfound⟩
  · rintro ⟨job, first, rest, hjob, hsteps, huses, rfl⟩
    exact ⟨job, hjob, by simp [hsteps, huses]⟩

/-- Nothing that is reported of declarations has the code of first steps. -/
theorem filter_permissionFindings (rule : Rule) (topLevel jobLevel : Bool) (required : String)
    (d : Definition) :
    (permissionFindings rule topLevel jobLevel (some required) d).filter
        (·.code == "hardening_step_not_first") = hardeningFindings rule required d := by
  have hdeclared : ∀ v ∈ declarationFindings rule topLevel jobLevel d,
      ¬(v.code == "hardening_step_not_first") = true := by
    intro v hv
    have hcodes : v.code = "missing_top_level_permissions" ∨
        v.code = "missing_job_permissions" := by
      unfold declarationFindings at hv
      split at hv
      · cases hv
      · rcases List.mem_append.1 hv with hv | hv
        · obtain ⟨-, hv⟩ := List.mem_ite_nil_right.1 hv
          exact .inl (List.mem_singleton.1 hv ▸ rfl)
        · obtain ⟨job, -, rfl⟩ := List.mem_map.1 hv
          exact .inr rfl
    rcases hcodes with hcode | hcode <;> rw [hcode] <;> decide
  have hsteps : ∀ v ∈ hardeningFindings rule required d,
      (v.code == "hardening_step_not_first") = true := by
    intro v hv
    obtain ⟨i, job, first, rest, -, -, -, rfl⟩ :=
      (listedBy_hardeningFindings rule required d).mem_iff.1 hv
    exact beq_self_eq_true _
  rw [permissionFindings, List.filter_append, List.filter_eq_nil_iff.2 hdeclared,
    List.filter_eq_self.2 hsteps, List.nil_append]

/-! ## Main result -/

section

variable {σ : Type} (verifier : ReferenceVerifier σ) (engine : Pattern.Engine)

/-- Under a valid policy a rule that requires a repository reports of each definition, in
the order of jobs, the first steps that do not use it.  What uses it is decided by the owner
and the repository of the path, up to the case of ASCII letters and whatever stands behind
them.  Some step can use it if and only if both required names are segments, which the
policy is not asked for. -/
theorem first_steps_are_compared_with_required_names {policy : Policy}
    (hvalid : policy.fault? = none) (state : σ) (earlier : List (List Definition))
    (definitions : List Definition) {rule : Rule} (hrule : rule ∈ policy.rules)
    {topLevel jobLevel : Bool} {required : String}
    (hcheck : rule.check = .permissions topLevel jobLevel (some required)) :
    let found :=
      ((Scanner.start engine policy state).scanEach verifier earlier).2.scan verifier definitions
    (found.1.filter fun v => v.ruleId == rule.id && v.code == "hardening_step_not_first") =
        definitions.flatMap (hardeningFindings rule required) ∧
      (∀ d, ListedBy (· < ·) (StartsOtherwise rule required d)
        (hardeningFindings rule required d)) ∧
      ∃ owner repo, TwoNames required owner repo ∧
        (∀ uses, NamesRepository required uses ↔ ∃ owner' repo' further,
          RemoteReference.Splits (RemoteReference.pathPart uses) owner' repo' further ∧
            lowerAscii owner' = lowerAscii owner ∧ lowerAscii repo' = lowerAscii repo) ∧
        ((∃ uses, NamesRepository required uses) ↔
          RemoteReference.IsSegment owner ∧ RemoteReference.IsSegment repo) := by
  intro found
  refine ⟨?_, listedBy_hardeningFindings rule required, ?_⟩
  · have hclean : rule.problems (policy.patternLibrary engine) policy.location = [] :=
      problems_eq_nil (by rw [hcheck]; rfl) (by rw [hcheck]; rfl) _ _
    have hshare :=
      Scanner.scan_filter_rule verifier engine hvalid state earlier definitions hrule hclean
    have hboth : (found.1.filter fun v =>
        v.ruleId == rule.id && v.code == "hardening_step_not_first") =
          (found.1.filter (·.ruleId == rule.id)).filter (·.code == "hardening_step_not_first") := by
      simp only [List.filter_filter, Bool.and_comm]
    rw [hboth, hshare, List.filter_flatMap]
    refine List.flatMap_congr fun d _ => ?_
    rw [findings_of_permissions hcheck, filter_permissionFindings]
  · have hshape : isOwnerRepo required = true := by
      have hfault := fault?_of_ruleFault? hvalid hrule
      rw [hcheck] at hfault
      simpa [Check.fault?] using hfault
    obtain ⟨owner, repo, hnames⟩ := exists_twoNames_of_isOwnerRepo hshape
    exact ⟨owner, repo, hnames, fun uses => hnames.namesRepository_iff,
      hnames.exists_namesRepository_iff⟩

end

/-- A required repository in other letters, used with a subpath by the second of two jobs. -/
theorem first_steps_are_compared_with_required_names_two_jobs :
    let verifier : ReferenceVerifier Nat := fun _ _ asked => (.verified, asked + 1)
    let rule : Rule :=
      { id := "harden", check := .permissions true false (some "acme/Guard.rs") }
    let policy : Policy := { rules := [rule] }
    let workflow : Definition :=
      { path := "ci.yml", kind := .pipeline,
        jobs := [{ id := "build", steps := [{ index := 0, uses := some "acme/guard@v1" }] },
          { id := "test", steps := [{ index := 0, uses := some " ACME/guard.RS/linux @ v1" }] }] }
    let found := (Scanner.start .standard policy 0).scan verifier [workflow]
    policy.fault? = none ∧
      (found.1.filter fun v => v.ruleId == "harden" && v.code == "hardening_step_not_first") =
        [rule.violation "hardening_step_not_first" "first step of job 'build' is not acme/Guard.rs"
          (.atStep "ci.yml" "build" 0)] ∧
      ∃ uses, NamesRepository "acme/Guard.rs" uses := by
  intro verifier rule policy workflow found
  have hvalid : policy.fault? = none := by decide +kernel
  obtain ⟨hfound, -, owner, repo, hnames, -, hexists⟩ :=
    @first_steps_are_compared_with_required_names Nat verifier .standard policy hvalid 0 []
      [workflow] rule List.mem_cons_self true false "acme/Guard.rs" rfl
  have hsplit : "acme".toList = owner ∧ "Guard.rs".toList = repo :=
    append_separator_inj (by decide) hnames.owner_slash hnames.text
  obtain ⟨rfl, rfl⟩ := hsplit
  have hsegments : RemoteReference.IsSegment "acme".toList ∧
      RemoteReference.IsSegment "Guard.rs".toList := by
    constructor <;>
      exact ⟨by decide, by decide, by decide, List.all_eq_true.1 (by decide)⟩
  exact ⟨hvalid, hfound.trans (by decide +kernel), hexists.2 hsegments⟩

/-- A required text with a ref is accepted, and no first step is ever what it asks for. -/
theorem accepted_ref_is_met_by_no_step :
    let required := "step-security/harden-runner@v2"
    let rule : Rule := { id := "harden", check := .permissions false false (some required) }
    let policy : Policy := { rules := [rule] }
    let verifier : ReferenceVerifier Nat := fun _ _ asked => (.verified, asked + 1)
    policy.fault? = none ∧ (∀ uses, ¬NamesRepository required uses) ∧
      ∀ uses,
        let workflow : Definition :=
          { path := "ci.yml", kind := .pipeline,
            jobs := [{ id := "build", steps := [{ index := 0, uses := some uses }] }] }
        ((Scanner.start .standard policy 0).scan verifier [workflow]).1 =
          [rule.violation "hardening_step_not_first"
            s!"first step of job 'build' is not {required}" (.atStep "ci.yml" "build" 0)] := by
  intro required rule policy verifier
  have hnames : TwoNames required "step-security".toList "harden-runner@v2".toList := by
    constructor <;> decide +kernel
  have hnone : ∀ uses, ¬NamesRepository required uses := by
    intro uses huses
    have hchar := (hnames.exists_namesRepository_iff.1 ⟨uses, huses⟩).2.chars '@' (by decide)
    revert hchar
    decide
  refine ⟨by decide +kernel, hnone, ?_⟩
  intro uses workflow
  have hother : Step.usesRepository { index := 0, uses := some uses } required = false := by
    rw [Bool.eq_false_iff, Ne, Step.usesRepository_iff]
    rintro ⟨uses', -, huses'⟩
    exact hnone uses' huses'
  have hshare : ((Scanner.start .standard policy 0).scan verifier [workflow]).1 =
      [] ++ (permissionFindings rule false false (some required) workflow ++ [] ++ []) :=
    Scanner.scan_after_eq_findings verifier .standard policy 0 [] [workflow]
  have hfound : hardeningFindings rule required workflow =
      [rule.violation "hardening_step_not_first"
        s!"first step of job 'build' is not {required}" (.atStep "ci.yml" "build" 0)] := by
    simp only [hardeningFindings, workflow, List.filterMap_cons, List.filterMap_nil, hother,
      Bool.false_eq_true, if_false]
    rfl
  rw [hshare, permissionFindings, hfound]
  rfl

end WorkflowAudit
