import WorkflowAudit.Policy.Validation
import WorkflowAudit.Proofs.Reference.Grammar
import WorkflowAudit.Scan.Scanner

/-!
# Paths that are uploaded as they are required

A rule on artifacts compares its required paths with the lines of what the artifact steps
upload.  Both sides lose the blanks around them, one `./` in front and the slashes at the
end.  Only on the side of the steps are paths dropped of which nothing is left.  So a
required path that a step uploads as it is written is never missed, unless it names the
root: then it is always missed.
-/

namespace WorkflowAudit

open Text

/-! ## Steps that use an action -/

/-- The value of `uses` is a remote reference, and what stands in front of its `@` is the
action, up to blanks around the value and the case of ASCII letters. -/
def Step.Uses (step : Step) (action : String) : Prop :=
  ∃ value remote, step.uses = some value ∧ StepReference.parse value = .ok (.remote remote) ∧
    equalIgnoringCase action (String.ofList ((trim value.toList).takeWhile (· ≠ '@'))) = true

theorem RemoteReference.path_of_step {text : String} {r : RemoteReference}
    (hread : StepReference.parse text = .ok (.remote r)) :
    r.path.toList = (trim text.toList).takeWhile (· ≠ '@') :=
  path_of_parse (parse_of_step hread)

theorem Step.usesAction_iff {step : Step} {actions : List String} :
    step.usesAction actions = true ↔ ∃ action ∈ actions, step.Uses action := by
  unfold usesAction Uses
  cases huses : step.uses with
  | none => simp
  | some value =>
      cases hread : StepReference.parse value with
      | error fault => simp [hread]
      | ok reference =>
          cases reference with
          | inside path => simp [hread]
          | image image => simp [hread]
          | remote remote =>
              rw [Option.map_some, hread]
              simp only [Option.some.injEq, exists_and_left, exists_eq_left', hread,
                Except.ok.injEq, StepReference.remote.injEq, List.any_eq_true,
                ← RemoteReference.path_of_step hread, String.ofList_toList]

/-! ## Paths of which nothing is left -/

/-- Slashes alone, or `./` with further slashes behind it, up to blanks around them. -/
def NamesRoot (path : List Char) : Prop :=
  ∃ slashes, trim path = List.replicate slashes '/' ∨
    trim path = ['.', '/'] ++ List.replicate slashes '/'

theorem trimEndWith_slash_eq_nil_iff {path : List Char} :
    trimEndWith (· == '/') path = [] ↔ ∃ slashes, path = List.replicate slashes '/' := by
  rw [trimEndWith_eq_nil_iff, List.all_eq_true]
  constructor
  · intro hall
    exact ⟨path.length, List.eq_replicate_iff.2 ⟨rfl, fun c hc => beq_iff_eq.1 (hall c hc)⟩⟩
  · rintro ⟨slashes, rfl⟩ c hc
    exact beq_iff_eq.2 (List.eq_of_mem_replicate hc)

theorem normalArtifactPath_eq_nil_iff {path : List Char} :
    normalArtifactPath path = [] ↔ NamesRoot path := by
  unfold normalArtifactPath NamesRoot
  rw [trimEndWith_slash_eq_nil_iff, dropLead]
  refine exists_congr fun slashes => ?_
  cases hlead : dropLead? ['.', '/'] (trim path) with
  | some rest =>
      rw [dropLead?_eq_some_iff.1 hlead, Option.getD_some]
      constructor
      · rintro rfl
        exact .inr rfl
      · rintro (hslashes | hboth)
        · cases slashes <;> cases hslashes
        · exact List.append_cancel_left hboth
  | none =>
      rw [Option.getD_none, or_iff_left fun hboth => ?_]
      rw [dropLead?_eq_some_iff.2 hboth] at hlead
      cases hlead

/-! ## What is reported as missing -/

def missingMessage (path : String) : String :=
  "required artifact path '" ++ path ++ "' is never uploaded"

theorem missingMessage_injective : Function.Injective missingMessage := by
  intro left right heq
  have hchars := congrArg String.toList heq
  unfold missingMessage at hchars
  rw [String.toList_append, String.toList_append, String.toList_append, String.toList_append]
    at hchars
  exact String.toList_inj.1 (List.append_cancel_left (List.append_cancel_right hchars))

/-- What a rule on artifacts applies to: the definitions that its globs name, or without
globs those with an artifact step. -/
def RequiresArtifacts (globs : Option GlobSet) (actions : List String) (d : Definition) : Prop :=
  match globs with
  | some set => set.isMatch d.path = true
  | none => ∃ entry ∈ d.steps, entry.2.usesAction actions = true

/-- Some artifact step of a definition uploads a path. -/
def Uploads (actions : List String) (d : Definition) (path : List Char) : Prop :=
  ∃ entry ∈ d.steps, entry.2.usesAction actions = true ∧ path ∈ entry.2.uploadedPaths

theorem contains_uploadedPaths_iff {actions : List String} {d : Definition} {path : List Char} :
    (((d.steps.map Prod.snd).filter fun step => step.usesAction actions).flatMap
      Step.uploadedPaths).contains path = true ↔ Uploads actions d path := by
  simp only [List.contains_iff_mem, List.mem_flatMap, List.mem_filter, List.mem_map,
    and_assoc, exists_exists_and_eq_and, Uploads]

theorem mem_artifactFindings_iff {rule : Rule} {required actions : List String}
    {globs : Option GlobSet} {d : Definition} {v : Violation} :
    v ∈ artifactFindings rule required actions globs d ↔
      RequiresArtifacts globs actions d ∧ ∃ path ∈ required,
        ¬Uploads actions d (normalArtifactPath path.toList) ∧
          v = rule.violation "artifact_path_missing" (missingMessage path) (.file d.path) := by
  unfold artifactFindings
  dsimp only
  rw [List.mem_ite_nil_left]
  refine and_congr ?_ ?_
  · rw [Bool.not_eq_true', Bool.not_eq_false]
    cases globs with
    | some set => exact Iff.rfl
    | none => simp [RequiresArtifacts, List.filter_eq_nil_iff, @exists_comm Job]
  · simp only [List.mem_map, List.mem_filter, Bool.not_eq_true', ← Bool.not_eq_true,
      contains_uploadedPaths_iff, and_assoc]
    refine exists_congr fun path => and_congr_right fun _ => and_congr_right fun _ => ?_
    exact eq_comm

/-- A path that is uploaded as it is written stands among the uploaded ones, once it has been
brought into the same form, unless nothing is left of it. -/
theorem uploads_of_mem_lines {actions : List String} {d : Definition} {job : Job} {step : Step}
    {action text : String} {path : List Char} (hstep : (job, step) ∈ d.steps)
    (haction : action ∈ actions) (huses : step.Uses action)
    (htext : step.field? "with.path" = some text) (hline : path ∈ lines text.toList)
    (hroot : ¬NamesRoot path) : Uploads actions d (normalArtifactPath path) := by
  refine ⟨(job, step), hstep, Step.usesAction_iff.2 ⟨action, haction, huses⟩, ?_⟩
  rw [Step.uploadedPaths, htext]
  refine List.mem_filter.2 ⟨List.mem_map_of_mem hline, ?_⟩
  rwa [← normalArtifactPath_eq_nil_iff, ← List.isEmpty_iff, Bool.not_eq_true,
    ← Bool.not_eq_true'] at hroot

/-- No uploaded path is empty. -/
theorem not_uploads_nil {actions : List String} {d : Definition} : ¬Uploads actions d [] := by
  rintro ⟨⟨job, step⟩, -, -, hmem⟩
  unfold Step.uploadedPaths at hmem
  dsimp only at hmem
  split at hmem
  · cases hmem
  · exact absurd (List.mem_filter.1 hmem).2 (by decide)

/-- A rule on artifacts, applied to a definition with an artifact step that uploads a required
path just as the rule spells it, reports this path as missing if and only if the rule applies
to the definition and the path names the root. -/
theorem verbatim_upload_is_missed_iff {σ : Type} (verifier : ReferenceVerifier σ)
    (prepared : PreparedPolicy) {rule : Rule} {required actions appliesTo : List String}
    (hcheck : rule.check = .artifactPolicy required actions appliesTo) {d : Definition}
    {job : Job} {step : Step} (hstep : (job, step) ∈ d.steps) {action : String}
    (haction : action ∈ actions) (huses : step.Uses action) {text path : String}
    (hpath : path ∈ required) (htext : step.field? "with.path" = some text)
    (hline : path.toList ∈ lines text.toList) (inquiry : Inquiry σ) :
    (∃ v ∈ (applyRule verifier prepared rule d inquiry).1,
        v.code = "artifact_path_missing" ∧ v.message = missingMessage path) ↔
      RequiresArtifacts (prepared.globs.ofRule? rule) actions d ∧ NamesRoot path.toList := by
  have hfound : (applyRule verifier prepared rule d inquiry).1 =
      artifactFindings rule required actions (prepared.globs.ofRule? rule) d := by
    obtain ⟨id, mode, description, check⟩ := rule
    cases hcheck
    rfl
  rw [hfound]
  constructor
  · rintro ⟨v, hv, -, hmessage⟩
    obtain ⟨happlies, other, -, hmissing, rfl⟩ := mem_artifactFindings_iff.1 hv
    obtain rfl := missingMessage_injective hmessage
    refine ⟨happlies, ?_⟩
    by_contra hroot
    exact hmissing (uploads_of_mem_lines hstep haction huses htext hline hroot)
  · rintro ⟨happlies, hroot⟩
    refine ⟨_, mem_artifactFindings_iff.2 ⟨happlies, path, hpath, ?_, rfl⟩, rfl, rfl⟩
    rw [normalArtifactPath_eq_nil_iff.2 hroot]
    exact not_uploads_nil

/-- A path behind a blank, on the second of two lines, and an action in other letters. -/
theorem verbatim_upload_is_missed_iff_second_line :
    let rule : Rule :=
      { id := "artifacts", check := .artifactPolicy [" ./dist/"] ["Acme/Upload"] [] }
    let prepared := Policy.prepare .standard { rules := [rule] }
    let text := "coverage\r\n ./dist/\r\n"
    let step : Step :=
      { index := 0, uses := some " acme/upload@v4", fields := [("with.path", text)] }
    let job : Job := { id := "build", steps := [step] }
    let workflow : Definition := { path := "ci.yml", kind := .pipeline, jobs := [job] }
    let verifier : ReferenceVerifier Nat := fun _ _ asked => (.verified, asked + 1)
    rule.check.fault? = none ∧ step.Uses "Acme/Upload" ∧ step.field? "with.path" = some text ∧
      " ./dist/".toList ∈ lines text.toList ∧
      ¬∃ v ∈ (applyRule verifier prepared rule workflow { state := 0 }).1,
        v.code = "artifact_path_missing" ∧ v.message = missingMessage " ./dist/" := by
  intro rule prepared text step job workflow verifier
  have hread : StepReference.parse " acme/upload@v4" =
      .ok (.remote { owner := "acme", repo := "upload", subpath := none, gitRef := "v4" }) := by
    decide +kernel
  have huses : step.Uses "Acme/Upload" := ⟨_, _, rfl, hread, by decide +kernel⟩
  have hline : " ./dist/".toList ∈ lines text.toList := by decide +kernel
  have hroot : ¬NamesRoot " ./dist/".toList := by
    rw [← normalArtifactPath_eq_nil_iff]
    decide +kernel
  have hmissed := @verbatim_upload_is_missed_iff Nat verifier prepared rule _ _ _ rfl workflow job
    step (by decide +kernel) _ List.mem_cons_self huses text _ List.mem_cons_self rfl hline
    { state := 0 }
  exact ⟨rfl, huses, rfl, hline, fun hfound => hroot (hmissed.1 hfound).2⟩

/-- The whole working directory is required and uploaded, and a scan reports it as missing. -/
theorem root_upload_is_missed :
    let rule : Rule :=
      { id := "artifacts", check := .artifactPolicy ["./"] ["actions/upload-artifact"] [] }
    let step : Step :=
      { index := 0, uses := some "actions/upload-artifact@v4", fields := [("with.path", "./")] }
    let workflow : Definition :=
      { path := "ci.yml", kind := .pipeline, jobs := [{ id := "build", steps := [step] }] }
    let verifier : ReferenceVerifier Nat := fun _ _ asked => (.verified, asked + 1)
    rule.check.fault? = none ∧ isBlankString "./" = false ∧ step.Uses "actions/upload-artifact" ∧
      step.field? "with.path" = some "./" ∧ "./".toList ∈ lines "./".toList ∧
      (((Scanner.start .standard { rules := [rule] } 0).scan verifier [workflow]).1.map
        fun v => (v.code, v.message)) = [("artifact_path_missing", missingMessage "./")] := by
  intro rule step workflow verifier
  have hread : StepReference.parse "actions/upload-artifact@v4" = .ok (.remote
      { owner := "actions", repo := "upload-artifact", subpath := none, gitRef := "v4" }) := by
    decide +kernel
  exact ⟨rfl, rfl, ⟨_, _, rfl, hread, by decide +kernel⟩, rfl, by decide +kernel, by decide +kernel⟩

end WorkflowAudit
