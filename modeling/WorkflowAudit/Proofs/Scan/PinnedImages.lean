import WorkflowAudit.Proofs.Reference.Image
import WorkflowAudit.Proofs.Scan.OneRule

/-!
# Pinned images

Images stand in two places.  A step can use one behind its scheme, and a rule on references
judges it there.  A job can run in one or beside one, with or without the scheme, and a rule
on images judges it there.  Both rules report an image unless it is read with a digest that
pins it, but the second lets expressions pass and drops a scheme of its own, so they are
compared on texts that have neither.
-/

namespace WorkflowAudit

open Text

/-! ## Images of a definition -/

/-- The images that the jobs of a definition run in or beside, with locations and roles. -/
def Definition.images (d : Definition) : List (Location × String × String) :=
  d.jobs.flatMap fun job => job.images.map fun (role, image) =>
    (Location.inJob d.path job.id, role, image)

theorem dockerFindings_eq (rule : Rule) (d : Definition) :
    dockerFindings rule d = d.images.filterMap fun (location, role, image) =>
      imageFinding rule location role image := by
  simp only [dockerFindings, Definition.images, List.filterMap_flatMap, List.filterMap_map]
  rfl

theorem findings_of_dockerPinning {answer : String → String → Verdict} {rule : Rule}
    (hcheck : rule.check = .dockerPinning) (prepared : PreparedPolicy) (d : Definition) :
    rule.findings answer prepared d = d.images.filterMap fun (location, role, image) =>
      imageFinding rule location role image := by
  rw [← dockerFindings_eq]
  simp [Rule.findings, staticFindings, hcheck]

theorem findings_of_shaPinning {answer : String → String → Verdict} {rule : Rule} {verify : Bool}
    (hcheck : rule.check = .shaPinning verify) (prepared : PreparedPolicy) (d : Definition) :
    rule.findings answer prepared d = d.references.filterMap fun (location, uses) =>
      answeredFinding answer rule verify location uses := by
  simp [Rule.findings, hcheck, List.filterMap_eq_flatMap_toList]

/-! ## What is reported of one image -/

theorem isPinnedImage_iff {text : String} :
    isPinnedImage text = true ↔ ImageReference.Pins text := by
  unfold isPinnedImage ImageReference.Pins
  cases ImageReference.parse text <;> simp

/-- A step that uses an image is reported unless the image is pinned. -/
theorem isSome_answeredFinding_scheme_append (answer : String → String → Verdict) (rule : Rule)
    (verify : Bool) (location : Location) (text : String) :
    (answeredFinding answer rule verify location ("docker://" ++ text)).isSome = true ↔
      ¬ImageReference.Pins text := by
  unfold answeredFinding pinningStatus ImageReference.Pins
  rw [StepReference.parse_scheme_append]
  cases ImageReference.parse text with
  | error fault => simp [Except.map]
  | ok image => cases hpinned : image.isPinned <;> simp [Except.map, hpinned]

/-- An image without an expression is reported unless what stands behind its scheme is pinned. -/
theorem isSome_imageFinding_iff (rule : Rule) (location : Location) (role : String)
    {image : String} (hexpression : ¬"$\x7b\x7b".toList <:+: image.toList) :
    (imageFinding rule location role image).isSome = true ↔
      ¬ImageReference.Pins (imageText image) := by
  have hresolved : holdsExpression image = false := by
    rw [holdsExpression, Bool.eq_false_iff, Ne, occursIn_iff]
    exact hexpression
  rw [← isPinnedImage_iff, imageFinding, hresolved, Bool.false_or]
  split
  · next hpinned => simp [hpinned]
  · next hpinned => simp [hpinned]

theorem imageText_scheme_append (text : String) : imageText ("docker://" ++ text) = text := by
  rw [imageText, String.toList_append]
  exact (congrArg String.ofList (dropLead_append _ _)).trans String.ofList_toList

theorem imageText_of_not_scheme {text : String} (hscheme : ¬imageScheme <+: trim text.toList) :
    imageText text = text := by
  rw [imageText, dropLead_of_not_prefix (mt imageScheme_prefix_trim hscheme), String.ofList_toList]

/-- The scheme neither holds an expression nor completes one. -/
theorem expression_infix_scheme_append_iff (text : String) :
    "$\x7b\x7b".toList <:+: ("docker://" ++ text).toList ↔ "$\x7b\x7b".toList <:+: text.toList := by
  rw [String.toList_append]
  exact infix_append_iff_of_not_mem (by decide) _

/-! ## Main result -/

/-- A text is read as an image if and only if it leaves something for a name.  An image that
has been read consists of just the parts of its text, and it is pinned if and only if this
text names a digest.  Under a valid policy a rule on references reports its finding on each
reference, and a rule on images its finding on each image.  For a text with neither an
expression nor a scheme there is a finding on the step that uses it behind the scheme, on the
image, and on the image behind the scheme, in each case if and only if the text does not
pin. -/
theorem images_are_judged_alike {σ : Type} (verifier : ReferenceVerifier σ)
    (engine : Pattern.Engine) {policy : Policy} (hvalid : policy.fault? = none) (state : σ)
    (earlier : List (List Definition)) (definitions : List Definition) :
    let found :=
      ((Scanner.start engine policy state).scanEach verifier earlier).2.scan verifier definitions
    (∀ text, (∃ image, ImageReference.parse text = .ok image) ↔
      ImageReference.NamesImage (ImageReference.bareText text)) ∧
    (∀ text image, ImageReference.parse text = .ok image →
      image.PartsOf (ImageReference.bareText text) ∧
      (image.isPinned = true ↔ ImageReference.NamesDigest (ImageReference.bareText text))) ∧
    (∀ rule ∈ policy.rules, ∀ verify, rule.check = .shaPinning verify →
      found.1.filter (·.ruleId == rule.id) = definitions.flatMap fun d =>
        d.references.filterMap fun (location, uses) =>
          answeredFinding found.2.inquiry.answer rule verify location uses) ∧
    (∀ rule ∈ policy.rules, rule.check = .dockerPinning →
      found.1.filter (·.ruleId == rule.id) = definitions.flatMap fun d =>
        d.images.filterMap fun (location, role, image) =>
          imageFinding rule location role image) ∧
    ∀ text : String, ¬"$\x7b\x7b".toList <:+: text.toList → ¬imageScheme <+: trim text.toList →
      (∀ answer rule verify location,
        (answeredFinding answer rule verify location ("docker://" ++ text)).isSome = true ↔
          ¬ImageReference.Pins text) ∧
      ∀ rule location role,
        ((imageFinding rule location role text).isSome = true ↔ ¬ImageReference.Pins text) ∧
        ((imageFinding rule location role ("docker://" ++ text)).isSome = true ↔
          ¬ImageReference.Pins text) := by
  intro found
  have hshare : ∀ rule ∈ policy.rules, rule.check.patternSpecs = [] → rule.check.globs? = none →
      found.1.filter (·.ruleId == rule.id) = definitions.flatMap fun d =>
        rule.findings found.2.inquiry.answer (policy.prepare engine) d :=
    fun rule hrule hpatterns hglobs => Scanner.scan_filter_rule verifier engine hvalid state earlier
      definitions hrule (problems_eq_nil hpatterns hglobs _ _)
  refine ⟨fun _ => ImageReference.exists_parse_iff, fun text image hread => ?_,
    fun rule hrule verify hcheck => ?_, fun rule hrule hcheck => ?_,
    fun text hexpression hscheme => ⟨?_, fun rule location role => ?_⟩⟩
  · have hparts := ImageReference.partsOf_of_parse hread
    exact ⟨hparts, hparts.isPinned_iff⟩
  · rw [hshare rule hrule (by rw [hcheck]; rfl) (by rw [hcheck]; rfl)]
    exact List.flatMap_congr fun d _ => findings_of_shaPinning hcheck _ d
  · rw [hshare rule hrule (by rw [hcheck]; rfl) (by rw [hcheck]; rfl)]
    exact List.flatMap_congr fun d _ => findings_of_dockerPinning hcheck _ d
  · intro answer rule verify location
    exact isSome_answeredFinding_scheme_append answer rule verify location text
  · have hplain := isSome_imageFinding_iff rule location role hexpression
    have hbehind := isSome_imageFinding_iff rule location role
      (mt (expression_infix_scheme_append_iff text).1 hexpression)
    rw [imageText_of_not_scheme hscheme] at hplain
    rw [imageText_scheme_append] at hbehind
    exact ⟨hplain, hbehind⟩

/-- An image of a registry with a port, in all three places of a job. -/
theorem images_are_judged_alike_registry_port :
    let verifier : ReferenceVerifier Nat := fun _ _ asked => (.verified, asked + 1)
    let byReference : Rule := { id := "references", check := .shaPinning true }
    let byImage : Rule := { id := "images", check := .dockerPinning }
    let policy : Policy := { rules := [byReference, byImage] }
    let text := "registry:5000/tool:1.2"
    let d : Definition :=
      { path := "ci.yml", kind := .pipeline
        jobs := [{ id := "build", containerImage := some text
                   serviceImages := [("tool", "docker://" ++ text)]
                   steps := [{ index := 0, uses := some ("docker://" ++ text) }] }] }
    let found := (Scanner.start .standard policy 0).scan verifier [d]
    policy.fault? = none ∧ ¬ImageReference.Pins text ∧
      (∃ image : ImageReference, ImageReference.parse text = .ok image ∧
        image.display.toList = text.toList ∧ image.tag = some "1.2") ∧
      (found.1.filter (·.ruleId == "references")).length = 1 ∧
      (found.1.filter (·.ruleId == "images")).length = 2 := by
  intro verifier byReference byImage policy text d found
  have hvalid : policy.fault? = none := by decide +kernel
  obtain ⟨-, hparts, hreferences, himages, hagree⟩ :=
    @images_are_judged_alike Nat verifier .standard policy hvalid 0 [] [d]
  let image : ImageReference := ⟨"registry:5000/tool", some "1.2", none⟩
  have hread : ImageReference.parse text = .ok image := by decide +kernel
  have hbare : ImageReference.bareText text = text.toList := by decide +kernel
  have hexpression : ¬"$\x7b\x7b".toList <:+: text.toList := by
    rw [← occursIn_iff]
    decide +kernel
  have hloose : ¬ImageReference.Pins text := by
    rw [← isPinnedImage_iff]
    decide +kernel
  obtain ⟨hstep, himage⟩ := hagree text hexpression (by decide +kernel)
  let step := Location.atStep "ci.yml" "build" 0
  let job := Location.inJob "ci.yml" "build"
  let service := "service 'tool'"
  obtain ⟨v, hv⟩ := Option.isSome_iff_exists.1
    ((hstep found.2.inquiry.answer byReference true step).2 hloose)
  obtain ⟨v', hv'⟩ := Option.isSome_iff_exists.1 ((himage byImage job "container").1.2 hloose)
  obtain ⟨v'', hv''⟩ := Option.isSome_iff_exists.1 ((himage byImage job service).2.2 hloose)
  have hused : found.1.filter (·.ruleId == "references") = [v] := by
    refine (hreferences byReference List.mem_cons_self true rfl).trans ?_
    have huses : d.references = [(step, "docker://" ++ text)] := rfl
    rw [List.flatMap_singleton, huses]
    exact List.filterMap_cons_some hv
  have hrun : found.1.filter (·.ruleId == "images") = [v', v''] := by
    refine (himages byImage (List.mem_cons_of_mem _ List.mem_cons_self) rfl).trans ?_
    have hall : d.images = [(job, "container", text), (job, service, "docker://" ++ text)] := rfl
    rw [List.flatMap_singleton, hall]
    simp only [List.filterMap_cons, hv', hv'', List.filterMap_nil]
  obtain ⟨hwhole, -⟩ := hparts text image hread
  refine ⟨hvalid, hloose, ⟨image, hread, ?_, rfl⟩, by rw [hused]; rfl, by rw [hrun]; rfl⟩
  rw [hwhole.display, hbare]

end WorkflowAudit
