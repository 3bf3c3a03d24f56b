import Mathlib.Data.List.Flatten
import WorkflowAudit.Proofs.Definition.Places
import WorkflowAudit.Proofs.Definition.References
import WorkflowAudit.Proofs.Scan.FailedAnswers

/-!
# Findings in document order

A scan reports definition by definition, and for each of them rule by rule.  What one
rule reports of one definition follows the document: first what concerns the file, then
job after job what concerns the job, and after that its steps.  One check looks at the
jobs twice, first for their declarations and then for their first steps.  Its findings
follow the document in each round, and altogether only where no job without a
declaration stands behind one whose first step is at fault.
-/

namespace WorkflowAudit

/-- The place of a location in a definition: none for the file, the position of a job, and
behind it the position of a step of that job. -/
inductive Definition.At (d : Definition) : List Nat → Location → Prop
  | file : At d [] (.file d.path)
  | job {i : Nat} {job : Job} (hjob : d.jobs[i]? = some job) : At d [i] (.inJob d.path job.id)
  | step {i j : Nat} {job : Job} {step : Step} (hjob : d.jobs[i]? = some job)
      (hstep : job.steps[j]? = some step) : At d [i, j] (.atStep d.path job.id step.index)

/-- Findings with places that never descend.  A place comes before those that it holds. -/
def Definition.ListsInOrder (d : Definition) (found : List Violation) : Prop :=
  ∃ placed : List (List Nat × Violation), placed.map Prod.snd = found ∧
    placed.Pairwise (fun entry later => NotBehind entry.1 later.1) ∧
    ∀ place v, (place, v) ∈ placed → d.At place v.location

variable {d : Definition} {rule : Rule} {library : PatternLibrary} {prepared : PreparedPolicy}

/-! ## Shares -/

theorem Definition.listsInOrder_of_listedBy {stands : List Nat → Violation → Prop}
    {found : List Violation} (hlisted : ListedBy NotBehind stands found)
    (hat : ∀ place v, stands place v → d.At place v.location) : d.ListsInOrder found := by
  obtain ⟨placed, hfound, hascend, hstands⟩ := hlisted
  exact ⟨placed, hfound, hascend, fun place v hmem => hat place v ((hstands place v).1 hmem)⟩

/-- Findings that are put together from shares of the file, of each job and of each step. -/
theorem listsInOrder_of_shares {ofFile : List Violation} {ofJob : Job → List Violation}
    {ofStep : Job → Step → List Violation}
    (hfile : ∀ v ∈ ofFile, v.location = .file d.path)
    (hjob : ∀ job, ∀ v ∈ ofJob job, v.location = .inJob d.path job.id)
    (hstep : ∀ job step, ∀ v ∈ ofStep job step,
      v.location = .atStep d.path job.id step.index) :
    d.ListsInOrder
      (ofFile ++ d.jobs.flatMap fun job => ofJob job ++ job.steps.flatMap (ofStep job)) := by
  have hlater : ∀ (i k : Nat) (place later : List Nat), i < k →
      NotBehind (i :: place) (k :: later) := fun i k place later hlt => .of_lt hlt place later
  have hwithin : ∀ (i : Nat) (place later : List Nat), NotBehind place later →
      NotBehind (i :: place) (i :: later) := fun i place later hplace => hplace.cons i
  have hself := NotBehind.refl []
  have hsteps := fun job : Job => (listedBy_getElem? job.steps).flatMap List.cons
    (fun step => listedBy_at [] (ofStep job step) hself) (fun i k _ _ => hlater i k _ _) hwithin
  have hjobs := fun job : Job => (listedBy_at [] (ofJob job) hself).append (hsteps job) <| by
    rintro place v later w ⟨rfl, -⟩ -
    exact .nil later
  have hall := (listedBy_at [] ofFile hself).append
    ((listedBy_getElem? d.jobs).flatMap List.cons hjobs (fun i k _ _ => hlater i k _ _)
      hwithin) <| by
    rintro place v later w ⟨rfl, -⟩ -
    exact .nil later
  refine Definition.listsInOrder_of_listedBy hall fun place v hstands => ?_
  rcases hstands with ⟨rfl, hv⟩ | ⟨i, rest, job, rfl, hget, hrest⟩
  · rw [hfile v hv]
    exact .file
  · rcases hrest with ⟨rfl, hv⟩ | ⟨j, rest, step, rfl, hget', rfl, hv⟩
    · rw [hjob job v hv]
      exact .job hget
    · rw [hstep job step v hv]
      exact .step hget hget'

theorem listsInOrder_of_file {found : List Violation}
    (hfile : ∀ v ∈ found, v.location = .file d.path) : d.ListsInOrder found := by
  refine Definition.listsInOrder_of_listedBy (listedBy_at [] found (.refl [])) ?_
  rintro place v ⟨rfl, hv⟩
  rw [hfile v hv]
  exact .file

theorem listsInOrder_of_jobs {found : Job → List Violation}
    (hjob : ∀ job, ∀ v ∈ found job, v.location = .inJob d.path job.id) :
    d.ListsInOrder (d.jobs.flatMap found) := by
  have hshares := @listsInOrder_of_shares d [] found (fun _ _ => []) (by simp) hjob (by simp)
  have hnone : ∀ job : Job, job.steps.flatMap (fun _ => ([] : List Violation)) = [] :=
    fun job => List.flatMap_eq_nil_iff.2 fun _ _ => rfl
  simpa only [hnone, List.nil_append, List.append_nil] using hshares

theorem listsInOrder_of_steps {found : Job × Step → List Violation}
    (hstep : ∀ job step, ∀ v ∈ found (job, step),
      v.location = .atStep d.path job.id step.index) :
    d.ListsInOrder (d.steps.flatMap found) := by
  have hshares := @listsInOrder_of_shares d [] (fun _ => []) (fun job step => found (job, step))
    (by simp) (by simp) hstep
  simpa [Definition.steps, List.flatMap_assoc, List.flatMap_map] using hshares

theorem listsInOrder_of_references {found : Location × String → List Violation}
    (hfound : ∀ location uses, ∀ v ∈ found (location, uses), v.location = location) :
    d.ListsInOrder (d.references.flatMap found) := by
  have hshares := @listsInOrder_of_shares d []
    (fun job => job.uses.toList.flatMap fun uses => found (.inJob d.path job.id, uses))
    (fun job step => step.uses.toList.flatMap fun uses =>
      found (.atStep d.path job.id step.index, uses))
    (by simp) (fun job v hv => ?_) (fun job step v hv => ?_)
  · simpa [Definition.references, Job.references_eq, Step.references, List.flatMap_assoc,
      List.flatMap_map] using hshares
  · obtain ⟨uses, -, hv⟩ := List.mem_flatMap.1 hv
    exact hfound _ _ v hv
  · obtain ⟨uses, -, hv⟩ := List.mem_flatMap.1 hv
    exact hfound _ _ v hv

/-- Leaving findings out keeps the order. -/
theorem Definition.ListsInOrder.sublist {found fewer : List Violation}
    (hfound : d.ListsInOrder found) (hfewer : fewer.Sublist found) : d.ListsInOrder fewer := by
  obtain ⟨placed, rfl, hascend, hat⟩ := hfound
  obtain ⟨kept, hkept, rfl⟩ := List.sublist_map_iff.1 hfewer
  exact ⟨kept, rfl, hascend.sublist hkept, fun place v hmem => hat place v (hkept.subset hmem)⟩

/-- A finding that stands behind another one has a place that does not come before. -/
theorem Definition.ListsInOrder.exists_places {found others : List Violation}
    (hfound : d.ListsInOrder (found ++ others)) {v w : Violation} (hv : v ∈ found)
    (hw : w ∈ others) :
    ∃ place place', d.At place v.location ∧ d.At place' w.location ∧ NotBehind place place' := by
  obtain ⟨placed, hplaced, hascend, hat⟩ := hfound
  obtain ⟨first, second, rfl, rfl, rfl⟩ := List.map_eq_append_iff.1 hplaced
  obtain ⟨⟨place, v⟩, hmem, rfl⟩ := List.mem_map.1 hv
  obtain ⟨⟨place', w⟩, hmem', rfl⟩ := List.mem_map.1 hw
  exact ⟨place, place', hat place v (List.mem_append_left _ hmem),
    hat place' w (List.mem_append_right _ hmem'),
    (List.pairwise_append.1 hascend).2.2 _ hmem _ hmem'⟩

/-! ## The checks, one by one -/

theorem location_of_pinningStatus {location : Location} {uses : String} {v : Violation}
    (hstatus : pinningStatus rule location uses = .settled (some v)) : v.location = location := by
  unfold pinningStatus at hstatus
  split at hstatus
  · cases hstatus
    rfl
  · cases hstatus
  · split at hstatus <;> cases hstatus
    rfl
  · split at hstatus <;> cases hstatus
    rfl

theorem location_of_answeredFinding {answer : String → String → Verdict} {verify : Bool}
    {location : Location} {uses : String} {v : Violation}
    (hfound : answeredFinding answer rule verify location uses = some v) :
    v.location = location := by
  unfold answeredFinding at hfound
  split at hfound
  · next hstatus =>
      subst hfound
      exact location_of_pinningStatus hstatus
  · split at hfound
    · unfold verdictFinding at hfound
      split at hfound <;> cases hfound
      rfl
    · cases hfound

theorem location_of_mem_fieldFindings {code : String} {patterns : List PatternSpec}
    {location : Location} {field value : String} {v : Violation}
    (hv : v ∈ fieldFindings rule library code patterns location field value) :
    v.location = location := by
  obtain ⟨spec, -, hfound⟩ := List.mem_filterMap.1 hv
  obtain ⟨hit, -, rfl⟩ := Option.map_eq_some_iff.1 hfound
  rfl

theorem listsInOrder_allowlistFindings (globs : Option GlobSet) :
    d.ListsInOrder (allowlistFindings rule globs d) := by
  rw [allowlistFindings, List.filterMap_eq_flatMap_toList]
  refine listsInOrder_of_references fun location uses v hv => ?_
  have hfound := Option.mem_toList.1 hv
  dsimp only [allowlistFinding] at hfound
  split at hfound
  · split at hfound <;> cases hfound
    rfl
  · cases hfound

theorem listsInOrder_patternFindings (patterns : List PatternSpec) :
    d.ListsInOrder (patternFindings rule library patterns d) := by
  refine listsInOrder_of_steps fun job step v hv => ?_
  obtain ⟨⟨field, value⟩, -, hfield⟩ := List.mem_flatMap.1 hv
  exact location_of_mem_fieldFindings hfield

theorem listsInOrder_scriptFindings (maxLines : Option Nat) (patterns : List PatternSpec) :
    d.ListsInOrder (scriptFindings rule library maxLines patterns d) := by
  refine listsInOrder_of_steps fun job step v hv => ?_
  dsimp only at hv
  split at hv
  · cases hv
  · rcases List.mem_append.1 hv with hlength | hfield
    · have hfound := Option.mem_toList.1 hlength
      unfold lengthFinding at hfound
      split at hfound
      · cases hfound
      · split at hfound <;> cases hfound
        rfl
    · exact location_of_mem_fieldFindings hfield

theorem listsInOrder_triggerFindings (triggers safeguards : List String)
    (globs : Option GlobSet) :
    d.ListsInOrder (triggerFindings rule triggers safeguards globs d) := by
  unfold triggerFindings
  dsimp only
  split
  · exact listsInOrder_of_file (by simp)
  · refine Definition.ListsInOrder.sublist ?_ (List.filter_sublist.map _)
    rw [List.map_eq_flatMap]
    exact listsInOrder_of_jobs (by simp [Rule.violation, Violation.make])

theorem listsInOrder_artifactFindings (requiredPaths artifactActions : List String)
    (globs : Option GlobSet) :
    d.ListsInOrder (artifactFindings rule requiredPaths artifactActions globs d) := by
  refine listsInOrder_of_file fun v hv => ?_
  unfold artifactFindings at hv
  obtain ⟨-, hv⟩ := List.mem_ite_nil_left.1 hv
  obtain ⟨path, -, rfl⟩ := List.mem_map.1 hv
  rfl

theorem listsInOrder_dockerFindings : d.ListsInOrder (dockerFindings rule d) := by
  refine listsInOrder_of_jobs fun job v hv => ?_
  obtain ⟨⟨role, image⟩, -, hfound⟩ := List.mem_filterMap.1 hv
  dsimp only [imageFinding] at hfound
  split at hfound <;> cases hfound
  rfl

/-! ## The check that looks twice -/

/-- The definition with one of its jobs. -/
def Definition.only (d : Definition) (job : Job) : Definition := { d with jobs := [job] }

@[simp]
theorem Definition.path_only (d : Definition) (job : Job) : (d.only job).path = d.path := rfl

@[simp]
theorem Definition.jobs_only (d : Definition) (job : Job) : (d.only job).jobs = [job] := rfl

@[simp]
theorem Definition.isBundle_only (d : Definition) (job : Job) :
    (d.only job).isBundle = d.isBundle := rfl

/-- Whether the first step of a job, if it has any, uses the required repository. -/
def Job.startsWith (required : String) (job : Job) : Bool :=
  job.steps.head?.all (·.usesRepository required)

theorem declarationFindings_eq (rule : Rule) (topLevel jobLevel : Bool) (d : Definition) :
    declarationFindings rule topLevel jobLevel d = declarationFindings rule topLevel false d ++
      d.jobs.flatMap fun job => declarationFindings rule false jobLevel (d.only job) := by
  unfold declarationFindings
  cases hbundle : d.isBundle with
  | true => simp [hbundle, List.flatMap_eq_nil_iff]
  | false =>
      cases jobLevel with
      | false => simp [hbundle, List.flatMap_eq_nil_iff]
      | true =>
          simp only [Definition.isBundle_only, hbundle, Bool.false_eq_true, if_false,
            Bool.false_and, if_true, List.map_nil, List.append_nil, List.nil_append,
            Definition.jobs_only, Definition.path_only]
          congr 1
          induction d.jobs with
          | nil => rfl
          | cons job jobs ih =>
              rw [List.flatMap_cons, ← ih]
              cases hpermissions : job.permissions <;> simp [hpermissions]

theorem hardeningFindings_eq (rule : Rule) (required : String) (d : Definition) :
    hardeningFindings rule required d =
      d.jobs.flatMap fun job => hardeningFindings rule required (d.only job) := by
  rw [hardeningFindings, List.filterMap_eq_flatMap_toList]
  refine List.flatMap_congr fun job _ => ?_
  simp [hardeningFindings, List.filterMap_eq_flatMap_toList]

theorem declarationFindings_only_eq_nil_iff {jobLevel : Bool} {job : Job} :
    declarationFindings rule false jobLevel (d.only job) = [] ↔
      d.isBundle = true ∨ jobLevel = false ∨ job.permissions.isSome = true := by
  unfold declarationFindings
  cases hbundle : d.isBundle <;> cases jobLevel <;> cases hpermissions : job.permissions <;>
    simp [hbundle, hpermissions]

theorem hardeningFindings_only_eq_nil_iff {required : String} {job : Job} :
    hardeningFindings rule required (d.only job) = [] ↔ job.startsWith required = true := by
  unfold hardeningFindings Job.startsWith
  cases hsteps : job.steps with
  | nil => simp [hsteps]
  | cons first rest => simp [hsteps]

theorem location_of_mem_declarationFindings {topLevel : Bool} {v : Violation}
    (hv : v ∈ declarationFindings rule topLevel false d) : v.location = .file d.path := by
  unfold declarationFindings at hv
  split at hv
  · cases hv
  · simp only [Bool.false_eq_true, if_false, List.map_nil, List.append_nil] at hv
    obtain ⟨-, hv⟩ := List.mem_ite_nil_right.1 hv
    rw [List.mem_singleton.1 hv]
    rfl

theorem location_of_mem_declarationFindings_only {jobLevel : Bool} {job : Job} {v : Violation}
    (hv : v ∈ declarationFindings rule false jobLevel (d.only job)) :
    v.location = .inJob d.path job.id := by
  unfold declarationFindings at hv
  split at hv
  · cases hv
  · simp only [Bool.false_and, Bool.false_eq_true, if_false, List.nil_append] at hv
    obtain ⟨other, hother, rfl⟩ := List.mem_map.1 hv
    split at hother
    · have hmem := List.mem_of_mem_filter hother
      rw [List.mem_singleton.1 hmem]
      rfl
    · cases hother

/-- What a job says about its first step is among what could be said about all its steps. -/
theorem hardeningFindings_only_sublist (rule : Rule) (required : String) (d : Definition)
    (job : Job) :
    (hardeningFindings rule required (d.only job)).Sublist
      (job.steps.flatMap fun step => [rule.violation "hardening_step_not_first"
        s!"first step of job '{job.id}' is not {required}"
        (.atStep d.path job.id step.index)]) := by
  unfold hardeningFindings
  cases hsteps : job.steps with
  | nil => simp [hsteps]
  | cons first rest =>
      by_cases huses : first.usesRepository required = true <;> simp [hsteps, huses]

theorem flatMap_append_flatMap {α β : Type} {items : List α} {f g : α → List β}
    (hitems : items.Pairwise fun earlier later => g earlier = [] ∨ f later = []) :
    items.flatMap f ++ items.flatMap g = items.flatMap fun item => f item ++ g item := by
  induction items with
  | nil => rfl
  | cons item items ih =>
      obtain ⟨hitem, hitems⟩ := List.pairwise_cons.1 hitems
      rw [List.flatMap_cons, List.flatMap_cons, List.flatMap_cons, ← ih hitems]
      by_cases hg : g item = []
      · simp [hg]
      · have hnone : items.flatMap f = [] :=
          List.flatMap_eq_nil_iff.2 fun later hlater => (hitem later hlater).resolve_left hg
        simp [hnone]

/-- Declarations of the file and of its jobs, with something about the steps of each job. -/
theorem listsInOrder_of_declared {topLevel jobLevel : Bool} {ofStep : Job → Step → List Violation}
    (hstep : ∀ job step, ∀ v ∈ ofStep job step,
      v.location = .atStep d.path job.id step.index) :
    d.ListsInOrder (declarationFindings rule topLevel false d ++ d.jobs.flatMap fun job =>
      declarationFindings rule false jobLevel (d.only job) ++ job.steps.flatMap (ofStep job)) :=
  listsInOrder_of_shares (fun _ => location_of_mem_declarationFindings)
    (fun _ _ => location_of_mem_declarationFindings_only) hstep

theorem listsInOrder_declarationFindings (topLevel jobLevel : Bool) :
    d.ListsInOrder (declarationFindings rule topLevel jobLevel d) := by
  rw [declarationFindings_eq]
  have hshares := @listsInOrder_of_declared d rule topLevel jobLevel (fun _ _ => []) (by simp)
  have hnone : ∀ job : Job, job.steps.flatMap (fun _ => ([] : List Violation)) = [] :=
    fun job => List.flatMap_eq_nil_iff.2 fun _ _ => rfl
  simpa only [hnone, List.append_nil] using hshares

theorem listsInOrder_permissionFindings {topLevel jobLevel : Bool} {required : String}
    (hrounds : d.jobs.Pairwise fun earlier later => earlier.startsWith required = true ∨
      declarationFindings rule false jobLevel (d.only later) = []) :
    d.ListsInOrder (permissionFindings rule topLevel jobLevel (some required) d) := by
  have hfindings : permissionFindings rule topLevel jobLevel (some required) d =
      declarationFindings rule topLevel false d ++ d.jobs.flatMap fun job =>
        declarationFindings rule false jobLevel (d.only job) ++
          hardeningFindings rule required (d.only job) := by
    rw [← flatMap_append_flatMap, ← hardeningFindings_eq, ← List.append_assoc,
      ← declarationFindings_eq]
    · rfl
    · exact hrounds.imp fun hround => hround.imp_left hardeningFindings_only_eq_nil_iff.2
  rw [hfindings]
  have hshares := @listsInOrder_of_declared d rule topLevel jobLevel
    (fun job step => [rule.violation "hardening_step_not_first"
      s!"first step of job '{job.id}' is not {required}" (.atStep d.path job.id step.index)])
    (by simp [Rule.violation, Violation.make])
  refine hshares.sublist ((List.Sublist.refl _).append (List.Sublist.flatMap_right _ ?_))
  exact fun job _ => (List.Sublist.refl _).append (hardeningFindings_only_sublist ..)

theorem listsInOrder_hardeningFindings (required : String) :
    d.ListsInOrder (hardeningFindings rule required d) := by
  have hboth : d.ListsInOrder (permissionFindings rule false false (some required) d) :=
    listsInOrder_permissionFindings <| List.pairwise_of_forall fun _ _ =>
      .inr (declarationFindings_only_eq_nil_iff.2 (.inr (.inl rfl)))
  exact hboth.sublist (List.sublist_append_right _ _)

theorem Definition.At.exists_job {place : List Nat} {location : Location} {id : String}
    (hat : d.At place location) (hid : location.job = some id) :
    ∃ i rest, place = i :: rest ∧ (d.jobs.map Job.id)[i]? = some id := by
  cases hat with
  | file => cases hid
  | job hjob =>
      cases hid
      exact ⟨_, _, rfl, by simp [hjob]⟩
  | step hjob hstep =>
      cases hid
      exact ⟨_, _, rfl, by simp [hjob]⟩

/-- Where jobs have different ids, findings in order have the declaration of no job behind
the first step of an earlier one. -/
theorem pairwise_of_listsInOrder {topLevel jobLevel : Bool} {required : String}
    (hnodup : (d.jobs.map Job.id).Nodup)
    (hlisted : d.ListsInOrder (permissionFindings rule topLevel jobLevel (some required) d)) :
    d.jobs.Pairwise fun earlier later => earlier.startsWith required = true ∨
      declarationFindings rule false jobLevel (d.only later) = [] := by
  rw [List.pairwise_iff_getElem]
  intro i k hi hk hlt
  by_contra hboth
  obtain ⟨hstart, hdeclared⟩ := not_or.1 hboth
  rw [← @hardeningFindings_only_eq_nil_iff d rule] at hstart
  obtain ⟨v, hv⟩ := List.exists_mem_of_ne_nil _ hdeclared
  obtain ⟨w, hw⟩ := List.exists_mem_of_ne_nil _ hstart
  have hvjob : v.location.job = some d.jobs[k].id := by
    rw [location_of_mem_declarationFindings_only hv]
    rfl
  have hwjob : w.location.job = some d.jobs[i].id := by
    obtain ⟨step, -, hw⟩ := List.mem_flatMap.1 ((hardeningFindings_only_sublist ..).subset hw)
    rw [List.mem_singleton.1 hw]
    rfl
  have hvmem : v ∈ declarationFindings rule topLevel jobLevel d := by
    rw [declarationFindings_eq]
    exact List.mem_append_right _ (List.mem_flatMap.2 ⟨_, List.getElem_mem hk, hv⟩)
  have hwmem : w ∈ hardeningFindings rule required d := by
    rw [hardeningFindings_eq]
    exact List.mem_flatMap.2 ⟨_, List.getElem_mem hi, hw⟩
  obtain ⟨place, place', hat, hat', hplaces⟩ := hlisted.exists_places hvmem hwmem
  obtain ⟨k', rest, rfl, hk'⟩ := hat.exists_job hvjob
  obtain ⟨i', rest', rfl, hi'⟩ := hat'.exists_job hwjob
  have hposition : ∀ n m (hm : m < d.jobs.length),
      (d.jobs.map Job.id)[n]? = some d.jobs[m].id → m = n := by
    intro n m hm hn
    refine (List.getElem?_inj (by simpa using hm) hnodup).1 ?_
    rw [hn, List.getElem?_map, List.getElem?_eq_getElem hm]
    rfl
  obtain rfl := hposition k' k hk hk'
  obtain rfl := hposition i' i hi hi'
  exact absurd hplaces.head_le (Nat.not_le.2 hlt)

/-! ## Whole scans -/

/-- The check that looks twice comes to no job without declared permissions behind a job
that starts with another step. -/
def Definition.RoundsMeet (required : String) (d : Definition) : Prop :=
  d.jobs.Pairwise fun earlier later =>
    earlier.startsWith required = true ∨ later.permissions.isSome = true

theorem listsInOrder_findings {answer : String → String → Verdict}
    (hrounds : ∀ topLevel required, rule.check = .permissions topLevel true (some required) →
      d.isBundle = false → d.RoundsMeet required) :
    d.ListsInOrder (rule.findings answer prepared d) := by
  obtain ⟨id, mode, description, check⟩ := rule
  cases check with
  | permissions topLevel jobLevel hardeningStep =>
      cases hardeningStep with
      | none =>
          have hdeclared : ∀ rule : Rule,
              d.ListsInOrder (permissionFindings rule topLevel jobLevel none d) := fun rule => by
            rw [permissionFindings, List.append_nil]
            exact listsInOrder_declarationFindings topLevel jobLevel
          exact hdeclared _
      | some required =>
          refine listsInOrder_permissionFindings ?_
          simp only [declarationFindings_only_eq_nil_iff]
          cases jobLevel with
          | false => exact List.pairwise_of_forall fun _ _ => .inr (.inr (.inl rfl))
          | true =>
              cases hbundle : d.isBundle with
              | true => exact List.pairwise_of_forall fun _ _ => .inr (.inl rfl)
              | false =>
                  exact (hrounds topLevel required rfl hbundle).imp fun hround =>
                    hround.imp_right fun hsome => .inr (.inr hsome)
  | shaPinning verify =>
      refine listsInOrder_of_references fun location uses v hv => ?_
      exact location_of_answeredFinding (Option.mem_toList.1 hv)
  | allowlist allowed => exact listsInOrder_allowlistFindings _
  | unsafePattern patterns => exact listsInOrder_patternFindings patterns
  | inlineScript maxLines patterns => exact listsInOrder_scriptFindings maxLines patterns
  | highRiskTrigger triggers allowed safeguards =>
      exact listsInOrder_triggerFindings triggers safeguards _
  | artifactPolicy requiredPaths artifactActions appliesTo =>
      exact listsInOrder_artifactFindings requiredPaths artifactActions _
  | dockerPinning => exact listsInOrder_dockerFindings

theorem findings_of_permissions {answer : String → String → Verdict} {topLevel jobLevel : Bool}
    {hardeningStep : Option String}
    (hcheck : rule.check = .permissions topLevel jobLevel hardeningStep) :
    rule.findings answer prepared d =
      permissionFindings rule topLevel jobLevel hardeningStep d := by
  obtain ⟨id, mode, description, check⟩ := rule
  cases hcheck
  rfl

theorem Definition.ListsInOrder.exists_at {found : List Violation} (hfound : d.ListsInOrder found)
    {v : Violation} (hv : v ∈ found) : ∃ place, d.At place v.location := by
  obtain ⟨placed, rfl, -, hat⟩ := hfound
  obtain ⟨⟨place, v⟩, hmem, rfl⟩ := List.mem_map.1 hv
  exact ⟨place, hat place v hmem⟩

/-- Whatever a rule finds in a definition has a place there. -/
theorem exists_at_of_mem_findings {answer : String → String → Verdict} {v : Violation}
    (hv : v ∈ rule.findings answer prepared d) : ∃ place, d.At place v.location := by
  by_cases hcheck : ∃ topLevel required, rule.check = .permissions topLevel true (some required)
  · obtain ⟨topLevel, required, hcheck⟩ := hcheck
    rw [findings_of_permissions hcheck] at hv
    rcases List.mem_append.1 hv with hv | hv
    · exact (listsInOrder_declarationFindings topLevel true).exists_at hv
    · exact (listsInOrder_hardeningFindings required).exists_at hv
  · refine (listsInOrder_findings fun topLevel required hother => ?_).exists_at hv
    exact (hcheck ⟨topLevel, required, hother⟩).elim

theorem Definition.At.path_eq {place : List Nat} {location : Location}
    (hat : d.At place location) : location.path = d.path := by
  cases hat <;> rfl

theorem path_of_mem_findings {answer : String → String → Verdict} {v : Violation}
    (hv : v ∈ rule.findings answer prepared d) : v.location.path = d.path := by
  obtain ⟨place, hat⟩ := exists_at_of_mem_findings hv
  exact hat.path_eq

namespace Scanner

variable {σ : Type}

/-- A scan reports definition by definition, and for each of them rule by rule.  What a
rule reports of a definition is in document order, unless it asks the jobs of a workflow
twice, for declared permissions and for their first step.  Then each of the two rounds is
in document order; and both together are if no job without declared permissions stands
behind a job that starts with another step, and where the jobs have different ids only
then. -/
theorem scan_lists_in_document_order (verifier : ReferenceVerifier σ) (engine : Pattern.Engine)
    (policy : Policy) (state : σ) (earlier : List (List Definition))
    (definitions : List Definition) :
    let scanner := ((start engine policy state).scanEach verifier earlier).2
    let found := scanner.scan verifier definitions
    let share := fun (d : Definition) (rule : Rule) =>
      rule.findings found.2.inquiry.answer (policy.prepare engine) d
    found.1 = scanner.unreported ++
        definitions.flatMap (fun d => policy.rules.flatMap fun rule => share d rule) ∧
      ∀ d ∈ definitions, ∀ rule ∈ policy.rules,
        (∀ v ∈ share d rule, v.ruleId = rule.id ∧ v.location.path = d.path) ∧
        ((∀ topLevel required, rule.check = .permissions topLevel true (some required) →
          d.isBundle = true) → d.ListsInOrder (share d rule)) ∧
        ∀ topLevel required, rule.check = .permissions topLevel true (some required) →
          d.isBundle = false →
          share d rule =
              declarationFindings rule topLevel true d ++ hardeningFindings rule required d ∧
            d.ListsInOrder (declarationFindings rule topLevel true d) ∧
            d.ListsInOrder (hardeningFindings rule required d) ∧
            (d.RoundsMeet required → d.ListsInOrder (share d rule)) ∧
            ((d.jobs.map Job.id).Nodup → d.ListsInOrder (share d rule) →
              d.RoundsMeet required) := by
  intro scanner found share
  refine ⟨scan_after_eq_findings verifier engine policy state earlier definitions,
    fun d _ rule _ => ⟨fun v hv => ?_, ?_, ?_⟩⟩
  · exact ⟨(reports_of_mem_findings hv).ruleId_eq, path_of_mem_findings hv⟩
  · intro honce
    refine listsInOrder_findings fun topLevel required hcheck hbundle => ?_
    rw [honce topLevel required hcheck] at hbundle
    cases hbundle
  · intro topLevel required hcheck hbundle
    have hshare : share d rule = permissionFindings rule topLevel true (some required) d :=
      findings_of_permissions hcheck
    refine ⟨hshare, listsInOrder_declarationFindings topLevel true,
      listsInOrder_hardeningFindings required, fun hrounds => ?_, fun hnodup hlisted => ?_⟩
    · refine listsInOrder_findings fun topLevel' required' hcheck' _ => ?_
      rw [hcheck] at hcheck'
      cases hcheck'
      exact hrounds
    · rw [hshare] at hlisted
      refine (pairwise_of_listsInOrder hnodup hlisted).imp fun hround => ?_
      rw [declarationFindings_only_eq_nil_iff] at hround
      simpa [hbundle] using hround

/-- Two jobs that declare no permissions, of which the second starts with another step. -/
theorem scan_lists_in_document_order_two_rounds :
    let verifier : ReferenceVerifier Nat := fun _ _ asked => (.verified, asked + 1)
    let rule : Rule :=
      { id := "permissions", check := .permissions true true (some "owner/guard") }
    let policy : Policy := { rules := [rule] }
    let workflow : Definition :=
      { path := "ci.yml", kind := .pipeline,
        jobs := [{ id := "build", steps := [{ index := 0, uses := some "Owner/Guard@v1" }] },
          { id := "test", steps := [{ index := 0, run := some "make test" }] }] }
    let found := (start .standard policy 0).scan verifier [workflow]
    let share := rule.findings found.2.inquiry.answer (policy.prepare .standard)
      workflow
    found.1.map Violation.location =
        [.file "ci.yml", .inJob "ci.yml" "build", .inJob "ci.yml" "test",
          .atStep "ci.yml" "test" 0] ∧
      workflow.isBundle = false ∧ workflow.RoundsMeet "owner/guard" ∧
      workflow.ListsInOrder share ∧ ∀ v ∈ share, v.ruleId = "permissions" := by
  intro verifier rule policy workflow found share
  have hrounds : workflow.RoundsMeet "owner/guard" := by
    unfold Definition.RoundsMeet
    decide +kernel
  have hplaces : found.1.map Violation.location =
      [.file "ci.yml", .inJob "ci.yml" "build", .inJob "ci.yml" "test",
        .atStep "ci.yml" "test" 0] := by
    decide +kernel
  obtain ⟨-, hshares⟩ :=
    scan_lists_in_document_order verifier .standard policy 0 [] [workflow]
  obtain ⟨hids, -, htwice⟩ := hshares workflow List.mem_cons_self rule List.mem_cons_self
  obtain ⟨-, -, -, hlisted, -⟩ := htwice true "owner/guard" rfl rfl
  exact ⟨hplaces, rfl, hrounds, hlisted hrounds, fun v hv => (hids v hv).1⟩

/-- Two jobs that declare no permissions and start with another step: the first step of
the first job is reported behind the second job. -/
theorem scan_reports_steps_behind_later_jobs :
    let verifier : ReferenceVerifier Nat := fun _ _ asked => (.verified, asked + 1)
    let policy : Policy :=
      { rules := [{ id := "permissions",
                    check := .permissions false true (some "owner/guard") }] }
    let workflow : Definition :=
      { path := "ci.yml", kind := .pipeline,
        jobs := [{ id := "build", steps := [{ index := 0, run := some "make" }] },
          { id := "test", steps := [{ index := 0, run := some "make test" }] }] }
    let found := (start .standard policy 0).scan verifier [workflow]
    found.1.map Violation.location =
        [.inJob "ci.yml" "build", .inJob "ci.yml" "test", .atStep "ci.yml" "build" 0,
          .atStep "ci.yml" "test" 0] ∧
      ¬workflow.ListsInOrder found.1 := by
  intro verifier policy workflow found
  refine ⟨by decide +kernel, fun hlisted => ?_⟩
  have hshare : found.1 = [] ++ (permissionFindings
      { id := "permissions", check := .permissions false true (some "owner/guard") }
      false true (some "owner/guard") workflow ++ [] ++ []) :=
    scan_after_eq_findings verifier .standard policy 0 [] [workflow]
  rw [hshare, List.nil_append, List.append_nil, List.append_nil] at hlisted
  have hrounds := pairwise_of_listsInOrder (by decide) hlisted
  simp [workflow, declarationFindings_only_eq_nil_iff, Job.startsWith, Step.usesRepository,
    Definition.isBundle] at hrounds

end Scanner

end WorkflowAudit
