import WorkflowAudit.Proofs.Json.Rendering
import WorkflowAudit.Proofs.Json.SortedKeys
import WorkflowAudit.Proofs.Policy.Reading
import WorkflowAudit.Report.Basic

/-!
# The document of a report

A report can be read back from its document: the decision, with all fields of its violations
and the rationales, and the number of definitions.  The document is the text of one value
only, and in this value the keys of every object are strictly ascending.
-/

namespace WorkflowAudit

namespace Json

/-- Values that their text determines, without an object that has a key twice. -/
structure IsPlain (value : Json) : Prop where
  exact : value.Exact
  distinct : value.HasDistinctKeys

theorem isPlain_bool (value : Bool) : (Json.bool value).IsPlain :=
  ⟨.bool value, by rintro (_ | ⟨_ | _, _⟩) entries ⟨⟩⟩

theorem isPlain_ofNat (n : Nat) : (Json.ofNat n).IsPlain :=
  ⟨.int n, by rintro (_ | ⟨_ | _, _⟩) entries ⟨⟩⟩

theorem isPlain_str (value : String) : (Json.str value).IsPlain :=
  ⟨.str value, by rintro (_ | ⟨_ | _, _⟩) entries ⟨⟩⟩

theorem isPlain_arr {items : List Json} (hitems : ∀ item ∈ items, item.IsPlain) :
    (Json.arr items).IsPlain := by
  refine ⟨.arr fun item hitem => (hitems item hitem).exact, fun path entries hentries => ?_⟩
  match path with
  | [] => cases hentries
  | .key _ :: _ => cases hentries
  | .item index :: path =>
      obtain ⟨item, hitem, hentries⟩ := Option.bind_eq_some_iff.1 hentries
      exact (hitems item (List.mem_of_getElem? hitem)).distinct path entries hentries

theorem isPlain_obj {entries : List (String × Json)} (hkeys : (entries.map Prod.fst).Nodup)
    (hentries : ∀ entry ∈ entries, entry.2.IsPlain) : (Json.obj entries).IsPlain := by
  refine ⟨.obj fun entry hentry => (hentries entry hentry).exact, fun path found hfound => ?_⟩
  match path with
  | [] => cases hfound; exact hkeys
  | .item _ :: _ => cases hfound
  | .key name :: path =>
      obtain ⟨value, hvalue, hfound⟩ := Option.bind_eq_some_iff.1 hfound
      exact (hentries _ (mem_of_lookup_eq_some hvalue)).distinct path found hfound

theorem Exact.sortKeys {value : Json} (hvalue : value.Exact) : value.sortKeys.Exact := by
  induction hvalue with
  | null => exact .null
  | bool value => exact .bool value
  | int value => exact .int value
  | real hvalue => exact .real hvalue
  | str value => exact .str value
  | arr _ ih =>
      rw [Json.sortKeys, sortItems_eq]
      exact .arr (List.forall_mem_map.2 ih)
  | @obj entries _ ih =>
      refine .obj fun entry hentry => ?_
      obtain ⟨old, hold, rfl⟩ := List.mem_map.1 ((sortEntries_perm entries).mem_iff.1 hentry)
      exact ih old hold

theorem get?_eq_of_sortKeys_eq {v w : Json} (heq : v.sortKeys = w.sortKeys) (name : String) :
    (v.get? name).map Json.sortKeys = (w.get? name).map Json.sortKeys := by
  rw [← get?_sortKeys, heq, get?_sortKeys]

theorem map_sortKeys_inj {α : Type} {write : α → Json}
    (hwrite : ∀ {a b}, (write a).sortKeys = (write b).sortKeys → a = b) {items items' : List α}
    (heq : (Json.arr (items.map write)).sortKeys = (Json.arr (items'.map write)).sortKeys) :
    items = items' := by
  rw [sortKeys, sortKeys, sortItems_eq, sortItems_eq, List.map_map, List.map_map] at heq
  exact List.map_injective_iff.2 (fun _ _ => hwrite) (Json.arr.inj heq)

end Json

/-! ## Violations -/

theorem Severity.eq_of_name_eq {s s' : Severity} (heq : s.name = s'.name) : s = s' := by
  cases s <;> cases s' <;> first | rfl | exact absurd heq (by decide)

theorem ExecutionMode.eq_of_name_eq {m m' : ExecutionMode} (heq : m.name = m'.name) : m = m' := by
  cases m <;> cases m' <;> first | rfl | exact absurd heq (by decide)

theorem Location.isPlain_toJson (location : Location) : location.toJson.IsPlain := by
  obtain ⟨path, job, step⟩ := location
  refine Json.isPlain_obj ?_ ?_
  · cases job <;> cases step <;> simp
  · cases job <;> cases step <;> simp [Json.isPlain_str, Json.isPlain_ofNat]

theorem Location.get?_job (location : Location) :
    location.toJson.get? "job" = location.job.map Json.str := by
  obtain ⟨path, job, step⟩ := location
  cases job <;> cases step <;> rfl

theorem Location.get?_step (location : Location) :
    location.toJson.get? "step" = location.step.map Json.ofNat := by
  obtain ⟨path, job, step⟩ := location
  cases job <;> cases step <;> rfl

theorem Location.toJson_inj {l l' : Location} (heq : l.toJson.sortKeys = l'.toJson.sortKeys) :
    l = l' := by
  have hpath := Json.get?_eq_of_sortKeys_eq heq "path"
  have hjob := Json.get?_eq_of_sortKeys_eq heq "job"
  have hstep := Json.get?_eq_of_sortKeys_eq heq "step"
  rw [get?_job, get?_job, Option.map_map, Option.map_map] at hjob
  rw [get?_step, get?_step, Option.map_map, Option.map_map] at hstep
  have hjobs : Function.Injective (Json.sortKeys ∘ Json.str) := fun _ _ => Json.str.inj
  have hsteps : Function.Injective (Json.sortKeys ∘ Json.ofNat) := fun _ _ hstep =>
    Int.ofNat.inj (Json.int.inj hstep)
  obtain ⟨path, job, step⟩ := l
  obtain ⟨path', job', step'⟩ := l'
  obtain rfl : path = path' := Json.str.inj (Option.some.inj hpath)
  obtain rfl : job = job' := Option.map_injective hjobs hjob
  obtain rfl : step = step' := Option.map_injective hsteps hstep
  rfl

namespace Violation

theorem isPlain_of_mem_entries {v : Violation} :
    ∀ entry ∈ v.entries, entry.2.IsPlain := by
  simp only [entries, List.forall_mem_cons]
  exact ⟨Json.isPlain_str _, Json.isPlain_str _, Json.isPlain_str _, Json.isPlain_str _,
    Json.isPlain_str _, v.location.isPlain_toJson, Json.isPlain_str _, nofun⟩

theorem isPlain_toJson (v : Violation) : v.toJson.IsPlain :=
  Json.isPlain_obj (by simp [entries]) isPlain_of_mem_entries

/-- A violation in front of further entries is known from their sorted object. -/
theorem entries_inj {v v' : Violation} {more more' : List (String × Json)}
    (heq : (Json.obj (v.entries ++ more)).sortKeys = (Json.obj (v'.entries ++ more')).sortKeys) :
    v = v' := by
  have hfield := Json.get?_eq_of_sortKeys_eq heq
  have hrule := hfield "rule_id"
  have hcategory := hfield "category"
  have hcode := hfield "code"
  have hmessage := hfield "message"
  have hseverity := hfield "severity"
  have hlocation := hfield "location"
  have hfingerprint := hfield "fingerprint"
  obtain ⟨ruleId, category, code, message, severity, location, fingerprint⟩ := v
  obtain ⟨ruleId', category', code', message', severity', location', fingerprint'⟩ := v'
  obtain rfl : ruleId = ruleId' := Json.str.inj (Option.some.inj hrule)
  obtain rfl : category = category' :=
    Category.eq_of_name_eq (Json.str.inj (Option.some.inj hcategory))
  obtain rfl : code = code' := Json.str.inj (Option.some.inj hcode)
  obtain rfl : message = message' := Json.str.inj (Option.some.inj hmessage)
  obtain rfl : severity = severity' :=
    Severity.eq_of_name_eq (Json.str.inj (Option.some.inj hseverity))
  obtain rfl : location = location' := Location.toJson_inj (Option.some.inj hlocation)
  obtain rfl : fingerprint = fingerprint' := Json.str.inj (Option.some.inj hfingerprint)
  rfl

theorem toJson_inj {v v' : Violation} (heq : v.toJson.sortKeys = v'.toJson.sortKeys) : v = v' :=
  @entries_inj v v' [] [] heq

end Violation

namespace ExemptedViolation

theorem isPlain_toJson (e : ExemptedViolation) : e.toJson.IsPlain := by
  refine Json.isPlain_obj (by simp [Violation.entries]) (List.forall_mem_append.2 ⟨?_, ?_⟩)
  · exact Violation.isPlain_of_mem_entries
  · simpa using Json.isPlain_str e.rationale

theorem toJson_inj {e e' : ExemptedViolation} (heq : e.toJson.sortKeys = e'.toJson.sortKeys) :
    e = e' := by
  have hviolation := Violation.entries_inj heq
  have hrationale := Json.get?_eq_of_sortKeys_eq heq "rationale"
  obtain ⟨violation, rationale⟩ := e
  obtain ⟨violation', rationale'⟩ := e'
  obtain rfl : violation = violation' := hviolation
  obtain rfl : rationale = rationale' := Json.str.inj (Option.some.inj hrationale)
  rfl

end ExemptedViolation

/-! ## Reports -/

/-- A decision together with a statement on whether the run passes, true or not. -/
structure StatedDecision where
  decision : Decision
  exitOk : Bool
  deriving DecidableEq, Repr

namespace StatedDecision

def exitCode (d : StatedDecision) : Nat := if d.exitOk then 0 else 1

/-- The value of a report that repeats the statement. -/
def toJson (d : StatedDecision) (definitions : Nat) : Json :=
  .obj ([("schema_version", .str reportLayout), ("tool_version", .str toolVersion),
    ("mode", .str d.decision.mode.name), ("exit_ok", .bool d.exitOk),
    ("exit_code", Json.ofNat d.exitCode), ("definitions", Json.ofNat definitions),
    ("summary", d.decision.summary.toJson)] ++ d.decision.listEntries)

def text (d : StatedDecision) (definitions : Nat) : String :=
  (d.toJson definitions).sortKeys.pretty ++ "\n"

theorem isPlain_toJson (d : StatedDecision) (definitions : Nat) :
    (d.toJson definitions).IsPlain := by
  have hsummary : d.decision.summary.toJson.IsPlain := by
    refine Json.isPlain_obj (by simp) ?_
    simp only [List.forall_mem_cons]
    exact ⟨Json.isPlain_ofNat _, Json.isPlain_ofNat _, Json.isPlain_ofNat _,
      Json.isPlain_ofNat _, nofun⟩
  have hviolations : ∀ list : List Violation, (Json.arr (list.map Violation.toJson)).IsPlain :=
    fun list => Json.isPlain_arr (List.forall_mem_map.2 fun v _ => v.isPlain_toJson)
  have hexempted : (Json.arr (d.decision.exempted.map ExemptedViolation.toJson)).IsPlain :=
    Json.isPlain_arr (List.forall_mem_map.2 fun e _ => e.isPlain_toJson)
  refine Json.isPlain_obj (by simp [Decision.listEntries]) ?_
  simp only [Decision.listEntries, List.cons_append, List.nil_append, List.forall_mem_cons]
  exact ⟨Json.isPlain_str _, Json.isPlain_str _, Json.isPlain_str _, Json.isPlain_bool _,
    Json.isPlain_ofNat _, Json.isPlain_ofNat _, hsummary, hviolations _, hviolations _,
    hexempted, nofun⟩

theorem toJson_inj {d d' : StatedDecision} {n n' : Nat}
    (heq : (d.toJson n).sortKeys = (d'.toJson n').sortKeys) : n = n' ∧ d = d' := by
  have hfield := Json.get?_eq_of_sortKeys_eq heq
  have hmode := hfield "mode"
  have hexit := hfield "exit_ok"
  have hdefinitions := hfield "definitions"
  have hremaining := hfield "remaining"
  have hadvisories := hfield "advisories"
  have hexempted := hfield "exempted"
  obtain ⟨⟨mode, remaining, advisories, exempted⟩, exitOk⟩ := d
  obtain ⟨⟨mode', remaining', advisories', exempted'⟩, exitOk'⟩ := d'
  obtain rfl : mode = mode' :=
    ExecutionMode.eq_of_name_eq (Json.str.inj (Option.some.inj hmode))
  obtain rfl : exitOk = exitOk' := Json.bool.inj (Option.some.inj hexit)
  obtain rfl : n = n' := Int.ofNat.inj (Json.int.inj (Option.some.inj hdefinitions))
  obtain rfl : remaining = remaining' :=
    Json.map_sortKeys_inj Violation.toJson_inj (Option.some.inj hremaining)
  obtain rfl : advisories = advisories' :=
    Json.map_sortKeys_inj Violation.toJson_inj (Option.some.inj hadvisories)
  obtain rfl : exempted = exempted' :=
    Json.map_sortKeys_inj ExemptedViolation.toJson_inj (Option.some.inj hexempted)
  exact ⟨rfl, rfl⟩

end StatedDecision

theorem Json.pretty_inj_of_line {v w : Json} (hv : v.Exact) (hw : w.Exact)
    (heq : v.pretty ++ "\n" = w.pretty ++ "\n") : v = w := by
  rw [← String.toList_inj, String.toList_append, String.toList_append] at heq
  exact Json.pretty_inj hv hw (String.toList_inj.1 (List.append_cancel_right heq))

/-- A decision, with whatever it states, and the number of definitions can be recovered from
the document.  It is the text of one value only, with strictly ascending keys in every object;
sorting them has kept what stands at the end of every path. -/
theorem documents_are_faithful_and_canonical :
    (∀ (d d' : StatedDecision) (n n' : Nat), d.text n = d'.text n' → n = n' ∧ d = d') ∧
    (∀ (d : StatedDecision) (n : Nat), ∃ value : Json,
      value.Exact ∧ d.text n = value.pretty ++ "\n" ∧ value.HasAscendingKeys ∧
        ∀ other : Json, other.Exact → d.text n = other.pretty ++ "\n" → other = value) ∧
    (∀ value : Json, value.sortKeys.sortKeys = value.sortKeys ∧
      ∀ path, value.sortKeys.at? path = (value.at? path).map Json.sortKeys) ∧
    ∀ r : ScanReport,
      r.text = StatedDecision.text ⟨r.decision, r.decision.passes⟩ r.definitions := by
  refine ⟨fun d d' n n' htext => ?_, fun d n => ?_, fun value => ?_, fun _ => rfl⟩
  -- The text determines the sorted value, and under its keys this holds every field.
  · have hvalue := (d.isPlain_toJson n).exact.sortKeys
    have hvalue' := (d'.isPlain_toJson n').exact.sortKeys
    exact StatedDecision.toJson_inj (Json.pretty_inj_of_line hvalue hvalue' htext)
  · have hplain := d.isPlain_toJson n
    refine ⟨(d.toJson n).sortKeys, hplain.exact.sortKeys, rfl,
      Json.hasAscendingKeys_sortKeys hplain.distinct, fun other hother htext => ?_⟩
    exact (Json.pretty_inj_of_line hplain.exact.sortKeys hother htext).symm
  · exact ⟨value.sortKeys_sortKeys, fun path => value.at?_sortKeys path⟩

/-- Fingerprints write a hyphen for no job; a document tells it from a job of that name. -/
theorem documents_are_faithful_and_canonical_no_job :
    let stated (job : Option String) : StatedDecision :=
      { decision :=
          { mode := .strict
            exempted := [⟨⟨"r", .permissions, "c", "m", .error, ⟨"a.yml", job, none⟩, "f"⟩, ""⟩] }
        exitOk := true }
    (∃ d n, d.text n = (stated none).text 1 ∧ n = 1 ∧ d = stated none) ∧
      (stated (some "-")).text 1 ≠ (stated none).text 1 := by
  intro stated
  refine ⟨⟨stated none, 1, rfl, ?_⟩, fun heq => ?_⟩
  · exact documents_are_faithful_and_canonical.1 (stated none) (stated none) 1 1 rfl
  · exact absurd (documents_are_faithful_and_canonical.1 _ _ _ _ heq).2 (by decide)

end WorkflowAudit
