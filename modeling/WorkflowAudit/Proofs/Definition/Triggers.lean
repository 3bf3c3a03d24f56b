import WorkflowAudit.Proofs.Definition.Fields

/-!
# Events of a workflow

The value of `on` is a text, a list or a mapping.  Each form is read in its own way, and all
that is kept is the names of the events in their order.  Two documents that differ in the
form of `on` alone are therefore read as the same definition.
-/

namespace WorkflowAudit

open Yaml

namespace Definition

/-- The value of `on` declares an event: as its text, as an element, or as a key. -/
inductive Declares : Value → String → Prop
  | text (event : String) : Declares (.string event) event
  | element {events : List Value} {value : Value} {event : String} (hmem : value ∈ events)
      (hspells : value.Spells event) : Declares (.sequence events) event
  | key {events : Entries} {entry : Value × Value} {event : String} (hmem : entry ∈ events)
      (hspells : entry.1.Spells event) : Declares (.mapping events) event

/-- The names of the events in the three forms of `on`, in the order of the document. -/
inductive EventNames : Value → List String → Prop
  | text (event : String) : EventNames (.string event) [event]
  | elements {events : List Value} {names : List String}
      (hnames : List.Forall₂ Value.Spells events names) : EventNames (.sequence events) names
  | keys (events : Entries) : EventNames (.mapping events) (keyTexts events)

/-- A mapping has a key of that spelling. -/
def HasKey (entries : Entries) (name : String) : Prop := ∃ entry ∈ entries, entry.1.Spells name

variable {path source source' : String} {root root' : Entries} {on on' : Value}
  {names : List String} {event : String}

theorem mem_keyTexts_iff {entries : Entries} {name : String} :
    name ∈ keyTexts entries ↔ HasKey entries name := by
  simp only [keyTexts, HasKey, List.mem_filterMap, Value.spells_iff]

theorem mem_iff_of_forall₂_spells {values : List Value}
    (hnames : List.Forall₂ Value.Spells values names) :
    event ∈ names ↔ ∃ value ∈ values, value.Spells event := by
  induction hnames with
  | nil => simp
  | cons hfirst _ ih =>
      rw [Value.spells_iff] at hfirst
      simp [ih, Value.spells_iff, hfirst, @eq_comm _ event]

theorem EventNames.mem_iff (hnames : EventNames on names) : event ∈ names ↔ Declares on event := by
  cases hnames with
  | text name =>
      rw [List.mem_singleton]
      constructor
      · rintro rfl
        exact .text event
      · rintro (_ | _)
        rfl
  | elements hnames =>
      rw [mem_iff_of_forall₂_spells hnames]
      constructor
      · rintro ⟨value, hmem, hspells⟩
        exact .element hmem hspells
      · rintro (_ | ⟨hmem, hspells⟩)
        exact ⟨_, hmem, hspells⟩
  | keys events =>
      rw [mem_keyTexts_iff]
      constructor
      · rintro ⟨entry, hmem, hspells⟩
        exact .key hmem hspells
      · rintro (_ | _ | ⟨hmem, hspells⟩)
        exact ⟨_, hmem, hspells⟩

theorem EventNames.readTriggers_eq (hnames : EventNames on names) :
    readTriggers (some on) = .ok names := by
  cases hnames with
  | text event => rfl
  | elements hnames =>
      refine mapM_eq_ok_iff.2 (hnames.imp fun value name hspells => ?_)
      rw [Value.spells_iff.1 hspells]
  | keys events => rfl

/-- Without events there may be anything that is let pass; otherwise `on` has one of its
three forms. -/
theorem eventNames_of_readTriggers {value : Option Value} (hread : readTriggers value = .ok names) :
    names = [] ∨ ∃ on, value = some on ∧ EventNames on names := by
  unfold readTriggers at hread
  split at hread
  · exact .inl (Except.ok.inj hread).symm
  · exact .inl (Except.ok.inj hread).symm
  · next event =>
      cases hread
      exact .inr ⟨_, rfl, .text event⟩
  · next events =>
      refine .inr ⟨_, rfl, .elements ((mapM_eq_ok_iff.1 hread).imp fun value name hname => ?_)⟩
      split at hname
      · next hscalar =>
          cases hname
          exact Value.spells_iff.2 hscalar
      · cases hname
  · next events =>
      cases hread
      exact .inr ⟨_, rfl, .keys events⟩
  · cases hread

/-- The form of `on` makes no difference to the definition that is read. -/
theorem parsePipeline_of_same_events (path : String)
    (hroot : Value.parse source = .ok (.mapping root))
    (hroot' : Value.parse source' = .ok (.mapping root'))
    (hsame : ∀ key, key ≠ "on" → Value.get? key root' = Value.get? key root)
    (hon : Value.get? "on" root = some on) (hon' : Value.get? "on" root' = some on')
    (hnames : EventNames on names) (hnames' : EventNames on' names) :
    parsePipeline path source' = parsePipeline path source := by
  have htriggers : readTriggers (Value.get? "on" root') = readTriggers (Value.get? "on" root) := by
    rw [hon, hon', hnames.readTriggers_eq, hnames'.readTriggers_eq]
  have hread : ∀ (entries : Entries) (read : Entries → Except DefinitionFault Definition),
      (Except.ok entries >>= read) = read entries := fun _ _ => rfl
  simp only [parsePipeline, readRoot_eq_ok_iff.2 hroot, readRoot_eq_ok_iff.2 hroot', hread,
    htriggers, optionalScalar, hsame "jobs" (by decide), hsame "permissions" (by decide),
    hsame "name" (by decide)]

/-! ## Keys of jobs -/

theorem keys_of_readJob {id : String} {value : Value} {job : Job}
    (hread : readJob id value = .ok job) :
    job.id = id ∧ ∃ fields, value = .mapping fields ∧ job.keys = keyTexts fields := by
  obtain ⟨fields, steps, permissions, uses, rfl, -, -, -, rfl⟩ := readJob_eq_ok_iff.1 hread
  exact ⟨rfl, fields, rfl, rfl⟩

/-- A key that a job has is a key of its entry. -/
theorem hasKey_iff {job : Job} {fields : Entries} (hkeys : job.keys = keyTexts fields)
    {name : String} : job.hasKey name = true ↔ HasKey fields name := by
  rw [Job.hasKey, hkeys, List.contains_iff_mem, mem_keyTexts_iff]

end Definition

end WorkflowAudit
