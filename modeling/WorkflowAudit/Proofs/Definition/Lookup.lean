import Mathlib.Data.List.Lex
import WorkflowAudit.Proofs.Definition.Spellings
import WorkflowAudit.Proofs.Table
import WorkflowAudit.Scan.Workflow

/-!
# Looking fields up

A step lists its own scalars and those of its `with` and `env` in one list, and a field is
looked up by its name alone.  What is found is the first field of that name in the document.
So an entry of `with` is found under its dotted name unless the step has an entry of just that
name itself, or the name is spelled by two entries of `with`; and likewise for the others.
-/

namespace WorkflowAudit

open Text Yaml

/-! ## The first item under a key -/

section

variable {ι κ α : Type} [BEq κ] [LawfulBEq κ] {before : ι → ι → Prop} {stands : ι → κ × α → Prop}
  {items : List (κ × α)} {key : κ} {value : α}

theorem lookup_map_snd_eq_some_iff [Std.Asymm before] {listed : List (ι × κ × α)}
    (hascend : listed.Pairwise fun entry later => before entry.1 later.1) :
    (listed.map Prod.snd).lookup key = some value ↔ ∃ place, (place, key, value) ∈ listed ∧
      ∀ here other, (here, key, other) ∈ listed → place = here ∨ before place here := by
  induction listed with
  | nil => simp
  | cons entry rest ih =>
      obtain ⟨first, key', value'⟩ := entry
      obtain ⟨hfirst, hascend⟩ := List.pairwise_cons.1 hascend
      rw [List.map_cons, List.lookup_cons]
      by_cases hkey : key = key'
      · subst hkey
        simp only [BEq.rfl, Option.some.injEq]
        constructor
        · rintro rfl
          refine ⟨first, List.mem_cons_self, fun here other hmem => ?_⟩
          rcases List.mem_cons.1 hmem with heq | hmem
          · cases heq
            exact .inl rfl
          · exact .inr (hfirst _ hmem)
        · rintro ⟨place, hmem, hleast⟩
          rcases List.mem_cons.1 hmem with heq | hmem
          · cases heq
            rfl
          · have hlater : before first place := hfirst _ hmem
            rcases hleast first value' List.mem_cons_self with rfl | hbefore
            · exact absurd hlater (Std.Asymm.asymm _ _ hlater)
            · exact absurd hlater (Std.Asymm.asymm _ _ hbefore)
      · have hother : ∀ place other, (place, key, other) ∈ (first, key', value') :: rest ↔
            (place, key, other) ∈ rest := fun place other => by
          simp [hkey]
        rw [beq_false_of_ne hkey]
        simp only [ih hascend, hother]

/-- What is looked up in a list of items at places is the first item under the key. -/
theorem ListedBy.lookup_eq_some_iff [Std.Asymm before] (hlisted : ListedBy before stands items) :
    items.lookup key = some value ↔ ∃ place, stands place (key, value) ∧
      ∀ here other, stands here (key, other) → place = here ∨ before place here := by
  obtain ⟨listed, rfl, hascend, hstands⟩ := hlisted
  simp only [lookup_map_snd_eq_some_iff hascend, hstands]

end

namespace Definition

/-! ## Entries that hold scalars -/

/-- An entry of a mapping is spelled `name` and holds a scalar that is spelled `text`. -/
def Holds (entries : Entries) (name text : String) : Prop :=
  ∃ entry ∈ entries, entry.1.Spells name ∧ entry.2.Spells text

/-- Two entries of a mapping that hold scalars are spelled `name`: one under the text, the other
under a number or a truth value. -/
def HoldsTwice (entries : Entries) (name : String) : Prop :=
  SpelledTwice (entries.filter fun entry => entry.2.scalar?.isSome) name

variable {entries : Entries} {name text other group : String}

theorem isSound_filter (hsound : (Value.mapping entries).IsSound) (p : Value × Value → Bool) :
    (Value.mapping (entries.filter p)).IsSound := by
  cases hsound with
  | mapping hdiffer hkeys hvalues =>
      exact .mapping (hdiffer.sublist List.filter_sublist)
        (fun entry hentry => hkeys entry (List.mem_of_mem_filter hentry))
        (fun entry hentry => hvalues entry (List.mem_of_mem_filter hentry))

theorem Holds.unique (hsound : (Value.mapping entries).IsSound) (honce : ¬HoldsTwice entries name)
    (hholds : Holds entries name text) (hholds' : Holds entries name other) : text = other := by
  obtain ⟨entry, hmem, hname, htext⟩ := hholds
  obtain ⟨entry', hmem', hname', hother⟩ := hholds'
  have hkept : ∀ {entry : Value × Value} {text}, entry ∈ entries → entry.2.Spells text →
      ∃ i : Nat, (entries.filter fun entry => entry.2.scalar?.isSome)[i]? = some entry := by
    intro entry text hmem htext
    refine List.mem_iff_getElem?.1 (List.mem_filter.2 ⟨hmem, ?_⟩)
    rw [Value.spells_iff.1 htext]
    rfl
  obtain ⟨i, hentry⟩ := hkept hmem htext
  obtain ⟨k, hentry'⟩ := hkept hmem' hother
  obtain rfl := position_eq_of_spells (isSound_filter hsound _) honce hentry hentry' hname hname'
  rw [hentry] at hentry'
  cases hentry'
  exact Value.spells_unique htext hother

/-! ## Names of fields -/

/-- The mappings whose entries are fields under dotted names. -/
def IsGroup (group : String) : Prop := group = "with" ∨ group = "env"

theorem IsGroup.spells_iff (hgroup : IsGroup group) {key : Value} :
    key.Spells group ↔ key = .string group := by
  rcases hgroup with rfl | rfl
  · exact Value.spells_iff_of_letter (c := 'w') (by decide) rfl (by decide) (by decide)
  · exact Value.spells_iff_of_letter (c := 'v') (by decide) rfl (by decide) (by decide)

/-- A dotted name tells the group and the name within it. -/
theorem IsGroup.dotted_inj (hgroup : IsGroup group) {group' name' : String}
    (hgroup' : IsGroup group') (heq : group ++ "." ++ name = group' ++ "." ++ name') :
    group = group' ∧ name = name' := by
  have hchars := congrArg String.toList heq
  rcases hgroup with rfl | rfl <;> rcases hgroup' with rfl | rfl <;>
    simp [String.toList_append, String.toList_inj] at hchars ⊢
  · exact hchars
  · exact hchars

theorem entriesUnder_eq (hsound : (Value.mapping entries).IsSound) {nested : Entries}
    (hmem : (.string group, .mapping nested) ∈ entries) : entriesUnder group entries = nested := by
  cases hsound with
  | mapping hdiffer _ _ =>
      have hgiven : given? group entries = some (.mapping nested) :=
        given?_eq_some_iff.2 ⟨hdiffer.get?_eq_some_iff.2 hmem, by simp⟩
      rw [entriesUnder, hgiven]

theorem exists_of_mem_entriesUnder {entry : Value × Value}
    (hmem : entry ∈ entriesUnder group entries) :
    ∃ nested, (.string group, .mapping nested) ∈ entries ∧ entriesUnder group entries = nested := by
  unfold entriesUnder at hmem ⊢
  split at hmem
  · next nested hgiven =>
      exact ⟨nested, Value.mem_of_get?_eq_some (given?_eq_some_iff.1 hgiven).1, rfl⟩
  · cases hmem

/-- The fields of a step are the scalars that it holds itself, and those that its `with` and
`env` hold under dotted names. -/
theorem mem_scalarFields_iff (hsound : (Value.mapping entries).IsSound) :
    (name, text) ∈ scalarFields entries ↔ Holds entries name text ∨
      ∃ group inner, IsGroup group ∧ name = group ++ "." ++ inner ∧
        Holds (entriesUnder group entries) inner text := by
  rw [(listedBy_scalarFields entries).mem_iff]
  constructor
  · rintro ⟨_, i, rest, ⟨key, value⟩, rfl, hentry, hholds⟩
    have hmem := List.mem_of_getElem? hentry
    cases hholds with
    | own hname htext => exact .inl ⟨_, hmem, hname, htext⟩
    | nested hgroup hnests hentry' hname htext =>
        rw [IsGroup.spells_iff hnests] at hgroup
        subst hgroup
        refine .inr ⟨_, _, hnests, rfl, ?_⟩
        rw [entriesUnder_eq hsound hmem]
        exact ⟨_, List.mem_of_getElem? hentry', hname, htext⟩
  · rintro (⟨entry, hmem, hname, htext⟩ | ⟨group, inner, hgroup, rfl, entry, hmem, hname, htext⟩)
    · obtain ⟨i, hentry⟩ := List.mem_iff_getElem?.1 hmem
      exact ⟨_, i, [], entry, rfl, hentry, .own hname htext⟩
    · obtain ⟨nested, hnested, hunder⟩ := exists_of_mem_entriesUnder hmem
      rw [hunder] at hmem
      obtain ⟨i, hentry⟩ := List.mem_iff_getElem?.1 hnested
      obtain ⟨k, hentry'⟩ := List.mem_iff_getElem?.1 hmem
      exact ⟨_, i, [k], _, rfl, hentry, .nested (.string group) hgroup hentry' hname htext⟩

/-! ## What is looked up -/

variable {step : Step}

/-- Without an own scalar of the dotted name, and without a second entry of that spelling, an
entry of a group is found under its dotted name. -/
theorem field?_dotted_eq_some_iff (hsound : (Value.mapping entries).IsSound)
    (hfields : step.fields = scalarFields entries) (hgroup : IsGroup group)
    (hown : ∀ text, ¬Holds entries (group ++ "." ++ name) text)
    (honce : ¬HoldsTwice (entriesUnder group entries) name) :
    step.field? (group ++ "." ++ name) = some text ↔
      Holds (entriesUnder group entries) name text := by
  have hmem : ∀ text, (group ++ "." ++ name, text) ∈ scalarFields entries ↔
      Holds (entriesUnder group entries) name text := by
    intro text
    rw [mem_scalarFields_iff hsound]
    constructor
    · rintro (hholds | ⟨group', inner, hgroup', heq, hholds⟩)
      · exact absurd hholds (hown text)
      · obtain ⟨rfl, rfl⟩ := hgroup.dotted_inj hgroup' heq
        exact hholds
    · exact fun hholds => .inr ⟨group, name, hgroup, rfl, hholds⟩
  rw [Step.field?, hfields, lookup_eq_some_iff_mem, hmem]
  intro other hother htext
  rw [hmem] at hother htext
  exact htext.unique (isSound_entriesUnder hsound group) honce hother

/-- Without an entry of a group under this name, and without a second entry of that spelling,
an own scalar is found under its name. -/
theorem field?_own_eq_some_iff (hsound : (Value.mapping entries).IsSound)
    (hfields : step.fields = scalarFields entries)
    (hnested : ∀ group inner, IsGroup group → name = group ++ "." ++ inner →
      ∀ text, ¬Holds (entriesUnder group entries) inner text)
    (honce : ¬HoldsTwice entries name) :
    step.field? name = some text ↔ Holds entries name text := by
  have hmem : ∀ text, (name, text) ∈ scalarFields entries ↔ Holds entries name text := by
    intro text
    rw [mem_scalarFields_iff hsound, or_iff_left]
    rintro ⟨group, inner, hgroup, heq, hholds⟩
    exact hnested group inner hgroup heq text hholds
  rw [Step.field?, hfields, lookup_eq_some_iff_mem, hmem]
  intro other hother htext
  rw [hmem] at hother htext
  exact htext.unique hsound honce hother

/-- No number and no truth value is spelled `path`. -/
theorem not_holdsTwice_path (entries : Entries) : ¬HoldsTwice entries "path" :=
  not_spelledTwice_of_letter (c := 'p') (by decide) rfl (by decide) (by decide)

theorem mem_uploadedPaths_iff {path : List Char}
    (hfound : ∀ text, step.field? "with.path" = some text ↔
      Holds (entriesUnder "with" entries) "path" text) :
    path ∈ step.uploadedPaths ↔ ∃ text line, Holds (entriesUnder "with" entries) "path" text ∧
      line ∈ lines text.toList ∧ normalArtifactPath line = path ∧ path ≠ [] := by
  simp only [← hfound]
  unfold Step.uploadedPaths
  cases step.field? "with.path" with
  | none => simp
  | some text => simp [← and_assoc]

/-- A step that was read finds under a name the first field of that name in the document.  That
is the scalar of the entry of `with` or `env` behind the dot, unless the step has a scalar of
the dotted name itself or two scalars there are spelled like the name; and it is the scalar of
an own entry, unless `with` or `env` has one of this name or two own scalars are spelled like
it.  So the paths that a step uploads are those of the `path` of its `with`, unless the step has
a scalar `with.path` itself. -/
theorem lookups_follow_entries {job : String} {values : List Value} {steps : List Step}
    (hsound : ∀ value ∈ values, value.IsSound)
    (hread : readSteps job (some (.sequence values)) = .ok steps) {index : Nat}
    {entries : Entries} (hentries : values[index]? = some (.mapping entries)) :
    ∃ step, steps[index]? = some step ∧
      (∀ name text, step.field? name = some text ↔
        ∃ place, StepHolds entries place (name, text) ∧
          ∀ here other, StepHolds entries here (name, other) → NotBehind place here) ∧
      (∀ group name, IsGroup group → (∀ text, ¬Holds entries (group ++ "." ++ name) text) →
        ¬HoldsTwice (entriesUnder group entries) name → ∀ text,
          step.field? (group ++ "." ++ name) = some text ↔
            Holds (entriesUnder group entries) name text) ∧
      (∀ name, (∀ group inner, IsGroup group → name = group ++ "." ++ inner →
          ∀ text, ¬Holds (entriesUnder group entries) inner text) →
        ¬HoldsTwice entries name → ∀ text, step.field? name = some text ↔ Holds entries name text) ∧
      ((∀ text, ¬Holds entries "with.path" text) → ∀ path, path ∈ step.uploadedPaths ↔
        ∃ text line, Holds (entriesUnder "with" entries) "path" text ∧ line ∈ lines text.toList ∧
          normalArtifactPath line = path ∧ path ≠ []) := by
  obtain ⟨step, hstep, hread⟩ := getElem?_of_readStepsFrom hread hentries
  obtain ⟨-, hfields, -⟩ := readStep_mapping_eq_ok hread
  have hsound := hsound _ (List.mem_of_getElem? hentries)
  refine ⟨step, hstep, fun name text => ?_, fun group name hgroup hown honce text => ?_,
    fun name hnested honce text => ?_, fun hown path => mem_uploadedPaths_iff fun text => ?_⟩
  · rw [Step.field?, hfields]
    exact (listedBy_scalarFields entries).lookup_eq_some_iff
  · exact field?_dotted_eq_some_iff hsound hfields hgroup hown honce
  · exact field?_own_eq_some_iff hsound hfields hnested honce
  · have hdotted : "with" ++ "." ++ "path" = "with.path" := rfl
    rw [← hdotted] at hown ⊢
    exact field?_dotted_eq_some_iff hsound hfields (.inl rfl) hown (not_holdsTwice_path _)

/-- A step with a number among its inputs, and with an own entry under a dotted name. -/
theorem lookups_follow_entries_numbered :
    let inputs : Entries :=
      [(.string "path", .string "dist/"), (.number (.natural 1), .string "one")]
    let entries : Entries :=
      [(.string "with.name", .string "site"), (.string "with", .mapping inputs)]
    ∃ step, readSteps "build" (some (.sequence [.mapping entries])) = .ok [step] ∧
      step.field? "with.path" = some "dist/" ∧ step.field? "with.1" = some "one" ∧
      step.field? "with.name" = some "site" ∧ "dist".toList ∈ step.uploadedPaths := by
  intro inputs entries
  have hinputs : (Value.mapping inputs).IsSound :=
    .mapping (by simp [inputs, KeysDiffer, Value.same])
      (List.forall_mem_cons.2 ⟨.string _, List.forall_mem_singleton.2 (.number trivial)⟩)
      (List.forall_mem_cons.2 ⟨.string _, List.forall_mem_singleton.2 (.string _)⟩)
  have hsound : (Value.mapping entries).IsSound :=
    .mapping (by simp [entries, KeysDiffer, Value.same])
      (List.forall_mem_cons.2 ⟨.string _, List.forall_mem_singleton.2 (.string _)⟩)
      (List.forall_mem_cons.2 ⟨.string _, List.forall_mem_singleton.2 hinputs⟩)
  obtain ⟨step, hstep, -, hdotted, hown, hpaths⟩ := @lookups_follow_entries "build"
    [.mapping entries] [{ index := 0, fields := scalarFields entries }]
    (List.forall_mem_singleton.2 hsound) rfl 0 entries rfl
  obtain rfl := Option.some.inj hstep
  have habsent : ∀ {entries : Entries} {name}, (∀ entry ∈ entries, entry.1.scalar? ≠ some name) →
      ∀ text, ¬Holds entries name text := by
    rintro entries name hkeys text ⟨entry, hmem, hname, -⟩
    exact hkeys entry hmem (Value.spells_iff.1 hname)
  have hpath : Holds inputs "path" "dist/" :=
    ⟨_, List.mem_cons_self, .string _, .string _⟩
  have hone : Holds inputs "1" "one" :=
    ⟨_, List.mem_cons_of_mem _ List.mem_cons_self, .number (.natural 1), .string _⟩
  have hname : Holds entries "with.name" "site" := ⟨_, List.mem_cons_self, .string _, .string _⟩
  refine ⟨_, rfl, ?_, ?_, ?_, ?_⟩
  · exact (hdotted "with" "path" (.inl rfl) (habsent (by decide)) (not_holdsTwice_path _) _).2 hpath
  · refine (hdotted "with" "1" (.inl rfl) (habsent (by decide)) ?_ _).2 hone
    rintro ⟨_, value, _, hmem, -⟩
    simp [entriesUnder, given?, entries, inputs, Value.get?] at hmem
  · refine (hown "with.name" ?_ ?_ _).2 hname
    · intro group inner hgroup heq
      obtain ⟨rfl, rfl⟩ := @IsGroup.dotted_inj "name" "with" (.inl rfl) _ _ hgroup heq
      exact habsent (by decide)
    · exact not_spelledTwice_of_letter (c := 'w') (by decide) rfl (by decide) (by decide)
  · exact (hpaths (habsent (by decide)) _).2 ⟨_, _, hpath, List.mem_cons_self, rfl, by decide⟩

/-- Entries that are found in the place of others: an own entry under a dotted name, and an input
that is a number in the place of the text that is spelled like it. -/
theorem lookups_meet_other_entries :
    let inputs : Entries := [(.string "path", .string "b"), (.number (.natural 1), .string "c"),
      (.string "1", .string "d")]
    let entries : Entries := [(.string "with.path", .string "a"), (.string "with", .mapping inputs)]
    ∃ step, readSteps "build" (some (.sequence [.mapping entries])) = .ok [step] ∧
      Value.get? "path" inputs = some (.string "b") ∧ step.field? "with.path" = some "a" ∧
      Value.get? "1" inputs = some (.string "d") ∧ step.field? "with.1" = some "c" ∧
      step.uploadedPaths = ["a".toList] := by
  intro inputs entries
  exact ⟨{ index := 0, fields := scalarFields entries }, rfl, rfl, by decide +kernel, rfl,
    by decide +kernel, by decide +kernel⟩

end Definition

end WorkflowAudit
