import Mathlib.Data.Nat.Digits.Defs
import WorkflowAudit.Proofs.Definition.Places
import WorkflowAudit.Proofs.Definition.References

/-!
# Fields of a step

A step is a mapping.  Each entry whose key and value are texts, numbers or truth values is
a field of the step under its key.  A `with` or an `env` that is a mapping is none itself;
its entries of that kind are fields under dotted names.  A step that was read lists its
fields in the order of the document, and its script is the one field of the name `run`.
-/

namespace WorkflowAudit

namespace Yaml

/-- How a text, a number or a truth value is spelled. -/
inductive Value.Spells : Value → String → Prop
  | string (text : String) : Spells (.string text) text
  | number (n : Number) : Spells (.number n) n.text
  | true : Spells (.bool true) "true"
  | false : Spells (.bool false) "false"

theorem Value.spells_iff {value : Value} {text : String} :
    value.Spells text ↔ value.scalar? = some text := by
  constructor
  · rintro (_ | _ | _ | _) <;> rfl
  · intro hscalar
    cases value with
    | bool value => cases value <;> cases hscalar <;> constructor
    | number n => cases hscalar; exact .number n
    | string text => cases hscalar; exact .string text
    | null | sequence items | mapping entries | tagged tag value => cases hscalar

/-! ## How numbers are written -/

/-- Digits, a sign, a point, the mark of an exponent, and the letters of `inf` and `nan`. -/
def isNumeral (c : Char) : Bool := c.isDigit || ['-', '.', 'e', 'i', 'n', 'f', 'a'].contains c

theorem isNumeral_of_all {text : List Char} (hall : text.all isNumeral = true) :
    ∀ c ∈ text, isNumeral c = true := List.all_eq_true.1 hall

theorem isNumeral_of_mem_toDigits {n : Nat} : ∀ c ∈ Nat.toDigits 10 n, isNumeral c = true := by
  intro c hc
  rw [isNumeral, Nat.isDigit_of_mem_toDigits (by decide) (by decide) hc]
  rfl

theorem isNumeral_of_mem_repr {n : Nat} : ∀ c ∈ n.repr.toList, isNumeral c = true := by
  rw [Nat.toList_repr]
  exact isNumeral_of_mem_toDigits

theorem isNumeral_of_mem_replicate {count : Nat} :
    ∀ c ∈ List.replicate count '0', isNumeral c = true := by
  intro c hc
  rw [List.eq_of_mem_replicate hc]
  rfl

theorem isNumeral_of_mem_intText {n : Int} : ∀ c ∈ (toString n).toList, isNumeral c = true := by
  rw [Int.toString_eq_repr, Int.repr_eq_if]
  split
  · exact isNumeral_of_mem_repr
  · rw [String.toList_append]
    exact List.forall_mem_append.2 ⟨isNumeral_of_all (by decide), isNumeral_of_mem_repr⟩

theorem isNumeral_of_mem_decimalText {d : Decimal.Digits} :
    ∀ c ∈ Decimal.decimalText d, isNumeral c = true := by
  have hdigits := @isNumeral_of_mem_toDigits d.coefficient
  unfold Decimal.decimalText
  dsimp only
  split
  · exact List.forall_mem_append.2
      ⟨List.forall_mem_append.2 ⟨hdigits, isNumeral_of_mem_replicate⟩, isNumeral_of_all rfl⟩
  split
  · exact List.forall_mem_append.2 ⟨fun c hc => hdigits c (List.mem_of_mem_take hc),
      List.forall_mem_cons.2 ⟨rfl, fun c hc => hdigits c (List.mem_of_mem_drop hc)⟩⟩
  split
  · exact List.forall_mem_append.2
      ⟨List.forall_mem_append.2 ⟨isNumeral_of_all rfl, isNumeral_of_mem_replicate⟩, hdigits⟩
  · refine List.forall_mem_append.2 ⟨?_, List.forall_mem_cons.2 ⟨rfl, isNumeral_of_mem_intText⟩⟩
    split
    · next hshape =>
        rw [hshape] at hdigits
        obtain ⟨hfirst, hrest⟩ := List.forall_mem_cons.1 hdigits
        exact List.forall_mem_cons.2 ⟨hfirst, List.forall_mem_cons.2 ⟨rfl, hrest⟩⟩
    · exact hdigits

theorem isNumeral_of_mem_text {n : Number} : ∀ c ∈ n.text.toList, isNumeral c = true := by
  unfold Number.text
  split
  · exact isNumeral_of_mem_repr
  · exact isNumeral_of_all (by decide)
  · rw [String.toList_append]
    exact List.forall_mem_append.2 ⟨isNumeral_of_all (by decide), isNumeral_of_mem_repr⟩
  · rw [String.toList_ofList]
    refine List.forall_mem_append.2 ⟨?_, isNumeral_of_mem_decimalText⟩
    split <;> exact isNumeral_of_all rfl
  · split <;> exact isNumeral_of_all (by decide)
  · exact isNumeral_of_all (by decide)

/-- No number has a letter that no numeral has, and no truth value has another name. -/
theorem Value.spells_iff_of_letter {key : Value} {name : String} {c : Char} (hc : c ∈ name.toList)
    (hletter : isNumeral c = false) (htruth : name ≠ "true") (hfalsity : name ≠ "false") :
    key.Spells name ↔ key = .string name := by
  constructor
  · rintro (_ | n | _ | _)
    · rfl
    · rw [isNumeral_of_mem_text c hc] at hletter
      cases hletter
    · exact absurd rfl htruth
    · exact absurd rfl hfalsity
  · rintro rfl
    exact .string name

theorem Value.spells_run_iff {key : Value} : key.Spells "run" ↔ key = .string "run" :=
  spells_iff_of_letter (c := 'r') (by decide) rfl (by decide) (by decide)

/-! ## Keys of a mapping -/

/-- No key of a mapping stands there twice. -/
def KeysDiffer (entries : List (Value × Value)) : Prop :=
  entries.Pairwise fun entry later => Value.same later.1 entry.1 = false

theorem keysDiffer_of_valuesOfEntries {seen : List Value} {nodes : List (Node × Node)}
    {entries : List (Value × Value)} (hread : valuesOfEntries seen nodes = .ok entries) :
    KeysDiffer entries ∧ ∀ entry ∈ entries, ∀ key ∈ seen, Value.same entry.1 key = false := by
  induction nodes generalizing seen entries with
  | nil =>
      rw [valuesOfEntries] at hread
      cases hread
      exact ⟨.nil, by simp⟩
  | cons node nodes ih =>
      rw [valuesOfEntries] at hread
      obtain ⟨key, -, hread⟩ := bind_eq_ok_iff.1 hread
      by_cases hrepeated : seen.any (Value.same key) = true
      · simp only [if_pos hrepeated] at hread
        cases hread
      · simp only [if_neg hrepeated] at hread
        obtain ⟨value, -, hread⟩ := bind_eq_ok_iff.1 hread
        obtain ⟨rest, hrest, hread⟩ := bind_eq_ok_iff.1 hread
        cases hread
        obtain ⟨hdiffer, hseen⟩ := ih hrest
        refine ⟨List.pairwise_cons.2 ⟨fun entry hentry => ?_, hdiffer⟩,
          List.forall_mem_cons.2 ⟨fun other hother => ?_, fun entry hentry other hother => ?_⟩⟩
        · exact hseen entry hentry key List.mem_cons_self
        · exact Bool.eq_false_iff.2 fun hsame =>
            hrepeated (List.any_eq_true.2 ⟨other, hother, hsame⟩)
        · exact hseen entry hentry other (List.mem_cons_of_mem key hother)

section

variable {entries : List (Value × Value)} {name : String} {value other : Value}

theorem Value.mem_of_get?_eq_some (hget : Value.get? name entries = some value) :
    (.string name, value) ∈ entries := by
  induction entries with
  | nil => cases hget
  | cons entry entries ih =>
      unfold Value.get? at hget
      split at hget
      · next heq => cases heq
      · next heq =>
          cases heq
          split at hget
          · next hname =>
              cases hget
              rw [hname]
              exact List.mem_cons_self
          · exact List.mem_cons_of_mem _ (ih hget)
      · next heq =>
          cases heq
          exact List.mem_cons_of_mem _ (ih hget)

theorem Value.exists_get?_of_mem (hmem : (.string name, value) ∈ entries) :
    ∃ other, Value.get? name entries = some other := by
  induction entries with
  | nil => cases hmem
  | cons entry entries ih =>
      unfold Value.get?
      split
      · next heq => cases heq
      · next key first rest heq =>
          cases heq
          by_cases hname : key = name
          · exact ⟨first, if_pos hname⟩
          · have hrest := (List.mem_cons.1 hmem).resolve_left fun heq => by
              cases heq
              exact hname rfl
            rw [if_neg hname]
            exact ih hrest
      · next hother heq =>
          cases heq
          refine ih ((List.mem_cons.1 hmem).resolve_left fun heq => ?_)
          exact hother _ _ heq.symm

theorem KeysDiffer.not_lt_of_same (hdiffer : KeysDiffer entries) {entry entry' : Value × Value}
    {i k : Nat} (hentry : entries[i]? = some entry) (hentry' : entries[k]? = some entry')
    (hsame : Value.same entry'.1 entry.1 = true) : ¬i < k := by
  intro hlt
  obtain ⟨hi, hentry⟩ := List.getElem?_eq_some_iff.1 hentry
  obtain ⟨hk, hentry'⟩ := List.getElem?_eq_some_iff.1 hentry'
  have hdiffers := List.pairwise_iff_getElem.1 hdiffer i k hi hk hlt
  rw [hentry, hentry', hsame] at hdiffers
  cases hdiffers

theorem KeysDiffer.not_lt (hdiffer : KeysDiffer entries) {i k : Nat}
    (hvalue : entries[i]? = some (.string name, value))
    (hother : entries[k]? = some (.string name, other)) : ¬i < k :=
  hdiffer.not_lt_of_same hvalue hother (by simp [Value.same])

theorem KeysDiffer.position_eq (hdiffer : KeysDiffer entries) {i k : Nat}
    (hvalue : entries[i]? = some (.string name, value))
    (hother : entries[k]? = some (.string name, other)) : i = k :=
  Nat.le_antisymm (Nat.not_lt.1 (hdiffer.not_lt hother hvalue))
    (Nat.not_lt.1 (hdiffer.not_lt hvalue hother))

theorem KeysDiffer.get?_eq_some_iff (hdiffer : KeysDiffer entries) :
    Value.get? name entries = some value ↔ (.string name, value) ∈ entries := by
  refine ⟨Value.mem_of_get?_eq_some, fun hmem => ?_⟩
  obtain ⟨other, hget⟩ := Value.exists_get?_of_mem hmem
  obtain ⟨i, hvalue⟩ := List.mem_iff_getElem?.1 hmem
  obtain ⟨k, hother⟩ := List.mem_iff_getElem?.1 (Value.mem_of_get?_eq_some hget)
  obtain rfl := hdiffer.position_eq hvalue hother
  rw [hvalue] at hother
  cases hother
  exact hget

end

end Yaml

open Yaml

namespace Definition

/-! ## Fields by their places -/

/-- A field that an entry of a step holds: itself, or an entry of its `with` or `env`. -/
inductive EntryHolds : Value × Value → List Nat → String × String → Prop
  | own {key value : Value} {name text : String} (hname : key.Spells name)
      (htext : value.Spells text) : EntryHolds (key, value) [] (name, text)
  | nested {key inner value : Value} {entries : Entries} {group name text : String} {k : Nat}
      (hgroup : key.Spells group) (hnests : group = "with" ∨ group = "env")
      (hentry : entries[k]? = some (inner, value)) (hname : inner.Spells name)
      (htext : value.Spells text) :
      EntryHolds (key, .mapping entries) [k] (group ++ "." ++ name, text)

/-- The field of a step at a place: the position of an entry, and behind it the place of
the field in the entry. -/
def StepHolds (entries : Entries) (place : List Nat) (field : String × String) : Prop :=
  ∃ i rest entry, place = i :: rest ∧ entries[i]? = some entry ∧ EntryHolds entry rest field

theorem listedBy_own (key : String) (value : Value) :
    ListedBy Precedes
      (fun place (field : String × String) =>
        place = [] ∧ field.1 = key ∧ value.Spells field.2)
      (value.scalar?.map fun text => (key, text)).toList := by
  refine (listedBy_toList [] _).congr fun place field => and_congr_right fun _ => ?_
  obtain ⟨name, text⟩ := field
  simp [Value.spells_iff, and_comm, eq_comm]

theorem listedBy_nested (group : String) (entries : Entries) :
    ListedBy Precedes
      (fun place (field : String × String) => ∃ k inner value name,
        place = [k] ∧ entries[k]? = some (inner, value) ∧ Value.Spells inner name ∧
          field.1 = group ++ "." ++ name ∧ value.Spells field.2)
      (entries.filterMap fun (name, value) => do
        return (group ++ "." ++ (← name.scalar?), ← value.scalar?)) := by
  rw [List.filterMap_eq_flatMap_toList]
  refine (listedBy_flatMap_cons entries fun entry => listedBy_toList [] _).congr
    fun place field => ?_
  obtain ⟨field, text⟩ := field
  constructor
  · rintro ⟨k, _, ⟨inner, value⟩, rfl, hentry, rfl, hfield⟩
    obtain ⟨name, hname, hfield⟩ := Option.bind_eq_some_iff.1 hfield
    obtain ⟨_, htext, hfield⟩ := Option.bind_eq_some_iff.1 hfield
    cases hfield
    exact ⟨k, inner, value, name, rfl, hentry, Value.spells_iff.2 hname, rfl,
      Value.spells_iff.2 htext⟩
  · rintro ⟨k, inner, value, name, rfl, hentry, hname, rfl, htext⟩
    refine ⟨k, [], (inner, value), rfl, hentry, rfl, ?_⟩
    rw [Value.spells_iff] at hname htext
    simp only [hname, htext]
    rfl

theorem listedBy_fieldsOf {key : Value} {group : String} (hgroup : key.Spells group)
    (value : Value) : ListedBy Precedes (EntryHolds (key, value)) (fieldsOf group value) := by
  have honly : ∀ {name}, key.Spells name → name = group := fun hname =>
    Option.some.inj ((Value.spells_iff.1 hname).symm.trans (Value.spells_iff.1 hgroup))
  unfold fieldsOf
  split
  · next nested hnests =>
      have hnests : group = "with" ∨ group = "env" := by simpa using hnests
      refine (listedBy_nested group nested).congr fun place field => ?_
      obtain ⟨field, text⟩ := field
      constructor
      · rintro ⟨k, inner, value, name, rfl, hentry, hname, rfl, htext⟩
        exact .nested hgroup hnests hentry hname htext
      · rintro (⟨-, htext⟩ | ⟨hother, -, hentry, hname, htext⟩)
        · cases htext
        · exact ⟨_, _, _, _, rfl, hentry, hname, congrArg (· ++ "." ++ _) (honly hother), htext⟩
  · next hflat =>
      refine (listedBy_own group _).congr fun place field => ?_
      obtain ⟨name, text⟩ := field
      constructor
      · rintro ⟨rfl, rfl, htext⟩
        exact .own hgroup htext
      · rintro (⟨hname, htext⟩ | ⟨hother, hnests, -, -, -⟩)
        · exact ⟨rfl, honly hname, htext⟩
        · exact (hflat _ (by simpa [honly hother] using hnests) rfl).elim

/-- A step lists its fields in the order of their places, and all of them. -/
theorem listedBy_scalarFields (entries : Entries) :
    ListedBy Precedes (StepHolds entries) (scalarFields entries) := by
  refine listedBy_flatMap_cons entries fun entry => ?_
  obtain ⟨key, value⟩ := entry
  dsimp only
  cases hkey : key.scalar? with
  | some group => exact listedBy_fieldsOf (Value.spells_iff.2 hkey) value
  | none =>
      have hnone : ∀ name, ¬key.Spells name := fun name hname => by
        rw [Value.spells_iff, hkey] at hname
        cases hname
      refine (listedBy_toList [] none).congr fun place field =>
        iff_of_false (fun hfield => nomatch hfield.2) ?_
      rintro (⟨hname, -⟩ | ⟨hgroup, -, -, -, -⟩)
      · exact hnone _ hname
      · exact hnone _ hgroup

/-! ## The field of a script -/

theorem StepHolds.of_run {entries : Entries} {place : List Nat} {text : String}
    (hholds : StepHolds entries place ("run", text)) :
    ∃ i value, place = [i] ∧ entries[i]? = some (.string "run", value) ∧ value.Spells text := by
  obtain ⟨i, rest, ⟨key, value⟩, rfl, hentry, hholds⟩ := hholds
  generalize hfield : ("run", text) = field at hholds
  cases hholds with
  | own hname htext =>
      cases hfield
      rw [Value.spells_run_iff.1 hname] at hentry
      exact ⟨i, value, rfl, hentry, htext⟩
  | nested hgroup hnests hentry' hname htext =>
      have hdot := congrArg (fun field => '.' ∈ field.1.toList) hfield
      simp at hdot

theorem given?_eq_some_iff {key : String} {entries : Entries} {value : Value} :
    given? key entries = some value ↔ Value.get? key entries = some value ∧ value ≠ .null := by
  unfold given?
  cases hget : Value.get? key entries with
  | none => simp
  | some other =>
      cases other with
      | null => simp [eq_comm]
      | _ =>
          simp only [Option.some.injEq, iff_self_and]
          rintro rfl
          simp

/-- Of a step whose keys differ, the script that was read is the field `run`, and there is
no other one of that name. -/
theorem exists_place_of_run {entries : Entries} {script : Option String}
    (hdiffer : KeysDiffer entries) (hrun : textField "run" entries = .ok script) :
    ∃ place, ∀ here text,
      StepHolds entries here ("run", text) ↔ here = place ∧ script = some text := by
  rw [textField_eq_ok_iff] at hrun
  have hfield : ∀ {value text}, value.Spells text → (.string "run", value) ∈ entries →
      script = some text ∧ value = .string text := by
    intro value text htext hmem
    have hgiven : given? "run" entries = some value := by
      refine given?_eq_some_iff.2 ⟨hdiffer.get?_eq_some_iff.2 hmem, ?_⟩
      rintro rfl
      cases htext
    rw [hrun] at hgiven
    obtain ⟨_, rfl, rfl⟩ := Option.map_eq_some_iff.1 hgiven
    cases htext
    exact ⟨rfl, rfl⟩
  cases script with
  | none =>
      refine ⟨[], fun here text => iff_of_false (fun hholds => ?_) (by simp)⟩
      obtain ⟨i, value, rfl, hentry, htext⟩ := hholds.of_run
      cases (hfield htext (List.mem_of_getElem? hentry)).1
  | some script =>
      have hmem := Value.mem_of_get?_eq_some (given?_eq_some_iff.1 hrun).1
      obtain ⟨i, hentry⟩ := List.mem_iff_getElem?.1 hmem
      refine ⟨[i], fun here text => ⟨fun hholds => ?_, ?_⟩⟩
      · obtain ⟨k, value, rfl, hother, htext⟩ := hholds.of_run
        exact ⟨by rw [hdiffer.position_eq hentry hother],
          (hfield htext (List.mem_of_getElem? hother)).1⟩
      · rintro ⟨rfl, hscript⟩
        cases hscript
        exact ⟨i, [], _, rfl, hentry, .own (.string "run") (.string script)⟩

/-! ## Steps that were read -/

theorem readStep_mapping_eq_ok {job : String} {index : Nat} {entries : Entries} {step : Step}
    (hread : readStep job index (.mapping entries) = .ok step) :
    step.index = index ∧ step.fields = scalarFields entries ∧
      textField "run" entries = .ok step.run := by
  obtain ⟨uses, -, hread⟩ := bind_eq_ok_iff.1 hread
  obtain ⟨run, hrun, hread⟩ := bind_eq_ok_iff.1 hread
  cases hread
  exact ⟨rfl, rfl, hrun⟩

theorem getElem?_of_readStepsFrom {job : String} {index i : Nat} {values : List Value}
    {steps : List Step} {value : Value} (hread : readStepsFrom job index values = .ok steps)
    (hvalue : values[i]? = some value) :
    ∃ step, steps[i]? = some step ∧ readStep job (index + i) value = .ok step := by
  induction values generalizing index i steps with
  | nil => cases hvalue
  | cons first rest ih =>
      obtain ⟨step, hstep, hread⟩ := bind_eq_ok_iff.1 hread
      obtain ⟨others, hothers, hread⟩ := bind_eq_ok_iff.1 hread
      cases hread
      cases i with
      | zero =>
          cases hvalue
          exact ⟨step, rfl, hstep⟩
      | succ i =>
          obtain ⟨other, hother, hread⟩ := ih hothers hvalue
          exact ⟨other, hother, by rwa [Nat.add_right_comm] at hread⟩

end Definition

end WorkflowAudit
