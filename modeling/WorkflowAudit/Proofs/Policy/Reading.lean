import WorkflowAudit.Policy.Reading
import WorkflowAudit.Proofs.Yaml.Records

/-!
# The readers of a policy

A check is read from its category, wherever that stands among the entries, and from the
fields that the category declares.  Each reader is described by what it accepts, so that
what a policy document may hold follows level by level.
-/

namespace WorkflowAudit

open Yaml

/-! ## Names -/

theorem Category.ofName?_eq_some_iff {name : String} {category : Category} :
    Category.ofName? name = some category ↔ category.name = name := by
  constructor
  · intro hfound
    simpa using List.find?_some hfound
  · rintro rfl
    cases category <;> rfl

theorem Category.eq_of_name_eq {left right : Category} (hname : left.name = right.name) :
    left = right :=
  Option.some.inj ((ofName?_eq_some_iff.2 hname).symm.trans (ofName?_eq_some_iff.2 rfl))

theorem Enforcement.ofName?_eq_some_iff {name : String} {mode : Enforcement} :
    Enforcement.ofName? name = some mode ↔ mode.name = name := by
  constructor
  · intro hfound
    simpa using List.find?_some hfound
  · rintro rfl
    cases mode <;> rfl

theorem Check.readCategory_eq_ok_iff {node : Node} {category : Category} :
    Check.readCategory node = .ok category ↔ node.text = .ok category.name := by
  rw [Check.readCategory, bind_eq_ok_iff]
  constructor
  · rintro ⟨name, hname, hcategory⟩
    split at hcategory
    next found hfound =>
      obtain rfl : found = category := Except.ok.inj hcategory
      rw [hname, Category.ofName?_eq_some_iff.1 hfound]
    · cases hcategory
  · intro hname
    refine ⟨_, hname, ?_⟩
    rw [Category.ofName?_eq_some_iff.2 rfl]
    rfl

/-! ## Checks -/

namespace Check

/-- The entries of a check: one that tells the category, and the values of the others. -/
inductive Splits : List (Node × Node) → Category → List (Value × Value) → Prop where
  | intro (before : List (Node × Node)) {after : List (Node × Node)} {key value : Node}
      {category : Category} {others : List (Value × Value)}
      (hkey : Value.ofPlainNode key = .ok (.string "category"))
      (hcategory : value.text = .ok category.name)
      (hothers : plainEntries (before ++ after) = .ok others)
      (hnames : ∀ entry ∈ others, entry.1 ≠ .string "category") :
      Splits (before ++ (key, value) :: after) category others

variable {entries : List (Node × Node)} {others all : List (Value × Value)}
  {category result : Category}

theorem splitCategory_some_iff :
    splitCategory (some category) others entries = .ok (result, all) ↔
      result = category ∧ ∃ plain, plainEntries entries = .ok plain ∧
        (∀ entry ∈ plain, entry.1 ≠ .string "category") ∧ all = others ++ plain := by
  induction entries generalizing others with
  | nil => simp [splitCategory, plainEntries, eq_comm]
  | cons entry rest ih =>
      obtain ⟨key, value⟩ := entry
      rw [splitCategory, bind_eq_ok_iff]
      constructor
      · rintro ⟨name, hkey, hrest⟩
        split at hrest
        · cases hrest
        next hname =>
          obtain ⟨plain, hvalue, hrest⟩ := bind_eq_ok_iff.1 hrest
          obtain ⟨rfl, later, hlater, hnames, rfl⟩ := ih.1 hrest
          have hne : name ≠ .string "category" := fun h => hname h
          exact ⟨rfl, (name, plain) :: later,
            plainEntries_cons_iff.2 ⟨name, plain, later, hkey, hvalue, hlater, rfl⟩,
            List.forall_mem_cons.2 ⟨hne, hnames⟩, by simp⟩
      · rintro ⟨rfl, _, hplain, hnames, rfl⟩
        obtain ⟨name, plain, later, hkey, hvalue, hlater, rfl⟩ := plainEntries_cons_iff.1 hplain
        obtain ⟨hne, hnames⟩ := List.forall_mem_cons.1 hnames
        refine ⟨name, hkey, ?_⟩
        split
        · exact absurd rfl hne
        · exact bind_eq_ok_iff.2 ⟨plain, hvalue, ih.2 ⟨rfl, later, hlater, hnames, by simp⟩⟩

theorem not_splits_nil : ¬ Splits [] category others := by
  intro hsplits
  generalize hnil : ([] : List (Node × Node)) = entries at hsplits
  cases hsplits
  simp at hnil

/-- The category is told by the first entry, or the entries behind it tell the category. -/
theorem splits_cons_iff {key value : Node} {rest : List (Node × Node)} :
    Splits ((key, value) :: rest) category others ↔
      (Value.ofPlainNode key = .ok (.string "category") ∧ value.text = .ok category.name ∧
        plainEntries rest = .ok others ∧ ∀ entry ∈ others, entry.1 ≠ .string "category") ∨
      ∃ name plain later, Value.ofPlainNode key = .ok name ∧ name ≠ .string "category" ∧
        Value.ofPlainNode value = .ok plain ∧ Splits rest category later ∧
        others = (name, plain) :: later := by
  constructor
  · intro hsplits
    generalize hentries : (key, value) :: rest = entries at hsplits
    obtain @⟨before, after, _, _, _, _, hkey, hcategory, hothers, hnames⟩ := hsplits
    cases before with
    | nil =>
        cases hentries
        exact .inl ⟨hkey, hcategory, hothers, hnames⟩
    | cons first before =>
        cases hentries
        obtain ⟨name, plain, later, hname, hplain, hlater, rfl⟩ := plainEntries_cons_iff.1 hothers
        obtain ⟨hne, hnames⟩ := List.forall_mem_cons.1 hnames
        exact .inr ⟨name, plain, later, hname, hne, hplain,
          .intro before hkey hcategory hlater hnames, rfl⟩
  · rintro (⟨hkey, hcategory, hothers, hnames⟩ |
      ⟨name, plain, later, hname, hne, hplain, ⟨before, hkey, hcategory, hlater, hnames⟩, rfl⟩)
    · exact .intro [] hkey hcategory hothers hnames
    · refine .intro ((key, value) :: before) hkey hcategory ?_
        (List.forall_mem_cons.2 ⟨hne, hnames⟩)
      exact plainEntries_cons_iff.2 ⟨name, plain, later, hname, hplain, hlater, rfl⟩

theorem splitCategory_none_iff :
    splitCategory none others entries = .ok (category, all) ↔
      ∃ plain, Splits entries category plain ∧ all = others ++ plain := by
  induction entries generalizing others with
  | nil => simp [splitCategory, not_splits_nil]
  | cons entry rest ih =>
      obtain ⟨key, value⟩ := entry
      rw [splitCategory, bind_eq_ok_iff]
      constructor
      · rintro ⟨name, hkey, hrest⟩
        split at hrest
        · obtain ⟨category, hcategory, hrest⟩ := bind_eq_ok_iff.1 hrest
          obtain ⟨rfl, plain, hplain, hnames, rfl⟩ := splitCategory_some_iff.1 hrest
          have hcategory := readCategory_eq_ok_iff.1 hcategory
          exact ⟨plain, splits_cons_iff.2 (.inl ⟨hkey, hcategory, hplain, hnames⟩), rfl⟩
        next hname =>
          obtain ⟨plain, hvalue, hrest⟩ := bind_eq_ok_iff.1 hrest
          obtain ⟨later, hlater, rfl⟩ := ih.1 hrest
          have hne : name ≠ .string "category" := fun h => hname h
          exact ⟨(name, plain) :: later,
            splits_cons_iff.2 (.inr ⟨name, plain, later, hkey, hne, hvalue, hlater, rfl⟩), by simp⟩
      · rintro ⟨plain, hsplits, rfl⟩
        rcases splits_cons_iff.1 hsplits with ⟨hkey, hcategory, hothers, hnames⟩ |
          ⟨name, value, later, hname, hne, hvalue, hlater, rfl⟩
        · exact ⟨_, hkey, bind_eq_ok_iff.2 ⟨category, readCategory_eq_ok_iff.2 hcategory,
            splitCategory_some_iff.2 ⟨rfl, plain, hothers, hnames, rfl⟩⟩⟩
        · refine ⟨name, hname, ?_⟩
          split
          · exact absurd rfl hne
          · exact bind_eq_ok_iff.2 ⟨value, hvalue, ih.2 ⟨later, hlater, by simp⟩⟩

theorem ofNode_mapping_eq_ok_iff {tag : Option Tag} {check : Check} :
    ofNode (.mapping tag entries) = .ok check ↔
      localTag? tag = none ∧ ∃ category others, Splits entries category others ∧
        if category = .dockerPinning then check = .dockerPinning
        else ∃ fields, Value.entryFields (fieldNames category) others = .ok fields ∧
          ofFields category fields = .ok check := by
  rw [ofNode]
  cases localTag? tag with
  | some name => simp [throw_eq_error, bind_eq_ok_iff]
  | none =>
      simp only [Option.isSome_none, Bool.false_eq_true, if_false, bind_eq_ok_iff,
        Prod.exists, splitCategory_none_iff, List.nil_append, exists_eq_right', true_and]
      refine exists_congr fun category => exists_congr fun others => and_congr_right fun _ => ?_
      split
      · simp [pure_eq_ok, eq_comm]
      · exact bind_eq_ok_iff

theorem nodup_fieldNames (category : Category) : (fieldNames category).Nodup := by
  cases category <;> decide

/-- No check has a field of the name that its category is written under. -/
theorem category_not_mem_fieldNames (category : Category) : "category" ∉ fieldNames category := by
  cases category <;> decide

theorem exists_patterns {fields : Fields Value} {check : Check} {patterns : Value}
    (hcheck : ofFields category fields = .ok check) (hnames : "patterns" ∈ fieldNames category)
    (hlookup : fields.lookup "patterns" = some patterns) :
    ∃ specs, Value.listOf PatternSpec.ofValue patterns = .ok specs := by
  cases category
  case unsafePattern =>
    simp only [ofFields, bind_eq_ok_iff] at hcheck
    obtain ⟨specs, hspecs, -⟩ := hcheck
    exact ⟨specs, Fields.eq_ok_of_require hspecs hlookup⟩
  case inlineScript =>
    simp only [ofFields, bind_eq_ok_iff] at hcheck
    obtain ⟨_, -, specs, hspecs, -⟩ := hcheck
    exact ⟨specs, Fields.eq_ok_of_getOr hspecs hlookup⟩
  all_goals simp [fieldNames] at hnames

end Check

/-! ## Records -/

namespace Policy

def fieldNames : List String := ["rules"]

/-- The rules of a document with content. -/
def rulesOfNode (document : Node) : Except Problem (List Rule) := do
  let fields ← document.fields fieldNames
  fields.getOr "rules" [] fun rules => do (← rules.items).mapM Rule.ofNode

theorem rulesOf_eq_rulesOfNode {source : String} {document : Node}
    (hparse : Node.parse? source = .ok (some document)) :
    rulesOf source = rulesOfNode document := by
  rw [rulesOf, hparse]
  rfl

end Policy

def Rule.fieldNames : List String := ["id", "mode", "description", "check"]

theorem Rule.ofNode_eq_ok_iff {node : Node} {rule : Rule} :
    Rule.ofNode node = .ok rule ↔ ∃ fields, node.fields Rule.fieldNames = .ok fields ∧
      fields.require "id" Node.text = .ok rule.id ∧
      fields.getOr "mode" .enforced (Node.named Enforcement.ofName?) = .ok rule.mode ∧
      fields.getOr "description" none (Node.optional Node.text) = .ok rule.description ∧
      fields.require "check" Check.ofNode = .ok rule.check := by
  obtain ⟨id, mode, description, check⟩ := rule
  simp only [Rule.ofNode, Rule.fieldNames, bind_eq_ok_iff, pure_eq_ok, Except.ok.injEq,
    Rule.mk.injEq]
  constructor
  · rintro ⟨fields, hfields, _, hid, _, hmode, _, hdescription, _, hcheck, rfl, rfl, rfl, rfl⟩
    exact ⟨fields, hfields, hid, hmode, hdescription, hcheck⟩
  · rintro ⟨fields, hfields, hid, hmode, hdescription, hcheck⟩
    exact ⟨fields, hfields, _, hid, _, hmode, _, hdescription, _, hcheck, rfl, rfl, rfl, rfl⟩

def PatternSpec.fieldNames : List String := ["id", "pattern", "message", "allow"]

theorem PatternSpec.ofValue_eq_ok_iff {value : Value} {spec : PatternSpec} :
    PatternSpec.ofValue value = .ok spec ↔ ∃ fields,
      value.fields PatternSpec.fieldNames = .ok fields ∧
      fields.require "id" Value.text = .ok spec.id ∧
      fields.require "pattern" Value.text = .ok spec.pattern ∧
      fields.getOr "message" none (Value.optional Value.text) = .ok spec.message ∧
      fields.getOr "allow" [] (Value.listOf AllowedMatch.ofValue) = .ok spec.allow := by
  obtain ⟨id, pattern, message, allow⟩ := spec
  simp only [PatternSpec.ofValue, PatternSpec.fieldNames, bind_eq_ok_iff, pure_eq_ok,
    Except.ok.injEq, PatternSpec.mk.injEq]
  constructor
  · rintro ⟨fields, hfields, _, hid, _, hpattern, _, hmessage, _, hallow, rfl, rfl, rfl, rfl⟩
    exact ⟨fields, hfields, hid, hpattern, hmessage, hallow⟩
  · rintro ⟨fields, hfields, hid, hpattern, hmessage, hallow⟩
    exact ⟨fields, hfields, _, hid, _, hpattern, _, hmessage, _, hallow, rfl, rfl, rfl, rfl⟩

def AllowedMatch.fieldNames : List String := ["pattern", "rationale"]

theorem AllowedMatch.ofValue_eq_ok_iff {value : Value} {allow : AllowedMatch} :
    AllowedMatch.ofValue value = .ok allow ↔ ∃ fields,
      value.fields AllowedMatch.fieldNames = .ok fields ∧
      fields.require "pattern" Value.text = .ok allow.pattern ∧
      fields.require "rationale" Value.text = .ok allow.rationale := by
  obtain ⟨pattern, rationale⟩ := allow
  simp only [AllowedMatch.ofValue, AllowedMatch.fieldNames, bind_eq_ok_iff, pure_eq_ok,
    Except.ok.injEq, AllowedMatch.mk.injEq]
  constructor
  · rintro ⟨fields, hfields, _, hpattern, _, hrationale, rfl, rfl⟩
    exact ⟨fields, hfields, hpattern, hrationale⟩
  · rintro ⟨fields, hfields, hpattern, hrationale⟩
    exact ⟨fields, hfields, _, hpattern, _, hrationale, rfl, rfl⟩

end WorkflowAudit
