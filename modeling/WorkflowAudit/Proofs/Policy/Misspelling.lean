import WorkflowAudit.Fault
import WorkflowAudit.Proofs.Exceptions
import WorkflowAudit.Proofs.Policy.Reading

/-!
# Misspelt keys

A key that no field is declared for is never passed over in silence, at whatever level of a
document it stands: the document is refused.  Two kinds of keys are the exception.  A check
without fields of its own reads none of its other entries, and where keys are read as values,
the number of a field stands for its name.
-/

namespace WorkflowAudit

open Yaml

namespace Yaml.Node

/-- A record whose keys are read as texts gives a value under a name. -/
def Gives (node : Node) (name : String) (value : Node) : Prop :=
  ∃ key, (key, value) ∈ node.entries ∧ key.text = .ok name

/-- A record whose keys are read as values gives a value to one of the fields `names`. -/
def GivesField (names : List String) (node : Node) (name : String) (value : Node) : Prop :=
  ∃ key, (key, value) ∈ node.entries ∧ NamesField names key name

/-- A check that is written as a mapping tells its category. -/
def HasCategory (check : Node) (category : Category) : Prop :=
  ∃ key value, (key, value) ∈ check.entries ∧
    Value.ofPlainNode key = .ok (.string "category") ∧ value.text = .ok category.name

variable {node written : Node} {names : List String} {name : String}

theorem Gives.lookup {fields : Fields Node} (hgives : node.Gives name written)
    (hfields : node.fields names = .ok fields) : fields.lookup name = some written := by
  obtain ⟨key, hentry, hkey⟩ := hgives
  obtain ⟨found, -, hfound, hlookup⟩ := exists_lookup_of_mem_entries hfields hentry
  obtain rfl : name = found := Except.ok.inj (hkey.symm.trans hfound)
  exact hlookup

theorem GivesField.mem (hgives : node.GivesField names name written) : name ∈ names := by
  obtain ⟨key, -, hkey⟩ := hgives
  exact hkey.mem

theorem GivesField.exists_lookup {value : Value} {fields : Fields Value}
    (hgives : node.GivesField names name written) (hvalue : Value.ofPlainNode node = .ok value)
    (hfields : value.fields names = .ok fields) :
    ∃ plain, Value.ofPlainNode written = .ok plain ∧ fields.lookup name = some plain := by
  obtain ⟨key, hentry, hkey⟩ := hgives
  obtain ⟨found, plain, hfound, hplain, hlookup⟩ :=
    Yaml.exists_lookup_of_mem_entries hvalue hfields hentry
  obtain rfl := hfound.unique hkey
  exact ⟨plain, hplain, hlookup⟩

end Yaml.Node

/-! ## Policies -/

/-- The records that policies nest. -/
inductive PolicyLevel where
  | policy
  | rule
  | check
  | pattern
  | allow
  deriving DecidableEq, Repr

namespace PolicyLevel

/-- The nodes that stand at each level of a document. -/
inductive Holds (document : Node) : PolicyLevel → Node → Prop where
  | policy : Holds document .policy document
  | rule {rules rule : Node} (hrules : document.Gives "rules" rules)
      (hrule : rule ∈ rules.members) : Holds document .rule rule
  | check {rule check : Node} (hrule : Holds document .rule rule)
      (hcheck : rule.Gives "check" check) : Holds document .check check
  | pattern {check patterns pattern : Node} {category : Category}
      (hcheck : Holds document .check check) (hcategory : check.HasCategory category)
      (hpatterns : check.GivesField (Check.fieldNames category) "patterns" patterns)
      (hpattern : pattern ∈ patterns.members) : Holds document .pattern pattern
  | allow {pattern allows allow : Node} (hpattern : Holds document .pattern pattern)
      (hallows : pattern.GivesField PatternSpec.fieldNames "allow" allows)
      (hallow : allow ∈ allows.members) : Holds document .allow allow

/-- Whether a mapping at a level can have a key.  The fields of a check are those that its
category declares; without any, the other entries of the check are not looked at. -/
def Accepts (node key : Node) : PolicyLevel → Prop
  | .policy => ∃ name ∈ Policy.fieldNames, key.text = .ok name
  | .rule => ∃ name ∈ Rule.fieldNames, key.text = .ok name
  | .check => Value.ofPlainNode key = .ok (.string "category") ∨
      ∃ category, node.HasCategory category ∧
        (category = .dockerPinning ∨ ∃ name, NamesField (Check.fieldNames category) key name)
  | .pattern => ∃ name, NamesField PatternSpec.fieldNames key name
  | .allow => ∃ name, NamesField AllowedMatch.fieldNames key name

/-- Whether the reader of a level reads a node. -/
def Reads (node : Node) : PolicyLevel → Prop
  | .policy => ∃ rules, Policy.rulesOfNode node = .ok rules
  | .rule => ∃ rule, Rule.ofNode node = .ok rule
  | .check => ∃ check, Check.ofNode node = .ok check
  | .pattern => ∃ value spec, Value.ofPlainNode node = .ok value ∧
      PatternSpec.ofValue value = .ok spec
  | .allow => ∃ value allow, Value.ofPlainNode node = .ok value ∧
      AllowedMatch.ofValue value = .ok allow

end PolicyLevel

namespace Check

variable {node key value : Node}

/-- The entries of a check that is read: its category, and what the category asks for. -/
theorem exists_splits_of_mem_entries {check : Check} (hread : ofNode node = .ok check)
    (hentry : (key, value) ∈ node.entries) :
    ∃ category others, Splits node.entries category others ∧
      (category ≠ .dockerPinning → ∃ fields,
        Value.entryFields (fieldNames category) others = .ok fields ∧
          ofFields category fields = .ok check) := by
  cases node with
  | scalar => cases hentry
  | sequence => cases hentry
  | mapping tag entries =>
      obtain ⟨-, category, others, hsplits, hfields⟩ := ofNode_mapping_eq_ok_iff.1 hread
      refine ⟨category, others, hsplits, fun hne => ?_⟩
      rwa [if_neg hne] at hfields

variable {entries : List (Node × Node)} {category : Category} {others : List (Value × Value)}

theorem Splits.hasCategory (hsplits : Splits node.entries category others) :
    node.HasCategory category := by
  generalize hentries : node.entries = entries at hsplits
  obtain ⟨before, hkey, hcategory, -, -⟩ := hsplits
  refine ⟨_, _, ?_, hkey, hcategory⟩
  rw [hentries]
  exact List.mem_append_right _ List.mem_cons_self

theorem ne_category_of_namesField {name : String}
    (hname : NamesField (fieldNames category) key name) :
    Value.ofPlainNode key ≠ .ok (.string "category") := by
  intro hkey
  cases hname with
  | text hkey' hmem =>
      obtain rfl : name = "category" := by simpa using hkey'.symm.trans hkey
      exact category_not_mem_fieldNames category hmem
  | number hkey' => simpa using hkey'.symm.trans hkey

/-- Every other entry is among the fields of a check. -/
theorem Splits.exists_lookup (hsplits : Splits entries category others) {fields : Fields Value}
    (hfields : Value.entryFields (fieldNames category) others = .ok fields)
    (hentry : (key, value) ∈ entries) (hkey : Value.ofPlainNode key ≠ .ok (.string "category")) :
    ∃ name plain, NamesField (fieldNames category) key name ∧
      Value.ofPlainNode value = .ok plain ∧ fields.lookup name = some plain := by
  obtain ⟨before, hcategory, -, hothers, -⟩ := hsplits
  refine exists_lookup_of_mem_plainEntries hothers hfields ?_
  rcases List.mem_append.1 hentry with hbefore | hafter
  · exact List.mem_append_left _ hbefore
  · rcases List.mem_cons.1 hafter with heq | hafter
    · cases heq
      exact absurd hcategory hkey
    · exact List.mem_append_right _ hafter

theorem Splits.category_unique (hsplits : Splits node.entries category others) {found : Category}
    (hfound : node.HasCategory found) : found = category := by
  obtain ⟨key, value, hentry, hkey, hvalue⟩ := hfound
  generalize node.entries = entries at hsplits hentry
  obtain ⟨before, hcategory, hname, hothers, hnames⟩ := hsplits
  have hnew : (key, value) ∉ before ++ _ := fun hmem => by
    obtain ⟨other, hother, hread, -⟩ := exists_of_mem_of_forall₂ (plainEntries_iff.1 hothers) hmem
    exact hnames other hother (Except.ok.inj (hread.symm.trans hkey))
  rw [List.mem_append, not_or] at hnew
  rcases List.mem_append.1 hentry with hbefore | hafter
  · exact absurd hbefore hnew.1
  · rcases List.mem_cons.1 hafter with heq | hafter
    · cases heq
      exact Category.eq_of_name_eq (Except.ok.inj (hvalue.symm.trans hname))
    · exact absurd hafter hnew.2

/-- A check that is read has found the value of each field that is given to it. -/
theorem exists_lookup_of_givesField {check : Check} {name : String}
    (hread : ofNode node = .ok check) (hcategory : node.HasCategory category)
    (hgives : node.GivesField (fieldNames category) name value) :
    ∃ fields plain, ofFields category fields = .ok check ∧ Value.ofPlainNode value = .ok plain ∧
      fields.lookup name = some plain := by
  obtain ⟨key, hentry, hkey⟩ := hgives
  obtain ⟨found, others, hsplits, hfields⟩ := exists_splits_of_mem_entries hread hentry
  obtain rfl := hsplits.category_unique hcategory
  have hdocker : category ≠ .dockerPinning := by
    rintro rfl
    exact absurd hkey.mem List.not_mem_nil
  obtain ⟨fields, hfields, hread⟩ := hfields hdocker
  obtain ⟨found, plain, hfound, hplain, hlookup⟩ :=
    hsplits.exists_lookup hfields hentry (ne_category_of_namesField hkey)
  obtain rfl := hfound.unique hkey
  exact ⟨fields, plain, hread, hplain, hlookup⟩

end Check

namespace PolicyLevel

variable {document node key value : Node} {level : PolicyLevel}

/-- What is read holds at each of its levels only what is read there. -/
theorem Holds.reads (hholds : Holds document level node) (hread : Reads document .policy) :
    Reads node level := by
  induction hholds with
  | policy => exact hread
  | rule hrules hrule =>
      obtain ⟨rules, hread⟩ := hread
      obtain ⟨fields, hfields, hread⟩ := bind_eq_ok_iff.1 hread
      have hitems := Fields.eq_ok_of_getOr hread (hrules.lookup hfields)
      exact Node.exists_of_mem_members hitems hrule
  | check _ hcheck ih =>
      obtain ⟨rule, hread⟩ := ih
      obtain ⟨fields, hfields, -, -, -, hread⟩ := Rule.ofNode_eq_ok_iff.1 hread
      exact ⟨rule.check, Fields.eq_ok_of_require hread (hcheck.lookup hfields)⟩
  | pattern _ hcategory hpatterns hpattern ih =>
      obtain ⟨check, hread⟩ := ih
      obtain ⟨fields, patterns, hread, hvalue, hlookup⟩ :=
        Check.exists_lookup_of_givesField hread hcategory hpatterns
      obtain ⟨specs, hspecs⟩ := Check.exists_patterns hread hpatterns.mem hlookup
      exact exists_of_mem_members hvalue hspecs hpattern
  | allow _ hallows hallow ih =>
      obtain ⟨value, spec, hvalue, hread⟩ := ih
      obtain ⟨fields, hfields, -, -, -, hread⟩ := PatternSpec.ofValue_eq_ok_iff.1 hread
      obtain ⟨allows, hvalue, hlookup⟩ := hallows.exists_lookup hvalue hfields
      exact exists_of_mem_members hvalue (Fields.eq_ok_of_getOr hread hlookup) hallow

/-- A mapping that is read has no key that its level does not accept. -/
theorem Reads.accepts (hread : Reads node level) (hentry : (key, value) ∈ node.entries) :
    Accepts node key level := by
  cases level with
  | policy =>
      obtain ⟨rules, hread⟩ := hread
      obtain ⟨fields, hfields, -⟩ := bind_eq_ok_iff.1 hread
      obtain ⟨name, hmem, hname, -⟩ := Node.exists_lookup_of_mem_entries hfields hentry
      exact ⟨name, hmem, hname⟩
  | rule =>
      obtain ⟨rule, hread⟩ := hread
      obtain ⟨fields, hfields, -⟩ := Rule.ofNode_eq_ok_iff.1 hread
      obtain ⟨name, hmem, hname, -⟩ := Node.exists_lookup_of_mem_entries hfields hentry
      exact ⟨name, hmem, hname⟩
  | check =>
      obtain ⟨check, hread⟩ := hread
      obtain ⟨category, others, hsplits, hfields⟩ := Check.exists_splits_of_mem_entries hread hentry
      by_cases hkey : Value.ofPlainNode key = .ok (.string "category")
      · exact .inl hkey
      refine .inr ⟨category, hsplits.hasCategory, ?_⟩
      by_cases hdocker : category = .dockerPinning
      · exact .inl hdocker
      obtain ⟨fields, hfields, -⟩ := hfields hdocker
      obtain ⟨name, -, hname, -⟩ := hsplits.exists_lookup hfields hentry hkey
      exact .inr ⟨name, hname⟩
  | pattern =>
      obtain ⟨value, spec, hvalue, hread⟩ := hread
      obtain ⟨fields, hfields, -⟩ := PatternSpec.ofValue_eq_ok_iff.1 hread
      obtain ⟨name, -, hname, -⟩ := exists_lookup_of_mem_entries hvalue hfields hentry
      exact ⟨name, hname⟩
  | allow =>
      obtain ⟨value, allow, hvalue, hread⟩ := hread
      obtain ⟨fields, hfields, -⟩ := AllowedMatch.ofValue_eq_ok_iff.1 hread
      obtain ⟨name, -, hname, -⟩ := exists_lookup_of_mem_entries hvalue hfields hentry
      exact ⟨name, hname⟩

end PolicyLevel

/-- A policy document has a key that its level does not accept. -/
def Policy.Misspelt (document : Node) : Prop :=
  ∃ level node key value, PolicyLevel.Holds document level node ∧ (key, value) ∈ node.entries ∧
    ¬ PolicyLevel.Accepts node key level

theorem Policy.exists_error_of_misspelt {document : Node} (hmisspelt : Misspelt document) :
    ∃ problem, rulesOfNode document = .error problem := by
  obtain ⟨level, node, key, value, hholds, hentry, hkey⟩ := hmisspelt
  cases hread : rulesOfNode document with
  | error problem => exact ⟨problem, rfl⟩
  | ok rules => exact absurd ((hholds.reads ⟨rules, hread⟩).accepts hentry) hkey

/-! ## Exceptions -/

/-- An exceptions document has a key that its level does not accept. -/
inductive ExceptionSet.Misspelt (document : Node) : Prop where
  | set {key value : Node} (hentry : (key, value) ∈ document.entries)
      (hkey : ∀ name ∈ fieldNames, key.text ≠ .ok name)
  | exemption {exceptions e key value : Node} (hexceptions : document.Gives "exceptions" exceptions)
      (he : e ∈ exceptions.members) (hentry : (key, value) ∈ e.entries)
      (hkey : ∀ name ∈ Exemption.fieldNames, key.text ≠ .ok name)

theorem ExceptionSet.exists_error_of_misspelt {document : Node} (hmisspelt : Misspelt document) :
    ∃ problem, ofNode document = .error problem := by
  cases hread : ofNode document with
  | error problem => exact ⟨problem, rfl⟩
  | ok set =>
      exfalso
      obtain ⟨fields, hfields, hread⟩ := bind_eq_ok_iff.1 hread
      obtain ⟨exceptions, hread, -⟩ := bind_eq_ok_iff.1 hread
      cases hmisspelt with
      | set hentry hkey =>
          obtain ⟨name, hmem, hname, -⟩ := Node.exists_lookup_of_mem_entries hfields hentry
          exact hkey name hmem hname
      | exemption hexceptions he hentry hkey =>
          have hitems := Fields.eq_ok_of_getOr hread (hexceptions.lookup hfields)
          obtain ⟨e, hread⟩ := Node.exists_of_mem_members hitems he
          obtain ⟨fields, hfields, -⟩ := Exemption.ofNode_eq_ok_iff.1 hread
          obtain ⟨name, hmem, hname, -⟩ := Node.exists_lookup_of_mem_entries hfields hentry
          exact hkey name hmem hname

/-- A document with a misspelt key is refused with an error of the configuration. -/
theorem misspelt_keys_are_refused {source : String} {document : Node}
    (hparse : Node.parse? source = .ok (some document)) (origin : String) :
    (Policy.Misspelt document → ∃ problem,
      Policy.parse source origin = .error (.configuration origin (.unreadable problem))) ∧
    (ExceptionSet.Misspelt document → ∃ problem,
      ExceptionSet.parse source origin = .error (.configuration origin (.unreadable problem))) := by
  constructor
  · intro hmisspelt
    obtain ⟨problem, hproblem⟩ := Policy.exists_error_of_misspelt hmisspelt
    refine ⟨problem, ?_⟩
    rw [Policy.parse, Policy.rulesOf_eq_rulesOfNode hparse, hproblem]
  · intro hmisspelt
    obtain ⟨problem, hproblem⟩ := ExceptionSet.exists_error_of_misspelt hmisspelt
    refine ⟨problem, ?_⟩
    rw [ExceptionSet.parse, ExceptionSet.ofText_eq_ofNode hparse, hproblem]

theorem misspelt_keys_are_refused_mode :
    ∃ document problem problem',
      Node.parse? "rules: [\x7bid: a, mod: advisory, check: \x7bcategory: docker_pinning\x7d\x7d]" =
        .ok (some document) ∧
      Policy.Misspelt document ∧
      Policy.parse
          "rules: [\x7bid: a, mod: advisory, check: \x7bcategory: docker_pinning\x7d\x7d]" "a.yml" =
        .error (.configuration "a.yml" (.unreadable problem)) ∧
      ExceptionSet.Misspelt document ∧
      ExceptionSet.parse
          "rules: [\x7bid: a, mod: advisory, check: \x7bcategory: docker_pinning\x7d\x7d]" "a.yml" =
        .error (.configuration "a.yml" (.unreadable problem')) := by
  let rule : Node := .mapping none
    [(.scalar none .plain "id", .scalar none .plain "a"),
      (.scalar none .plain "mod", .scalar none .plain "advisory"),
      (.scalar none .plain "check", .mapping none
        [(.scalar none .plain "category", .scalar none .plain "docker_pinning")])]
  let document : Node := .mapping none [(.scalar none .plain "rules", .sequence none [rule])]
  have hparse : Node.parse?
      "rules: [\x7bid: a, mod: advisory, check: \x7bcategory: docker_pinning\x7d\x7d]" =
      .ok (some document) := by decide +kernel
  have hpolicy : Policy.Misspelt document := by
    refine ⟨.rule, rule, .scalar none .plain "mod", .scalar none .plain "advisory",
      .rule ⟨_, List.mem_cons_self, rfl⟩ List.mem_cons_self, .tail _ List.mem_cons_self, ?_⟩
    rintro ⟨name, hmem, hname⟩
    cases hname
    exact absurd hmem (by decide)
  have hset : ExceptionSet.Misspelt document := by
    refine .set List.mem_cons_self fun name hmem hname => ?_
    cases hname
    exact absurd hmem (by decide)
  obtain ⟨hrefused, hrefused'⟩ := misspelt_keys_are_refused hparse "a.yml"
  obtain ⟨problem, hproblem⟩ := hrefused hpolicy
  obtain ⟨problem', hproblem'⟩ := hrefused' hset
  exact ⟨document, problem, problem', hparse, hpolicy, hproblem, hset, hproblem'⟩

/-- A misspelt key of a check without fields is not noticed, and neither is a number in place of
a field's name. -/
theorem undeclared_keys_are_accepted :
    Policy.parse "rules:\n  - \x7bid: a, check: \x7bcategory: docker_pinning, pin: true\x7d\x7d\n"
        "policy.yml" =
      .ok ⟨[⟨"a", .enforced, none, .dockerPinning⟩], "policy.yml"⟩ ∧
    Policy.parse "rules:\n  - \x7bid: a, check: \x7bcategory: sha_pinning, 0: false\x7d\x7d\n"
        "policy.yml" =
      .ok ⟨[⟨"a", .enforced, none, .shaPinning false⟩], "policy.yml"⟩ := by
  decide +kernel

end WorkflowAudit
