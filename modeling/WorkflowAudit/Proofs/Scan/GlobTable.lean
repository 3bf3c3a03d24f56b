import Mathlib.Data.List.Nodup
import WorkflowAudit.Scan.Preparation

/-!
# What a table of globs holds

All rules of a policy put their globs into one table, and a rule reads whatever stands under
its id and the name of its field.  Rules with other ids put nothing there.  So where no two
rules have one id, each of them reads the set of its own globs and no other.
-/

namespace WorkflowAudit

/-- The globs of a rule as a set; none where it has no globs, or where they make up no set. -/
def Rule.ownGlobs? (rule : Rule) : Option GlobSet := rule.check.globSet?.bind Except.toOption

namespace GlobTable

variable {table : GlobTable} {rule other : Rule} {rules : List Rule}

theorem get?_insert_self (table : GlobTable) (id field : String) (set : GlobSet) :
    (table.insert id field set).get? id field = some set :=
  List.lookup_cons_self

theorem get?_insert_of_ne {id id' : String} (hne : id' ≠ id) (table : GlobTable)
    (field field' : String) (set : GlobSet) :
    (table.insert id field set).get? id' field' = table.get? id' field' := by
  have hkey : ((id', field') == (id, field)) = false := by simp [hne]
  rw [insert, get?, List.lookup_cons, hkey]
  rfl

/-- A check reads the field that it keeps its globs in. -/
theorem globField?_of_globs? {check : Check} {field : String} {entries : List String}
    (hglobs : check.globs? = some (field, entries)) : check.globField? = some field := by
  unfold Check.globs? at hglobs
  split at hglobs
  · cases hglobs; rfl
  · cases hglobs; rfl
  · split at hglobs
    · cases hglobs
    · cases hglobs; rfl
  · cases hglobs

/-- What a rule adds depends on its id, its field and the set of its globs only. -/
theorem addRule_eq (table : GlobTable) (rule : Rule) :
    table.addRule rule =
      match rule.check.globField?, rule.ownGlobs? with
      | some field, some set => table.insert rule.id field set
      | _, _ => table := by
  unfold addRule Rule.ownGlobs? Check.globSet?
  cases hglobs : rule.check.globs? with
  | none => cases rule.check.globField? <;> rfl
  | some named =>
      rw [globField?_of_globs? hglobs]
      dsimp only [Option.map_some, Option.bind_some]
      cases GlobSet.build (readableGlobs named.2) <;> rfl

theorem exists_globField? {set : GlobSet} (hset : rule.ownGlobs? = some set) :
    ∃ field, rule.check.globField? = some field := by
  obtain ⟨built, hbuilt, -⟩ := Option.bind_eq_some_iff.1 hset
  obtain ⟨⟨field, entries⟩, hglobs, -⟩ := Option.map_eq_some_iff.1 hbuilt
  exact ⟨field, globField?_of_globs? hglobs⟩

/-- A set of globs goes to the place where its rule reads, and with it any rule that has the
same id and reads the same field. -/
theorem ofRule?_addRule_of_some {set : GlobSet} (hid : rule.id = other.id)
    (hfield : rule.check.globField? = other.check.globField?)
    (hset : other.ownGlobs? = some set) : (table.addRule other).ofRule? rule = some set := by
  obtain ⟨field, hother⟩ := exists_globField? hset
  rw [addRule_eq, hother, hset, ofRule?, hfield, hother, hid]
  exact get?_insert_self ..

/-- A rule without a set of globs leaves the table as it is. -/
theorem addRule_of_none (hnone : rule.ownGlobs? = none) : table.addRule rule = table := by
  rw [addRule_eq, hnone]
  cases rule.check.globField? <;> rfl

theorem ofRule?_addRule_of_ne (hne : rule.id ≠ other.id) :
    (table.addRule other).ofRule? rule = table.ofRule? rule := by
  unfold addRule
  split
  · refine Option.bind_congr fun field _ => ?_
    exact get?_insert_of_ne hne ..
  · rfl

/-- Rules with other ids put nothing where a rule reads. -/
theorem ofRule?_foldl_addRule (hid : rule.id ∉ rules.map Rule.id) :
    (rules.foldl addRule table).ofRule? rule = table.ofRule? rule := by
  induction rules generalizing table with
  | nil => rfl
  | cons first rules ih =>
      obtain ⟨hfirst, hrest⟩ := List.ne_and_not_mem_of_not_mem_cons hid
      rw [List.foldl_cons, ih hrest, ofRule?_addRule_of_ne hfirst]

/-- Where no two rules have one id, a rule reads its own globs. -/
theorem ofRule?_ofRules (hnodup : (rules.map Rule.id).Nodup) (hrule : rule ∈ rules) :
    (ofRules rules).ofRule? rule = rule.ownGlobs? := by
  obtain ⟨before, after, rfl⟩ := List.append_of_mem hrule
  rw [List.map_append, List.map_cons, List.nodup_middle, List.nodup_cons, List.mem_append,
    not_or] at hnodup
  obtain ⟨⟨hbefore, hafter⟩, -⟩ := hnodup
  rw [ofRules, List.foldl_append, List.foldl_cons, ofRule?_foldl_addRule hafter]
  cases hown : rule.ownGlobs? with
  | some set => exact ofRule?_addRule_of_some rfl rfl hown
  | none =>
      rw [addRule_of_none hown, ofRule?_foldl_addRule hbefore]
      exact Option.bind_fun_none _

/-- Rules that are changed in something else than their ids and globs make up the same table. -/
theorem ofRules_map (change : Rule → Rule) (hid : ∀ rule, (change rule).id = rule.id)
    (hfield : ∀ rule, (change rule).check.globField? = rule.check.globField?)
    (hset : ∀ rule, (change rule).ownGlobs? = rule.ownGlobs?) (rules : List Rule) :
    ofRules (rules.map change) = ofRules rules := by
  have hadd : ∀ (table : GlobTable) rule, table.addRule (change rule) = table.addRule rule :=
    fun table rule => by rw [addRule_eq, addRule_eq, hid, hfield, hset]
  rw [ofRules, List.foldl_map]
  simp only [hadd]
  rfl

end GlobTable

end WorkflowAudit
