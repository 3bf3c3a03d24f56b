import WorkflowAudit.Proofs.Outcome
import WorkflowAudit.Proofs.Table
import WorkflowAudit.Yaml.Record

/-!
# The fields of a record

A record is read from the entries of a mapping one after the other.  It is read if every
key names a field that is declared and no two keys name the same one, and then each field
is found under its name, whatever the order of the entries.
-/

namespace WorkflowAudit.Yaml

/-- The fields that are read from the entries of a mapping, given what a key names. -/
structure IsRecord {κ α : Type} (names : List String) (nameOf : κ → Except Problem String)
    (entries : List (κ × α)) (fields : Fields α) : Prop where
  entries : List.Forall₂ (fun entry field => nameOf entry.1 = .ok field.1 ∧ entry.2 = field.2)
    entries fields
  declared : ∀ field ∈ fields, field.1 ∈ names
  distinct : (fields.map Prod.fst).Nodup

section

variable {κ α β : Type} {names : List String} {nameOf : κ → Except Problem String}
  {entries : List (κ × α)} {fields : Fields α} {name : String} {key : κ} {value : α}

theorem lookup_isSome_iff : (fields.lookup name).isSome = true ↔ name ∈ fields.map Prod.fst := by
  rw [← not_iff_not, Bool.not_eq_true, Option.isSome_eq_false_iff, Option.isNone_iff_eq_none,
    List.lookup_eq_none_iff, List.mem_map]
  simp only [bne_iff_ne, not_exists, not_and, ne_comm, ne_eq]

theorem addField_eq_ok_iff {added : Fields α} :
    addField names fields name value = .ok added ↔
      name ∈ names ∧ name ∉ fields.map Prod.fst ∧ fields ++ [(name, value)] = added := by
  rw [← lookup_isSome_iff, addField]
  by_cases hname : name ∈ names
  · by_cases hgiven : (fields.lookup name).isSome = true
    · simp [hname, hgiven]
    · simp [hname, hgiven]
  · simp [hname]

/-- Reading the entries of a mapping behind others. -/
theorem foldlM_addField_eq_ok_iff {before : Fields α} (hbefore : (before.map Prod.fst).Nodup) :
    entries.foldlM (fun fields (key, value) => do addField names fields (← nameOf key) value)
        before = .ok fields ↔
      ∃ added, fields = before ++ added ∧
        List.Forall₂ (fun entry field => nameOf entry.1 = .ok field.1 ∧ entry.2 = field.2)
          entries added ∧
        (∀ field ∈ added, field.1 ∈ names) ∧ (fields.map Prod.fst).Nodup := by
  induction entries generalizing before with
  | nil =>
      rw [List.foldlM_nil, pure_eq_ok, Except.ok.injEq]
      constructor
      · rintro rfl
        exact ⟨[], by simp, .nil, by simp, hbefore⟩
      · rintro ⟨_, rfl, ⟨⟩, -, -⟩
        simp
  | cons entry rest ih =>
      obtain ⟨key, value⟩ := entry
      rw [List.foldlM_cons]
      simp only [bind_eq_ok_iff, addField_eq_ok_iff]
      constructor
      · rintro ⟨_, ⟨name, hkey, hname, hnew, rfl⟩, hrest⟩
        have hdistinct : ((before ++ [(name, value)]).map Prod.fst).Nodup := by
          rw [List.map_append, List.nodup_append']
          exact ⟨hbefore, by simp, by simpa using hnew⟩
        obtain ⟨added, rfl, hadded, hdeclared, hall⟩ := (ih hdistinct).1 hrest
        refine ⟨(name, value) :: added, by simp, .cons ⟨hkey, rfl⟩ hadded, ?_, hall⟩
        exact List.forall_mem_cons.2 ⟨hname, hdeclared⟩
      · rintro ⟨_, rfl, hadded, hdeclared, hall⟩
        cases hadded with
        | @cons _ field _ added hfield hadded =>
            obtain ⟨name, _⟩ := field
            obtain ⟨hkey, rfl⟩ := hfield
            obtain ⟨hname, hdeclared⟩ := List.forall_mem_cons.1 hdeclared
            have hsplit :
                before ++ (name, value) :: added = before ++ [(name, value)] ++ added := by
              simp
            have hdistinct : ((before ++ [(name, value)]).map Prod.fst).Nodup := by
              rw [hsplit, List.map_append] at hall
              exact (List.nodup_append'.1 hall).1
            refine ⟨_, ⟨name, hkey, hname, ?_, rfl⟩,
              (ih hdistinct).2 ⟨added, hsplit, hadded, hdeclared, hall⟩⟩
            rw [List.map_append, List.nodup_append'] at hdistinct
            simpa using hdistinct.2.2

theorem isRecord_iff :
    entries.foldlM (fun fields (key, value) => do addField names fields (← nameOf key) value)
        [] = .ok fields ↔ IsRecord names nameOf entries fields := by
  have hnone : (([] : Fields α).map Prod.fst).Nodup := List.nodup_nil
  refine (foldlM_addField_eq_ok_iff hnone).trans ?_
  constructor
  · rintro ⟨_, rfl, hentries, hdeclared, hdistinct⟩
    exact ⟨hentries, hdeclared, hdistinct⟩
  · rintro ⟨hentries, hdeclared, hdistinct⟩
    exact ⟨fields, rfl, hentries, hdeclared, hdistinct⟩

/-- Every key names a declared field, under which the value of its entry is found. -/
theorem IsRecord.exists_lookup (hrecord : IsRecord names nameOf entries fields)
    (hentry : (key, value) ∈ entries) :
    ∃ name ∈ names, nameOf key = .ok name ∧ fields.lookup name = some value := by
  obtain ⟨hentries, hdeclared, hdistinct⟩ := hrecord
  obtain ⟨⟨name, _⟩, hfield, hkey, rfl⟩ := exists_of_mem_of_forall₂ hentries hentry
  exact ⟨name, hdeclared _ hfield, hkey, (lookup_eq_some_iff_mem_of_nodup hdistinct).2 hfield⟩

theorem Fields.eq_ok_of_getOr {default result : β} {read : α → Except Problem β}
    (hread : fields.getOr name default read = .ok result)
    (hlookup : fields.lookup name = some value) :
    read value = .ok result := by
  rw [getOr, hlookup] at hread
  exact hread

theorem Fields.exists_of_require {result : β} {read : α → Except Problem β}
    (hread : fields.require name read = .ok result) : ∃ value, read value = .ok result := by
  unfold require at hread
  split at hread
  · exact ⟨_, hread⟩
  · cases hread

theorem Fields.exists_of_getOr_none {result : β} {read : α → Except Problem (Option β)}
    (hread : fields.getOr name none read = .ok (some result)) :
    ∃ value, read value = .ok (some result) := by
  unfold getOr at hread
  split at hread
  · exact ⟨_, hread⟩
  · cases hread

theorem Fields.eq_ok_of_require {result : β} {read : α → Except Problem β}
    (hread : fields.require name read = .ok result) (hlookup : fields.lookup name = some value) :
    read value = .ok result := by
  rw [require, hlookup] at hread
  exact hread

end

/-! ## Records in documents -/

theorem Node.fields_mapping_iff {names : List String} {tag : Option Tag}
    {entries : List (Node × Node)} {fields : Fields Node} :
    Node.fields names (.mapping tag entries) = .ok fields ↔
      IsRecord names Node.text entries fields :=
  isRecord_iff

theorem Value.entryFields_iff {names : List String} {entries : List (Value × Value)}
    {fields : Fields Value} :
    Value.entryFields names entries = .ok fields ↔
      IsRecord names (Value.fieldName names) entries fields :=
  isRecord_iff

theorem plainItems_iff {items : List Node} {values : List Value} :
    plainItems items = .ok values ↔
      List.Forall₂ (fun item value => Value.ofPlainNode item = .ok value) items values := by
  induction items generalizing values with
  | nil => simp [plainItems, eq_comm]
  | cons item rest ih =>
      rw [plainItems, List.forall₂_cons_left_iff]
      simp [bind_eq_ok_iff, pure_eq_ok, ih, @eq_comm _ values]

theorem plainEntries_cons_iff {key value : Node} {rest : List (Node × Node)}
    {values : List (Value × Value)} :
    plainEntries ((key, value) :: rest) = .ok values ↔ ∃ name plain later,
      Value.ofPlainNode key = .ok name ∧ Value.ofPlainNode value = .ok plain ∧
        plainEntries rest = .ok later ∧ values = (name, plain) :: later := by
  rw [plainEntries]
  simp only [bind_eq_ok_iff, pure_eq_ok]
  constructor
  · rintro ⟨name, hname, plain, hplain, later, hlater, ⟨⟩⟩
    exact ⟨name, plain, later, hname, hplain, hlater, rfl⟩
  · rintro ⟨name, plain, later, hname, hplain, hlater, rfl⟩
    exact ⟨name, hname, plain, hplain, later, hlater, rfl⟩

theorem plainEntries_iff {entries : List (Node × Node)} {values : List (Value × Value)} :
    plainEntries entries = .ok values ↔
      List.Forall₂ (fun entry value => Value.ofPlainNode entry.1 = .ok value.1 ∧
        Value.ofPlainNode entry.2 = .ok value.2) entries values := by
  induction entries generalizing values with
  | nil => simp [plainEntries, eq_comm]
  | cons entry rest ih =>
      rw [plainEntries_cons_iff, List.forall₂_cons_left_iff]
      simp [ih, and_assoc]

theorem ofPlainNode_sequence_iff {tag : Option Tag} {items : List Node} {value : Value} :
    Value.ofPlainNode (.sequence tag items) = .ok value ↔
      localTag? tag = none ∧
        ∃ values, plainItems items = .ok values ∧ .sequence values = value := by
  rw [Value.ofPlainNode]
  cases localTag? tag with
  | none => simp [bind_eq_ok_iff, pure_eq_ok]
  | some name => simp [throw_eq_error, bind, Except.bind]

theorem ofPlainNode_mapping_iff {tag : Option Tag} {entries : List (Node × Node)} {value : Value} :
    Value.ofPlainNode (.mapping tag entries) = .ok value ↔
      localTag? tag = none ∧
        ∃ values, plainEntries entries = .ok values ∧ .mapping values = value := by
  rw [Value.ofPlainNode]
  cases localTag? tag with
  | none => simp [bind_eq_ok_iff, pure_eq_ok]
  | some name => simp [throw_eq_error, bind, Except.bind]

/-! ## Optional words -/

section

variable {α : Type} {x : α} {n : Nat}

theorem Node.eq_ok_of_optional {read : Node → Except Problem α} {node : Node}
    (hread : node.optional read = .ok (some x)) : read node = .ok x := by
  obtain ⟨absent, -, hread⟩ := bind_eq_ok_iff.1 hread
  split at hread
  · cases hread
  · obtain ⟨_, hread, ⟨⟩⟩ := bind_eq_ok_iff.1 hread
    exact hread

theorem Value.eq_ok_of_optional {read : Value → Except Problem α} {value : Value}
    (hread : value.optional read = .ok (some x)) : read value = .ok x := by
  unfold optional at hread
  split at hread
  · cases hread
  · cases hvalue : read value with
    | error problem => rw [hvalue] at hread; cases hread
    | ok found =>
        rw [hvalue] at hread
        cases hread
        rfl

theorem lt_of_scalarWord? {text : String} (hread : scalarWord? text = some n) :
    n < Text.wordLimit := by
  unfold scalarWord? at hread
  split at hread
  · split at hread
    next hlt =>
      cases hread
      exact hlt
    · cases hread
  · cases hread

theorem Node.lt_of_word64 {node : Node} (hread : node.word64 = .ok n) : n < Text.wordLimit := by
  unfold word64 at hread
  split at hread
  · split at hread
    next hword =>
      cases hread
      exact lt_of_scalarWord? hword
    · cases hread
  · cases hread

theorem Value.lt_of_word64 {value : Value} (hread : value.word64 = .ok n) :
    n < Text.wordLimit := by
  unfold word64 at hread
  split at hread
  · split at hread
    next hlt =>
      cases hread
      exact hlt
    · cases hread
  · cases hread
    decide
  · cases hread

end

/-! ## What a document holds -/

namespace Node

/-- The entries of a mapping. -/
def entries : Node → List (Node × Node)
  | .mapping _ entries => entries
  | _ => []

/-- The items of a sequence. -/
def members : Node → List Node
  | .sequence _ items => items
  | _ => []

end Node

/-- A key that is read as a value names a field: by its text, or by the number of the field
among `names`. -/
inductive NamesField (names : List String) (key : Node) (name : String) : Prop where
  | text (hkey : Value.ofPlainNode key = .ok (.string name)) (hname : name ∈ names)
  | number {position : Nat} (hkey : Value.ofPlainNode key = .ok (.number (.natural position)))
      (hname : names[position]? = some name)

section

variable {α : Type} {names : List String} {node key item : Node} {value : Value}

theorem namesField_of_fieldName {name : String} (hkey : Value.ofPlainNode key = .ok value)
    (hname : Value.fieldName names value = .ok name) (hmem : name ∈ names) :
    NamesField names key name := by
  unfold Value.fieldName at hname
  split at hname
  · cases hname
    exact .text hkey hmem
  · split at hname
    next hposition =>
      cases hname
      exact .number hkey hposition
    · cases hname
  · cases hname

theorem NamesField.mem {name : String} (hname : NamesField names key name) : name ∈ names := by
  cases hname with
  | text _ hname => exact hname
  | number _ hname => exact List.mem_of_getElem? hname

/-- A key names one field only. -/
theorem NamesField.unique {name other : String} (hname : NamesField names key name)
    (hother : NamesField names key other) : name = other := by
  cases hname with
  | text hkey =>
      cases hother with
      | text hkey' => simpa using hkey.symm.trans hkey'
      | number hkey' => simpa using hkey.symm.trans hkey'
  | number hkey hname =>
      cases hother with
      | text hkey' => simpa using hkey.symm.trans hkey'
      | number hkey' hother =>
          obtain rfl : _ = _ := by simpa using hkey.symm.trans hkey'
          exact Option.some.inj (hname.symm.trans hother)

theorem Node.exists_lookup_of_mem_entries {fields : Fields Node} {value : Node}
    (hfields : node.fields names = .ok fields) (hentry : (key, value) ∈ node.entries) :
    ∃ name ∈ names, key.text = .ok name ∧ fields.lookup name = some value := by
  cases node with
  | scalar => cases hentry
  | sequence => cases hentry
  | mapping tag entries => exact (Node.fields_mapping_iff.1 hfields).exists_lookup hentry

theorem exists_lookup_of_mem_plainEntries {entries : List (Node × Node)}
    {values : List (Value × Value)} {fields : Fields Value} {written : Node}
    (hvalues : plainEntries entries = .ok values)
    (hfields : Value.entryFields names values = .ok fields) (hentry : (key, written) ∈ entries) :
    ∃ name value, NamesField names key name ∧ Value.ofPlainNode written = .ok value ∧
      fields.lookup name = some value := by
  obtain ⟨⟨name, value⟩, hmem, hkey, hvalue⟩ :=
    exists_of_mem_of_forall₂ (plainEntries_iff.1 hvalues) hentry
  obtain ⟨name, hname, hread, hlookup⟩ := (Value.entryFields_iff.1 hfields).exists_lookup hmem
  exact ⟨name, value, namesField_of_fieldName hkey hread hname, hvalue, hlookup⟩

theorem exists_lookup_of_mem_entries {fields : Fields Value} {written : Node}
    (hvalue : Value.ofPlainNode node = .ok value) (hfields : value.fields names = .ok fields)
    (hentry : (key, written) ∈ node.entries) :
    ∃ name value, NamesField names key name ∧ Value.ofPlainNode written = .ok value ∧
      fields.lookup name = some value := by
  cases node with
  | scalar => cases hentry
  | sequence => cases hentry
  | mapping tag entries =>
      obtain ⟨-, values, hvalues, rfl⟩ := ofPlainNode_mapping_iff.1 hvalue
      exact exists_lookup_of_mem_plainEntries hvalues hfields hentry

theorem Node.exists_of_mem_members {read : Node → Except Problem α} {results : List α}
    (hread : (do (← node.items).mapM read) = Except.ok results) (hitem : item ∈ node.members) :
    ∃ result, read item = .ok result := by
  cases node with
  | scalar => cases hitem
  | sequence tag items => exact exists_mapM_iff.1 ⟨results, hread⟩ item hitem
  | mapping => cases hitem

/-- Every result of a list of records comes from a node. -/
theorem Node.exists_of_mem_items {read : Node → Except Problem α} {results : List α}
    {fields : Fields Node} {name : String} {x : α}
    (hread : (fields.getOr name [] fun node => do (← node.items).mapM read) = .ok results)
    (hx : x ∈ results) : ∃ item, read item = .ok x := by
  unfold Fields.getOr at hread
  split at hread
  · obtain ⟨items, -, hitems⟩ := bind_eq_ok_iff.1 hread
    obtain ⟨item, -, hitem⟩ := exists_of_mem_of_forall₂ (mapM_eq_ok_iff.1 hitems).flip hx
    exact ⟨item, hitem⟩
  · cases hread
    cases hx

theorem exists_of_mem_members {read : Value → Except Problem α} {results : List α}
    (hvalue : Value.ofPlainNode node = .ok value) (hread : value.listOf read = .ok results)
    (hitem : item ∈ node.members) :
    ∃ value result, Value.ofPlainNode item = .ok value ∧ read value = .ok result := by
  cases node with
  | scalar => cases hitem
  | mapping => cases hitem
  | sequence tag items =>
      obtain ⟨-, values, hvalues, rfl⟩ := ofPlainNode_sequence_iff.1 hvalue
      obtain ⟨value, hmem, hitem⟩ := exists_of_mem_of_forall₂ (plainItems_iff.1 hvalues) hitem
      obtain ⟨result, hresult⟩ := exists_mapM_iff.1 ⟨results, hread⟩ value hmem
      exact ⟨value, result, hitem, hresult⟩

end

end WorkflowAudit.Yaml
