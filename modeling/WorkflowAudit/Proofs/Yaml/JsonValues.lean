import WorkflowAudit.Json.Basic
import WorkflowAudit.Proofs.Yaml.Records
import WorkflowAudit.Proofs.Yaml.Scalars

/-!
# JSON values in documents

A document can hold a JSON value in many ways: scalars have styles, and the entries of an
object stand in any order.  The form of the value still tells the form of the tree.
-/

namespace WorkflowAudit.Yaml

/-- The value of a document is a JSON value; its numbers are natural ones. -/
inductive Value.IsJson : Json → Value → Prop where
  | null : IsJson .null .null
  | bool (value : Bool) : IsJson (.bool value) (.bool value)
  | natural (n : Nat) : IsJson (Json.ofNat n) (.number (.natural n))
  | string (text : String) : IsJson (.str text) (.string text)
  | sequence {items : List Json} {values : List Value} (hitems : List.Forall₂ IsJson items values) :
      IsJson (.arr items) (.sequence values)
  | mapping {written fields : List (String × Json)} {entries : List (Value × Value)}
      (hperm : fields.Perm written)
      (hkeys : entries.map Prod.fst = fields.map fun field => .string field.1)
      (hvalues : List.Forall₂ IsJson (fields.map Prod.snd) (entries.map Prod.snd)) :
      IsJson (.obj written) (.mapping entries)

mutual

/-- Whether a tree has no tags. -/
def Node.isUntagged : Node → Bool
  | .scalar tag _ _ => tag.isNone
  | .sequence tag items => tag.isNone && untaggedItems items
  | .mapping tag entries => tag.isNone && untaggedEntries entries

def untaggedItems : List Node → Bool
  | [] => true
  | item :: rest => item.isUntagged && untaggedItems rest

def untaggedEntries : List (Node × Node) → Bool
  | [] => true
  | (key, value) :: rest => key.isUntagged && value.isUntagged && untaggedEntries rest

end

/-- A tree without tags holds a JSON value. -/
structure Node.IsJson (json : Json) (node : Node) : Prop where
  untagged : node.isUntagged = true
  value : ∃ value, Value.ofPlainNode node = .ok value ∧ Value.IsJson json value

/-! ## Values -/

namespace Value

variable {value : Value}

theorem isJson_str_iff {text : String} : IsJson (.str text) value ↔ value = .string text := by
  constructor
  · rintro ⟨⟩
    rfl
  · rintro rfl
    exact .string text

/-- An entry of a mapping is a field of an object. -/
def IsField (field : String × Json) (entry : Value × Value) : Prop :=
  entry.1 = .string field.1 ∧ IsJson field.2 entry.2

theorem forall₂_isField_iff {fields : List (String × Json)} {entries : List (Value × Value)} :
    List.Forall₂ IsField fields entries ↔
      (entries.map Prod.fst = fields.map fun field => .string field.1) ∧
        List.Forall₂ IsJson (fields.map Prod.snd) (entries.map Prod.snd) := by
  induction fields generalizing entries with
  | nil => cases entries <;> simp
  | cons field rest ih =>
      cases entries with
      | nil => simp
      | cons entry entries => simp [ih, IsField, and_assoc, and_left_comm]

theorem isJson_obj_iff {written : List (String × Json)} :
    IsJson (.obj written) value ↔ ∃ fields entries, fields.Perm written ∧
      List.Forall₂ IsField fields entries ∧ .mapping entries = value := by
  constructor
  · rintro ⟨⟩
    next fields entries hkeys hvalues hperm =>
      exact ⟨fields, entries, hperm, forall₂_isField_iff.2 ⟨hkeys, hvalues⟩, rfl⟩
  · rintro ⟨fields, entries, hperm, hentries, rfl⟩
    obtain ⟨hkeys, hvalues⟩ := forall₂_isField_iff.1 hentries
    exact .mapping hperm hkeys hvalues

end Value

/-! ## Trees -/

namespace Node

variable {node : Node} {json : Json} {text : String}

/-- An entry of a mapping is a field of an object. -/
def IsField (field : String × Json) (entry : Node × Node) : Prop :=
  IsJson (.str field.1) entry.1 ∧ IsJson field.2 entry.2

theorem forall₂_isJson_iff {items : List Json} {nodes : List Node} :
    List.Forall₂ IsJson items nodes ↔ untaggedItems nodes = true ∧
      ∃ values, plainItems nodes = .ok values ∧ List.Forall₂ Value.IsJson items values := by
  induction nodes generalizing items with
  | nil => cases items <;> simp [untaggedItems, plainItems]
  | cons node rest ih =>
      cases items with
      | nil => simp [untaggedItems, plainItems, bind_eq_ok_iff, pure_eq_ok]
      | cons item items =>
          rw [List.forall₂_cons, ih, untaggedItems, plainItems, Bool.and_eq_true]
          simp only [bind_eq_ok_iff, pure_eq_ok]
          constructor
          · rintro ⟨⟨huntagged, value, hvalue, hjson⟩, hrest, values, hvalues, hjsons⟩
            exact ⟨⟨huntagged, hrest⟩, value :: values, ⟨value, hvalue, values, hvalues, rfl⟩,
              .cons hjson hjsons⟩
          · rintro ⟨⟨huntagged, hrest⟩, _, ⟨value, hvalue, values, hvalues, ⟨⟩⟩, hall⟩
            obtain ⟨hjson, hjsons⟩ := List.forall₂_cons.1 hall
            exact ⟨⟨huntagged, value, hvalue, hjson⟩, hrest, values, hvalues, hjsons⟩

theorem forall₂_isField_iff {fields : List (String × Json)} {entries : List (Node × Node)} :
    List.Forall₂ IsField fields entries ↔ untaggedEntries entries = true ∧
      ∃ values, plainEntries entries = .ok values ∧
        List.Forall₂ Value.IsField fields values := by
  induction entries generalizing fields with
  | nil => cases fields <;> simp [untaggedEntries, plainEntries]
  | cons entry rest ih =>
      obtain ⟨key, node⟩ := entry
      cases fields with
      | nil => simp [untaggedEntries, plainEntries, bind_eq_ok_iff, pure_eq_ok]
      | cons field fields =>
          rw [List.forall₂_cons, ih, untaggedEntries, Bool.and_eq_true, Bool.and_eq_true]
          constructor
          · rintro ⟨⟨⟨hkey, name, hname, hstr⟩, hnode, value, hvalue, hjson⟩, hrest, values,
              hvalues, hfields⟩
            obtain rfl := Value.isJson_str_iff.1 hstr
            exact ⟨⟨⟨hkey, hnode⟩, hrest⟩, _,
              plainEntries_cons_iff.2 ⟨_, value, values, hname, hvalue, hvalues, rfl⟩,
              .cons ⟨rfl, hjson⟩ hfields⟩
          · rintro ⟨⟨⟨hkey, hnode⟩, hrest⟩, _, hplain, hall⟩
            obtain ⟨name, value, values, hname, hvalue, hvalues, rfl⟩ :=
              plainEntries_cons_iff.1 hplain
            obtain ⟨⟨hfield, hjson⟩, hfields⟩ := List.forall₂_cons.1 hall
            exact ⟨⟨⟨hkey, name, hname, Value.isJson_str_iff.2 hfield⟩, hnode, value, hvalue,
              hjson⟩, hrest, values, hvalues, hfields⟩

theorem isJson_scalar_iff {tag : Option Tag} {style : Style} :
    IsJson json (.scalar tag style text) ↔ tag = none ∧
      ∃ value, scalarValue none style text = .ok value ∧ Value.IsJson json value := by
  constructor
  · rintro ⟨huntagged, hvalue⟩
    obtain rfl := Option.isNone_iff_eq_none.1 huntagged
    exact ⟨rfl, hvalue⟩
  · rintro ⟨rfl, hvalue⟩
    exact ⟨rfl, hvalue⟩

theorem isJson_sequence_iff {tag : Option Tag} {nodes : List Node} :
    IsJson json (.sequence tag nodes) ↔ tag = none ∧
      ∃ items, json = .arr items ∧ List.Forall₂ IsJson items nodes := by
  constructor
  · rintro ⟨huntagged, value, hvalue, hjson⟩
    rw [isUntagged, Bool.and_eq_true, Option.isNone_iff_eq_none] at huntagged
    obtain ⟨-, values, hvalues, rfl⟩ := ofPlainNode_sequence_iff.1 hvalue
    cases hjson with
    | sequence hitems =>
        exact ⟨huntagged.1, _, rfl, forall₂_isJson_iff.2 ⟨huntagged.2, values, hvalues, hitems⟩⟩
  · rintro ⟨rfl, items, rfl, hall⟩
    obtain ⟨huntagged, values, hvalues, hitems⟩ := forall₂_isJson_iff.1 hall
    exact ⟨huntagged, _, ofPlainNode_sequence_iff.2 ⟨rfl, values, hvalues, rfl⟩, .sequence hitems⟩

theorem isJson_mapping_iff {tag : Option Tag} {entries : List (Node × Node)} :
    IsJson json (.mapping tag entries) ↔ tag = none ∧
      ∃ written fields, json = .obj written ∧ fields.Perm written ∧
        List.Forall₂ IsField fields entries := by
  constructor
  · rintro ⟨huntagged, value, hvalue, hjson⟩
    rw [isUntagged, Bool.and_eq_true, Option.isNone_iff_eq_none] at huntagged
    obtain ⟨-, values, hvalues, rfl⟩ := ofPlainNode_mapping_iff.1 hvalue
    cases hjson with
    | @mapping written fields _ hperm hkeys hall =>
        have hfields := Value.forall₂_isField_iff.2 ⟨hkeys, hall⟩
        exact ⟨huntagged.1, written, fields, rfl, hperm,
          forall₂_isField_iff.2 ⟨huntagged.2, values, hvalues, hfields⟩⟩
  · rintro ⟨rfl, written, fields, rfl, hperm, hall⟩
    obtain ⟨huntagged, values, hvalues, hfields⟩ := forall₂_isField_iff.1 hall
    exact ⟨huntagged, _, ofPlainNode_mapping_iff.2 ⟨rfl, values, hvalues, rfl⟩,
      Value.isJson_obj_iff.2 ⟨fields, values, hperm, hfields, rfl⟩⟩

/-- A value that is neither a list nor an object stands as a scalar. -/
theorem exists_of_isJson_scalar (hnode : IsJson json node) (harr : ∀ items, json ≠ .arr items)
    (hobj : ∀ written, json ≠ .obj written) :
    ∃ style text value, node = .scalar none style text ∧
      scalarValue none style text = .ok value ∧ Value.IsJson json value := by
  cases node with
  | scalar tag style text =>
      obtain ⟨rfl, value, hvalue, hjson⟩ := isJson_scalar_iff.1 hnode
      exact ⟨style, text, value, rfl, hvalue, hjson⟩
  | sequence =>
      obtain ⟨-, items, hitems, -⟩ := isJson_sequence_iff.1 hnode
      exact absurd hitems (harr items)
  | mapping =>
      obtain ⟨-, written, fields, hwritten, -⟩ := isJson_mapping_iff.1 hnode
      exact absurd hwritten (hobj written)

theorem exists_of_isJson_str (hnode : IsJson (.str text) node) :
    ∃ style, node = .scalar none style text := by
  obtain ⟨style, written, value, rfl, hvalue, hjson⟩ :=
    exists_of_isJson_scalar hnode nofun nofun
  obtain rfl := Value.isJson_str_iff.1 hjson
  obtain rfl := eq_of_scalarValue_string hvalue
  exact ⟨style, rfl⟩

theorem exists_of_isJson_arr {items : List Json} (hnode : IsJson (.arr items) node) :
    ∃ nodes, node = .sequence none nodes ∧ List.Forall₂ IsJson items nodes := by
  cases node with
  | scalar =>
      obtain ⟨rfl, value, hvalue, hjson⟩ := isJson_scalar_iff.1 hnode
      cases hjson
      rcases isPlainValue_of_scalarValue hvalue with hnull | hplain
      · cases hnull
      · cases hplain
  | sequence =>
      obtain ⟨rfl, _, ⟨⟩, hitems⟩ := isJson_sequence_iff.1 hnode
      exact ⟨_, rfl, hitems⟩
  | mapping =>
      obtain ⟨-, _, _, ⟨⟩, -⟩ := isJson_mapping_iff.1 hnode

theorem exists_of_isJson_obj {written : List (String × Json)} (hnode : IsJson (.obj written) node) :
    ∃ fields entries, node = .mapping none entries ∧ fields.Perm written ∧
      List.Forall₂ IsField fields entries := by
  cases node with
  | scalar =>
      obtain ⟨rfl, value, hvalue, hjson⟩ := isJson_scalar_iff.1 hnode
      cases hjson
      rcases isPlainValue_of_scalarValue hvalue with hnull | hplain
      · cases hnull
      · cases hplain
  | sequence =>
      obtain ⟨-, _, ⟨⟩, -⟩ := isJson_sequence_iff.1 hnode
  | mapping =>
      obtain ⟨rfl, _, fields, ⟨⟩, hperm, hfields⟩ := isJson_mapping_iff.1 hnode
      exact ⟨fields, _, rfl, hperm, hfields⟩

/-- Only null stands for an absent value. -/
theorem isAbsent_of_isJson (hnode : IsJson json node) :
    ∃ absent, node.isAbsent = .ok absent ∧ (absent = true ↔ json = .null) := by
  cases node with
  | scalar tag style text =>
      obtain ⟨rfl, value, hvalue, hjson⟩ := isJson_scalar_iff.1 hnode
      by_cases hstyle : style = .plain
      · subst hstyle
        refine ⟨_, rfl, ?_⟩
        rw [← plainValue_eq_null_iff]
        rw [scalarValue_none, if_pos rfl] at hvalue
        rw [hvalue]
        constructor
        · rintro ⟨⟩
          cases hjson
          rfl
        · rintro rfl
          cases hjson
          rfl
      · rw [scalarValue_none, if_neg hstyle] at hvalue
        cases hvalue
        refine ⟨false, by cases style <;> first | rfl | exact absurd rfl hstyle, ?_⟩
        simp only [Bool.false_eq_true, false_iff]
        rintro rfl
        cases hjson
  | sequence =>
      obtain ⟨-, items, rfl, -⟩ := isJson_sequence_iff.1 hnode
      exact ⟨false, rfl, by simp⟩
  | mapping =>
      obtain ⟨-, written, fields, rfl, -⟩ := isJson_mapping_iff.1 hnode
      exact ⟨false, rfl, by simp⟩

/-! Ways to write a value -/

theorem exists_isJson_null : ∃ node, IsJson .null node :=
  ⟨.scalar none .plain "null", isJson_scalar_iff.2 ⟨rfl, _, rfl, .null⟩⟩

theorem exists_isJson_bool (value : Bool) : ∃ node, IsJson (.bool value) node := by
  cases value with
  | false => exact ⟨.scalar none .plain "false", isJson_scalar_iff.2 ⟨rfl, _, rfl, .bool false⟩⟩
  | true => exact ⟨.scalar none .plain "true", isJson_scalar_iff.2 ⟨rfl, _, rfl, .bool true⟩⟩

theorem exists_isJson_ofNat {n : Nat} (hn : n < Text.wordLimit) :
    ∃ node, IsJson (Json.ofNat n) node :=
  ⟨.scalar none .plain (toString n),
    isJson_scalar_iff.2 ⟨rfl, _, plainValue_toString hn, .natural n⟩⟩

theorem exists_isJson_str (text : String) : ∃ node, IsJson (.str text) node :=
  ⟨.scalar none .quoted text, isJson_scalar_iff.2 ⟨rfl, _, rfl, .string text⟩⟩

theorem exists_isJson_list {α : Type} {toJson : α → Json} {xs : List α}
    (hxs : ∀ x ∈ xs, ∃ node, IsJson (toJson x) node) :
    ∃ node, IsJson (.arr (xs.map toJson)) node := by
  have hnodes : ∃ nodes, List.Forall₂ IsJson (xs.map toJson) nodes := by
    induction xs with
    | nil => exact ⟨[], .nil⟩
    | cons x rest ih =>
        obtain ⟨⟨node, hnode⟩, hrest⟩ := List.forall_mem_cons.1 hxs
        obtain ⟨nodes, hnodes⟩ := ih hrest
        exact ⟨node :: nodes, .cons hnode hnodes⟩
  obtain ⟨nodes, hnodes⟩ := hnodes
  exact ⟨.sequence none nodes, isJson_sequence_iff.2 ⟨rfl, _, rfl, hnodes⟩⟩

theorem exists_isJson_obj {written : List (String × Json)}
    (hwritten : ∀ field ∈ written, ∃ node, IsJson field.2 node) :
    ∃ node, IsJson (.obj written) node := by
  have hentries : ∃ entries, List.Forall₂ IsField written entries := by
    induction written with
    | nil => exact ⟨[], .nil⟩
    | cons field rest ih =>
        obtain ⟨⟨node, hnode⟩, hrest⟩ := List.forall_mem_cons.1 hwritten
        obtain ⟨key, hkey⟩ := exists_isJson_str field.1
        obtain ⟨entries, hentries⟩ := ih hrest
        exact ⟨(key, node) :: entries, .cons ⟨hkey, hnode⟩ hentries⟩
  obtain ⟨entries, hentries⟩ := hentries
  exact ⟨.mapping none entries,
    isJson_mapping_iff.2 ⟨rfl, written, written, rfl, .refl written, hentries⟩⟩

theorem exists_isJson_ofOption {α : Type} {toJson : α → Json} {o : Option α}
    (hsome : ∀ x ∈ o, ∃ node, IsJson (toJson x) node) :
    ∃ node, IsJson (Json.ofOption (o.map toJson)) node := by
  cases o with
  | none => exact exists_isJson_null
  | some x => exact hsome x rfl

end Node

end WorkflowAudit.Yaml
