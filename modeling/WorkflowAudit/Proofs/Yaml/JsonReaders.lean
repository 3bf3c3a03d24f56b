import WorkflowAudit.Proofs.Yaml.JsonValues

/-!
# Reading JSON values from documents

Whichever way a JSON value stands in a document, its readers find the same.  Each reader has
one lemma that says which value it reads as what, and the readers of records are put together
from these.
-/

namespace WorkflowAudit.Yaml

/-- Whatever stands for a JSON value is read as `x`. -/
def ReadsAs {κ α : Type} (Is : Json → κ → Prop) (read : κ → Except Problem α) (json : Json)
    (x : α) : Prop :=
  ∀ ⦃y⦄, Is json y → read y = .ok x

section

variable {α : Type} {json : Json} {x : α}

theorem mapM_eq_of_readsAs {κ : Type} {Is : Json → κ → Prop} {read : κ → Except Problem α}
    {toJson : α → Json} {xs : List α} {ys : List κ} (hall : List.Forall₂ Is (xs.map toJson) ys)
    (hread : ∀ x ∈ xs, ReadsAs Is read (toJson x) x) : ys.mapM read = .ok xs := by
  rw [mapM_eq_ok_iff]
  induction xs generalizing ys with
  | nil =>
      cases hall
      exact .nil
  | cons x xs ih =>
      cases hall with
      | cons hfirst hrest =>
          exact .cons (hread x List.mem_cons_self hfirst)
            (ih hrest fun x hx => hread x (List.mem_cons_of_mem _ hx))

namespace Node

theorem readsAs_text (text : String) : ReadsAs IsJson Node.text (.str text) text := by
  intro node hnode
  obtain ⟨style, rfl⟩ := exists_of_isJson_str hnode
  rfl

theorem readsAs_named {ofName? : String → Option α} {name : String}
    (hname : ofName? name = some x) :
    ReadsAs IsJson (Node.named ofName?) (.str name) x := by
  intro node hnode
  obtain ⟨style, rfl⟩ := exists_of_isJson_str hnode
  simp only [named, localTag?, hname]

theorem readsAs_word64 (n : Nat) : ReadsAs IsJson Node.word64 (Json.ofNat n) n := by
  intro node hnode
  obtain ⟨style, text, value, rfl, hvalue, hjson⟩ := exists_of_isJson_scalar hnode nofun nofun
  generalize hn : Json.ofNat n = json at hjson
  cases hjson with
  | natural m =>
      obtain rfl : n = m := Int.ofNat.inj (Json.int.inj hn)
      obtain rfl := style_eq_plain_of_scalarValue hvalue nofun
      obtain ⟨hinteger, hword⟩ := integer?_of_plainValue hvalue
      simp only [word64, scalarWord?, hinteger, hword, if_true]
      rfl
  | _ => cases hn

theorem readsAs_optional_none {read : Node → Except Problem α} :
    ReadsAs IsJson (Node.optional read) .null none := by
  intro node hnode
  obtain ⟨absent, habsent, hnull⟩ := isAbsent_of_isJson hnode
  obtain rfl := hnull.2 rfl
  rw [optional, habsent]
  rfl

theorem readsAs_optional_some {read : Node → Except Problem α} (hjson : json ≠ .null)
    (hread : ReadsAs IsJson read json x) : ReadsAs IsJson (Node.optional read) json (some x) := by
  intro node hnode
  obtain ⟨absent, habsent, hnull⟩ := isAbsent_of_isJson hnode
  obtain rfl := Bool.eq_false_iff.2 fun h => hjson (hnull.1 h)
  rw [optional, habsent, hread hnode]
  rfl

theorem readsAs_optional {read : Node → Except Problem α} (toJson : α → Json) {o : Option α}
    (hread : ∀ x ∈ o, toJson x ≠ .null ∧ ReadsAs IsJson read (toJson x) x) :
    ReadsAs IsJson (Node.optional read) (Json.ofOption (o.map toJson)) o := by
  cases o with
  | none => exact readsAs_optional_none
  | some x => exact readsAs_optional_some (hread x rfl).1 (hread x rfl).2

theorem readsAs_optionalText (o : Option String) :
    ReadsAs IsJson (Node.optional Node.text) (Json.ofOption (o.map .str)) o :=
  readsAs_optional Json.str fun text _ => ⟨by simp, readsAs_text text⟩

theorem readsAs_items {read : Node → Except Problem α} {toJson : α → Json} {xs : List α}
    (hread : ∀ x ∈ xs, ReadsAs IsJson read (toJson x) x) :
    ReadsAs IsJson (fun node => do (← node.items).mapM read) (.arr (xs.map toJson)) xs := by
  intro node hnode
  obtain ⟨nodes, rfl, hitems⟩ := exists_of_isJson_arr hnode
  exact mapM_eq_of_readsAs hitems hread

end Node

namespace Value

theorem readsAs_text (text : String) : ReadsAs IsJson Value.text (.str text) text := by
  rintro _ ⟨⟩
  rfl

theorem readsAs_flag (b : Bool) : ReadsAs IsJson Value.flag (.bool b) b := by
  rintro _ ⟨⟩
  rfl

theorem readsAs_word64 {n : Nat} (hn : n < Text.wordLimit) :
    ReadsAs IsJson Value.word64 (Json.ofNat n) n := by
  rintro _ ⟨⟩
  exact if_pos hn

theorem readsAs_optional {read : Value → Except Problem α} (toJson : α → Json) {o : Option α}
    (hread : ∀ x ∈ o, toJson x ≠ .null ∧ ReadsAs IsJson read (toJson x) x) :
    ReadsAs IsJson (Value.optional read) (Json.ofOption (o.map toJson)) o := by
  cases o with
  | none =>
      rintro _ ⟨⟩
      rfl
  | some x =>
      obtain ⟨hjson, hread⟩ := hread x rfl
      intro value (hvalue : IsJson (toJson x) value)
      have hsome : value ≠ .null := by
        rintro rfl
        generalize toJson x = json at hjson hvalue
        cases hvalue
        exact hjson rfl
      rw [optional, hread hvalue]
      · rfl
      · exact hsome

theorem readsAs_optionalText (o : Option String) :
    ReadsAs IsJson (Value.optional Value.text) (Json.ofOption (o.map .str)) o :=
  readsAs_optional Json.str fun text _ => ⟨by simp, readsAs_text text⟩

theorem readsAs_optionalWord {o : Option Nat} (hwords : ∀ n ∈ o, n < Text.wordLimit) :
    ReadsAs IsJson (Value.optional Value.word64) (Json.ofOption (o.map Json.ofNat)) o :=
  readsAs_optional Json.ofNat fun n hn => ⟨by simp [Json.ofNat], readsAs_word64 (hwords n hn)⟩

theorem readsAs_listOf {read : Value → Except Problem α} {toJson : α → Json} {xs : List α}
    (hread : ∀ x ∈ xs, ReadsAs IsJson read (toJson x) x) :
    ReadsAs IsJson (Value.listOf read) (.arr (xs.map toJson)) xs := by
  rintro _ ⟨⟩
  next values hitems => exact mapM_eq_of_readsAs hitems hread

end Value

end

/-! ## Records -/

/-- The fields of a record are those of an object. -/
def FieldsAre {κ : Type} (Is : Json → κ → Prop) (written : List (String × Json))
    (fields : Fields κ) : Prop :=
  ∀ name, Option.Rel Is (written.lookup name) (fields.lookup name)

section

variable {κ α : Type} {Is : Json → κ → Prop} {written : List (String × Json)} {names : List String}

theorem FieldsAre.exists_lookup {fields : Fields κ} (hfields : FieldsAre Is written fields)
    {name : String} {json : Json} (hwritten : written.lookup name = some json) :
    ∃ y, fields.lookup name = some y ∧ Is json y := by
  have hrel := hfields name
  rw [hwritten] at hrel
  generalize fields.lookup name = found at hrel
  cases hrel with
  | some hjson => exact ⟨_, rfl, hjson⟩

theorem FieldsAre.lookup_eq_none {fields : Fields κ} (hfields : FieldsAre Is written fields)
    {name : String} (hwritten : written.lookup name = none) : fields.lookup name = none := by
  have hrel := hfields name
  rw [hwritten] at hrel
  generalize fields.lookup name = found at hrel
  cases hrel
  rfl

variable {fields : Fields κ} {name : String} {json : Json} {read : κ → Except Problem α} {x : α}

theorem FieldsAre.require (hfields : FieldsAre Is written fields)
    (hwritten : written.lookup name = some json) (hread : ReadsAs Is read json x) :
    fields.require name read = .ok x := by
  obtain ⟨y, hlookup, hjson⟩ := hfields.exists_lookup hwritten
  rw [Fields.require, hlookup]
  exact hread hjson

theorem FieldsAre.getOr (hfields : FieldsAre Is written fields)
    (hwritten : written.lookup name = some json) (hread : ReadsAs Is read json x) (default : α) :
    fields.getOr name default read = .ok x := by
  obtain ⟨y, hlookup, hjson⟩ := hfields.exists_lookup hwritten
  rw [Fields.getOr, hlookup]
  exact hread hjson

theorem FieldsAre.getOr_default (hfields : FieldsAre Is written fields)
    (hwritten : written.lookup name = none) (default : α) :
    fields.getOr name default read = .ok default := by
  rw [Fields.getOr, hfields.lookup_eq_none hwritten]

theorem exists_fields_of_forall₂ {ν : Type} {nameOf : ν → Except Problem String}
    {arranged : List (String × Json)} {entries : List (ν × κ)}
    (hentries : List.Forall₂ (fun field entry => nameOf entry.1 = .ok field.1 ∧ Is field.2 entry.2)
      arranged entries) :
    ∃ fields : Fields κ,
      List.Forall₂ (fun entry field => nameOf entry.1 = .ok field.1 ∧ entry.2 = field.2)
        entries fields ∧
      fields.map Prod.fst = arranged.map Prod.fst ∧
      ∀ field ∈ arranged, ∃ y, (field.1, y) ∈ fields ∧ Is field.2 y := by
  induction hentries with
  | nil => exact ⟨[], .nil, rfl, by simp⟩
  | @cons field entry _ _ hfirst _ ih =>
      obtain ⟨fields, hread, hkeys, hjson⟩ := ih
      refine ⟨(field.1, entry.2) :: fields, .cons ⟨hfirst.1, rfl⟩ hread, by simp [hkeys], ?_⟩
      refine List.forall_mem_cons.2
        ⟨⟨entry.2, List.mem_cons_self, hfirst.2⟩, fun other hother => ?_⟩
      obtain ⟨y, hy, hjson⟩ := hjson other hother
      exact ⟨y, List.mem_cons_of_mem _ hy, hjson⟩

/-- A field that is left out where there is nothing to say. -/
theorem lookup_map_toList {β : Type} (key : String) (toJson : β → Json) (o : Option β) :
    (o.toList.map fun x => (key, toJson x)).lookup name =
      if name = key then o.map toJson else none := by
  cases o with
  | none => simp
  | some x =>
      rw [Option.toList_some, List.map_singleton, List.lookup_cons]
      split <;> simp_all

/-- The entries of an object make up a record, in whatever order they stand. -/
theorem exists_isRecord {ν : Type} {nameOf : ν → Except Problem String}
    {arranged : List (String × Json)} {entries : List (ν × κ)} (hnodup : names.Nodup)
    (hnames : (written.map Prod.fst).Sublist names) (hperm : arranged.Perm written)
    (hentries : List.Forall₂ (fun field entry => nameOf entry.1 = .ok field.1 ∧ Is field.2 entry.2)
      arranged entries) :
    ∃ fields, IsRecord names nameOf entries fields ∧ FieldsAre Is written fields := by
  obtain ⟨fields, hread, hkeys, hjson⟩ := exists_fields_of_forall₂ hentries
  have hpermKeys : (fields.map Prod.fst).Perm (written.map Prod.fst) := by
    rw [hkeys]
    exact hperm.map _
  have hdistinct : (fields.map Prod.fst).Nodup :=
    hpermKeys.nodup_iff.2 (hnodup.sublist hnames)
  refine ⟨fields, ⟨hread, fun field hfield => ?_, hdistinct⟩, fun name => ?_⟩
  · exact hnames.subset (hpermKeys.subset (List.mem_map_of_mem hfield))
  · cases hlookup : written.lookup name with
    | none =>
        have hnew : name ∉ fields.map Prod.fst := by
          rw [hpermKeys.mem_iff, ← lookup_isSome_iff, hlookup]
          exact Bool.false_ne_true
        rw [← lookup_isSome_iff, Bool.not_eq_true, Option.isSome_eq_false_iff,
          Option.isNone_iff_eq_none] at hnew
        rw [hnew]
        exact .none
    | some json =>
        have hmem : (name, json) ∈ arranged := hperm.mem_iff.2 (mem_of_lookup_eq_some hlookup)
        obtain ⟨y, hfield, hy⟩ := hjson _ hmem
        rw [(lookup_eq_some_iff_mem_of_nodup hdistinct).2 hfield]
        exact .some hy

end

theorem Node.exists_fields (names : List String) {node : Node} {written : List (String × Json)}
    (hnode : Node.IsJson (.obj written) node) (hnodup : names.Nodup)
    (hnames : (written.map Prod.fst).Sublist names) :
    ∃ fields, node.fields names = .ok fields ∧ FieldsAre Node.IsJson written fields := by
  obtain ⟨arranged, entries, rfl, hperm, hentries⟩ := exists_of_isJson_obj hnode
  obtain ⟨fields, hrecord, hfields⟩ := exists_isRecord hnodup hnames hperm
    (hentries.imp fun field entry hentry => ⟨Node.readsAs_text _ hentry.1, hentry.2⟩)
  exact ⟨fields, Node.fields_mapping_iff.2 hrecord, hfields⟩

theorem FieldsAre.getOr_optional {written : List (String × Json)} {fields : Fields Node}
    (hfields : FieldsAre Node.IsJson written fields) {α : Type} {name : String}
    {read : Node → Except Problem α} (toJson : α → Json) {o : Option α}
    (hwritten : written.lookup name = o.map toJson)
    (hread : ∀ x ∈ o, toJson x ≠ .null ∧ ReadsAs Node.IsJson read (toJson x) x) :
    fields.getOr name none (Node.optional read) = .ok o := by
  cases o with
  | none => exact hfields.getOr_default hwritten none
  | some x =>
      obtain ⟨hjson, hread⟩ := hread x rfl
      exact hfields.getOr hwritten (Node.readsAs_optional_some hjson hread) none

theorem Value.exists_entryFields (names : List String) {entries : List (Value × Value)}
    {written arranged : List (String × Json)} (hperm : arranged.Perm written)
    (hentries : List.Forall₂ Value.IsField arranged entries) (hnodup : names.Nodup)
    (hnames : (written.map Prod.fst).Sublist names) :
    ∃ fields, Value.entryFields names entries = .ok fields ∧
      FieldsAre Value.IsJson written fields := by
  obtain ⟨fields, hrecord, hfields⟩ := exists_isRecord hnodup hnames hperm
    (hentries.imp fun field entry hentry =>
      ⟨show Value.fieldName names entry.1 = .ok field.1 by rw [hentry.1]; rfl, hentry.2⟩)
  exact ⟨fields, Value.entryFields_iff.2 hrecord, hfields⟩

theorem Value.exists_fields (names : List String) {value : Value} {written : List (String × Json)}
    (hvalue : Value.IsJson (.obj written) value) (hnodup : names.Nodup)
    (hnames : (written.map Prod.fst).Sublist names) :
    ∃ fields, value.fields names = .ok fields ∧ FieldsAre Value.IsJson written fields := by
  obtain ⟨arranged, entries, hperm, hentries, rfl⟩ := Value.isJson_obj_iff.1 hvalue
  exact Value.exists_entryFields names hperm hentries hnodup hnames

end WorkflowAudit.Yaml
