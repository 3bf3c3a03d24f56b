import WorkflowAudit.Fault
import WorkflowAudit.Policy.Encoding
import WorkflowAudit.Proofs.Exceptions
import WorkflowAudit.Proofs.Policy.Reading
import WorkflowAudit.Proofs.Yaml.JsonReaders

/-!
# Policies and exceptions survive a round trip

A policy that has been read is written with every default filled in, and what is written is
read as the same policy again.  That holds in whatever order the fields are written and in
whatever style: only the JSON value counts.  The same is true of exceptions, which leave out
what they do not have.
-/

namespace WorkflowAudit

open Yaml

/-! ## Checks -/

theorem AllowedMatch.readsAs (allow : AllowedMatch) :
    ReadsAs Value.IsJson AllowedMatch.ofValue allow.toJson allow := by
  intro value hvalue
  obtain ⟨fields, hfields, hjson⟩ :=
    Value.exists_fields AllowedMatch.fieldNames hvalue (by decide) (List.Sublist.refl _)
  exact AllowedMatch.ofValue_eq_ok_iff.2 ⟨fields, hfields,
    hjson.require rfl (Value.readsAs_text _), hjson.require rfl (Value.readsAs_text _)⟩

theorem PatternSpec.readsAs (spec : PatternSpec) :
    ReadsAs Value.IsJson PatternSpec.ofValue spec.toJson spec := by
  intro value hvalue
  obtain ⟨fields, hfields, hjson⟩ :=
    Value.exists_fields PatternSpec.fieldNames hvalue (by decide) (List.Sublist.refl _)
  refine PatternSpec.ofValue_eq_ok_iff.2 ⟨fields, hfields, ?_, ?_, ?_, ?_⟩
  · exact hjson.require rfl (Value.readsAs_text _)
  · exact hjson.require rfl (Value.readsAs_text _)
  · exact hjson.getOr rfl (Value.readsAs_optionalText _) none
  · exact hjson.getOr rfl (Value.readsAs_listOf fun allow _ => allow.readsAs) []

namespace Check

/-- The greatest number of lines that a check allows a script. -/
def maxLines? : Check → Option Nat
  | .inlineScript maxLines _ => maxLines
  | _ => none

/-- The numbers of a check fit a word. -/
def FitsWords (check : Check) : Prop := ∀ n ∈ check.maxLines?, n < Text.wordLimit

variable {check : Check}

theorem map_fst_entries (check : Check) :
    check.entries.map Prod.fst = fieldNames check.category := by
  cases check <;> rfl

theorem ofFields_of_fieldsAre (hfits : check.FitsWords) {fields : Fields Value}
    (hjson : FieldsAre Value.IsJson check.entries fields) :
    ofFields check.category fields = .ok check := by
  have htexts : ∀ texts : List String,
      ReadsAs Value.IsJson (Value.listOf Value.text) (Json.strings texts) texts :=
    fun texts => Value.readsAs_listOf fun text _ => Value.readsAs_text text
  have hpatterns : ∀ patterns : List PatternSpec,
      ReadsAs Value.IsJson (Value.listOf PatternSpec.ofValue)
        (.arr (patterns.map PatternSpec.toJson)) patterns :=
    fun patterns => Value.readsAs_listOf fun spec _ => spec.readsAs
  cases check with
  | permissions topLevel jobLevel hardeningStep =>
      simp only [category, ofFields, bind_eq_ok_iff, pure_eq_ok]
      exact ⟨topLevel, hjson.getOr rfl (Value.readsAs_flag _) true, jobLevel,
        hjson.getOr rfl (Value.readsAs_flag _) true, hardeningStep,
        hjson.getOr rfl (Value.readsAs_optionalText _) none, rfl⟩
  | shaPinning verify =>
      simp only [category, ofFields, bind_eq_ok_iff, pure_eq_ok]
      exact ⟨verify, hjson.getOr rfl (Value.readsAs_flag _) true, rfl⟩
  | allowlist allowed =>
      simp only [category, ofFields, bind_eq_ok_iff, pure_eq_ok]
      exact ⟨allowed, hjson.require rfl (htexts _), rfl⟩
  | unsafePattern patterns =>
      simp only [category, ofFields, bind_eq_ok_iff, pure_eq_ok]
      exact ⟨patterns, hjson.require rfl (hpatterns _), rfl⟩
  | inlineScript maxLines patterns =>
      simp only [category, ofFields, bind_eq_ok_iff, pure_eq_ok]
      exact ⟨maxLines, hjson.getOr rfl (Value.readsAs_optionalWord hfits) none, patterns,
        hjson.getOr rfl (hpatterns _) [], rfl⟩
  | highRiskTrigger triggers allowed safeguards =>
      simp only [category, ofFields, bind_eq_ok_iff, pure_eq_ok]
      exact ⟨triggers, hjson.require rfl (htexts _), allowed, hjson.getOr rfl (htexts _) [],
        safeguards, hjson.getOr rfl (htexts _) [], rfl⟩
  | artifactPolicy requiredPaths artifactActions appliesTo =>
      simp only [category, ofFields, bind_eq_ok_iff, pure_eq_ok]
      exact ⟨requiredPaths, hjson.require rfl (htexts _), artifactActions,
        hjson.getOr rfl (htexts _) standardArtifactActions, appliesTo,
        hjson.getOr rfl (htexts _) [], rfl⟩
  | dockerPinning => rfl

/-- The category is found wherever it stands, and the other entries are the other fields. -/
theorem exists_splits {category : Category} {written fields : List (String × Json)}
    {entries : List (Node × Node)} (hnames : "category" ∉ written.map Prod.fst)
    (hperm : fields.Perm (("category", .str category.name) :: written))
    (hentries : List.Forall₂ Node.IsField fields entries) :
    ∃ others rest, Splits entries category others ∧ rest.Perm written ∧
      List.Forall₂ Value.IsField rest others := by
  obtain ⟨before, after, rfl⟩ := List.append_of_mem (hperm.mem_iff.2 List.mem_cons_self)
  have hrest : (before ++ after).Perm written := (List.perm_middle.symm.trans hperm).cons_inv
  obtain ⟨first, second, rfl, hbefore, hafter⟩ := exists_of_forall₂_append hentries
  obtain ⟨⟨key, value⟩, last, ⟨hkey, hvalue⟩, hlast, rfl⟩ := List.forall₂_cons_left_iff.1 hafter
  obtain ⟨-, others, hplain, hothers⟩ :=
    Node.forall₂_isField_iff.1 (List.rel_append hbefore hlast)
  refine ⟨others, before ++ after, .intro first ?_ (Node.readsAs_text _ hvalue) hplain ?_, hrest,
    hothers⟩
  · obtain ⟨name, hname, hstr⟩ := hkey.value
    rwa [Value.isJson_str_iff.1 hstr] at hname
  · intro entry hentry hcategory
    obtain ⟨field, hfield, hname, -⟩ := exists_of_mem_of_forall₂ hothers.flip hentry
    rw [hcategory, Value.string.injEq] at hname
    exact hnames (hname ▸ List.mem_map_of_mem (hrest.subset hfield))

theorem readsAs (hfits : check.FitsWords) :
    ReadsAs Node.IsJson Check.ofNode check.toJson check := by
  intro node hnode
  obtain ⟨fields, entries, rfl, hperm, hentries⟩ := Node.exists_of_isJson_obj hnode
  have hnames : "category" ∉ check.entries.map Prod.fst := by
    rw [map_fst_entries]
    exact category_not_mem_fieldNames _
  obtain ⟨others, rest, hsplits, hperm, hothers⟩ := exists_splits hnames hperm hentries
  refine ofNode_mapping_eq_ok_iff.2 ⟨rfl, check.category, others, hsplits, ?_⟩
  split
  · cases check <;> first | rfl | contradiction
  · obtain ⟨fields, hfields, hjson⟩ := Value.exists_entryFields _ hperm hothers
      (nodup_fieldNames check.category) (by rw [map_fst_entries])
    exact ⟨fields, hfields, ofFields_of_fieldsAre hfits hjson⟩

end Check

/-! ## Rules -/

theorem Rule.readsAs {rule : Rule} (hfits : rule.check.FitsWords) :
    ReadsAs Node.IsJson Rule.ofNode rule.toJson rule := by
  intro node hnode
  obtain ⟨fields, hfields, hjson⟩ :=
    Node.exists_fields Rule.fieldNames hnode (by decide) (List.Sublist.refl _)
  refine Rule.ofNode_eq_ok_iff.2 ⟨fields, hfields, ?_, ?_, ?_, ?_⟩
  · exact hjson.require rfl (Node.readsAs_text _)
  · exact hjson.getOr rfl (Node.readsAs_named (Enforcement.ofName?_eq_some_iff.2 rfl)) .enforced
  · exact hjson.getOr rfl (Node.readsAs_optionalText _) none
  · exact hjson.require rfl (Check.readsAs hfits)

theorem Policy.readsAs {policy : Policy} (hfits : ∀ rule ∈ policy.rules, rule.check.FitsWords) :
    ReadsAs Node.IsJson Policy.rulesOfNode policy.toJson policy.rules := by
  intro node hnode
  obtain ⟨fields, hfields, hjson⟩ :=
    Node.exists_fields Policy.fieldNames hnode (by decide) (List.Sublist.refl _)
  rw [Policy.rulesOfNode, hfields]
  exact hjson.getOr rfl (Node.readsAs_items fun rule hrule => Rule.readsAs (hfits rule hrule)) []

/-! ## Exceptions -/

namespace Exemption

/-- The fields of an exception that are written. -/
def written (e : Exemption) : List (String × Json) :=
  [("category", .str e.category.name), ("path", .str e.path)] ++
    (e.job.toList.map fun job => ("job", Json.str job)) ++
    (e.step.toList.map fun step => ("step", Json.ofNat step)) ++
    (e.rule.toList.map fun rule => ("rule", Json.str rule)) ++
    [("rationale", .str e.rationale)]

theorem toJson_eq (e : Exemption) : e.toJson = .obj e.written := rfl

theorem sublist_map_fst_toList {α : Type} (key : String) (toJson : α → Json) (o : Option α) :
    ((o.toList.map fun x => (key, toJson x)).map Prod.fst).Sublist [key] := by
  cases o with
  | none => exact List.nil_sublist _
  | some x => exact List.Sublist.refl _

theorem map_fst_written_sublist (e : Exemption) :
    (e.written.map Prod.fst).Sublist fieldNames := by
  simp only [written, List.map_append]
  exact ((((List.Sublist.refl ["category", "path"]).append (sublist_map_fst_toList ..)).append
    (sublist_map_fst_toList ..)).append (sublist_map_fst_toList ..)).append
      (List.Sublist.refl ["rationale"])

theorem readsAs (e : Exemption) : ReadsAs Node.IsJson Exemption.ofNode e.toJson e := by
  intro node hnode
  rw [toJson_eq] at hnode
  obtain ⟨fields, hfields, hjson⟩ :=
    Node.exists_fields fieldNames hnode (by decide) e.map_fst_written_sublist
  refine ofNode_eq_ok_iff.2 ⟨fields, hfields, ?_, ?_, ?_, ?_, ?_, ?_⟩
  · exact hjson.require rfl (Node.readsAs_named (Category.ofName?_eq_some_iff.2 rfl))
  · exact hjson.require rfl (Node.readsAs_text _)
  · refine hjson.getOr_optional Json.str ?_ fun _ _ => ⟨by simp, Node.readsAs_text _⟩
    simp [written, List.lookup_append, lookup_map_toList, List.lookup_cons]
  · refine hjson.getOr_optional Json.ofNat ?_ fun _ _ =>
      ⟨by simp [Json.ofNat], Node.readsAs_word64 _⟩
    simp [written, List.lookup_append, lookup_map_toList, List.lookup_cons]
  · refine hjson.getOr_optional Json.str ?_ fun _ _ => ⟨by simp, Node.readsAs_text _⟩
    simp [written, List.lookup_append, lookup_map_toList, List.lookup_cons]
  · refine hjson.require ?_ (Node.readsAs_text _)
    simp [written, List.lookup_append, lookup_map_toList, List.lookup_cons]

end Exemption

theorem ExceptionSet.readsAs (set : ExceptionSet) :
    ReadsAs Node.IsJson ExceptionSet.ofNode set.toJson set := by
  intro node hnode
  obtain ⟨fields, hfields, hjson⟩ :=
    Node.exists_fields ExceptionSet.fieldNames hnode (by decide) (List.Sublist.refl _)
  refine bind_eq_ok_iff.2 ⟨fields, hfields, bind_eq_ok_iff.2 ⟨set.exceptions, ?_, rfl⟩⟩
  exact hjson.getOr rfl (Node.readsAs_items fun e _ => Exemption.readsAs e) []

/-! ## What has been read -/

theorem Check.fitsWords_of_ofFields {category : Category} {fields : Fields Value} {check : Check}
    (hread : Check.ofFields category fields = .ok check) : check.FitsWords := by
  intro n hn
  cases check with
  | inlineScript maxLines patterns =>
      obtain rfl : maxLines = some n := hn
      cases category
      case inlineScript =>
        simp only [ofFields, bind_eq_ok_iff, pure_eq_ok] at hread
        obtain ⟨_, hlines, _, -, ⟨⟩⟩ := hread
        obtain ⟨value, hvalue⟩ := Fields.exists_of_getOr_none hlines
        exact Value.lt_of_word64 (Value.eq_ok_of_optional hvalue)
      all_goals simp [ofFields, bind_eq_ok_iff, pure_eq_ok] at hread
  | _ => cases hn

theorem Check.fitsWords_of_ofNode {node : Node} {check : Check}
    (hread : Check.ofNode node = .ok check) : check.FitsWords := by
  cases node with
  | scalar => cases hread
  | mapping tag entries =>
      obtain ⟨-, category, others, -, hcheck⟩ := ofNode_mapping_eq_ok_iff.1 hread
      split at hcheck
      · subst hcheck
        intro n hn
        cases hn
      · obtain ⟨fields, -, hfields⟩ := hcheck
        exact fitsWords_of_ofFields hfields
  | sequence tag items =>
      cases items with
      | nil => cases hread
      | cons first rest =>
          rw [ofNode] at hread
          split at hread
          · cases hread
          · simp only [bind_eq_ok_iff] at hread
            obtain ⟨category, -, items, -, fields, -, hfields⟩ := hread
            exact fitsWords_of_ofFields hfields

theorem Rule.fitsWords_of_ofNode {node : Node} {rule : Rule} (hread : Rule.ofNode node = .ok rule) :
    rule.check.FitsWords := by
  obtain ⟨fields, -, -, -, -, hcheck⟩ := Rule.ofNode_eq_ok_iff.1 hread
  obtain ⟨value, hvalue⟩ := Fields.exists_of_require hcheck
  exact Check.fitsWords_of_ofNode hvalue

theorem Exemption.lt_of_ofNode {node : Node} {e : Exemption}
    (hread : Exemption.ofNode node = .ok e) : ∀ n ∈ e.step, n < Text.wordLimit := by
  intro n hn
  obtain ⟨fields, -, -, -, -, hstep, -⟩ := Exemption.ofNode_eq_ok_iff.1 hread
  rw [Option.mem_def.1 hn] at hstep
  obtain ⟨value, hvalue⟩ := Fields.exists_of_getOr_none hstep
  exact Node.lt_of_word64 (Node.eq_ok_of_optional hvalue)

/-- The rules of a document that is read fit words. -/
theorem Policy.fitsWords_of_rulesOf {source : String} {rules : List Rule}
    (hread : Policy.rulesOf source = .ok rules) : ∀ rule ∈ rules, rule.check.FitsWords := by
  obtain ⟨document?, hparse, hread⟩ := bind_eq_ok_iff.1 hread
  cases document? with
  | none =>
      cases hread
      exact List.forall_mem_nil _
  | some document =>
      obtain ⟨fields, -, hrules⟩ := bind_eq_ok_iff.1 hread
      intro rule hrule
      obtain ⟨node, hnode⟩ := Node.exists_of_mem_items hrules hrule
      exact Rule.fitsWords_of_ofNode hnode

theorem ExceptionSet.lt_of_ofText {source : String} {set : ExceptionSet}
    (hread : ExceptionSet.ofText source = .ok set) :
    ∀ e ∈ set.exceptions, ∀ n ∈ e.step, n < Text.wordLimit := by
  obtain ⟨document?, hparse, hread⟩ := bind_eq_ok_iff.1 hread
  cases document? with
  | none =>
      cases hread
      exact List.forall_mem_nil _
  | some document =>
      obtain ⟨fields, -, hread⟩ := bind_eq_ok_iff.1 hread
      obtain ⟨exceptions, hexceptions, ⟨⟩⟩ := bind_eq_ok_iff.1 hread
      intro e he
      obtain ⟨node, hnode⟩ := Node.exists_of_mem_items hexceptions he
      exact Exemption.lt_of_ofNode hnode

/-! ## What can be written -/

section

open Node (exists_isJson_str exists_isJson_bool exists_isJson_list exists_isJson_obj
  exists_isJson_ofOption)

theorem exists_isJson_strings (texts : List String) :
    ∃ node, Node.IsJson (Json.strings texts) node :=
  exists_isJson_list fun text _ => exists_isJson_str text

theorem exists_isJson_optionalText (o : Option String) :
    ∃ node, Node.IsJson (Json.ofOption (o.map .str)) node :=
  exists_isJson_ofOption fun text _ => exists_isJson_str text

theorem AllowedMatch.exists_isJson (allow : AllowedMatch) :
    ∃ node, Node.IsJson allow.toJson node :=
  exists_isJson_obj (by simp [exists_isJson_str])

theorem PatternSpec.exists_isJson (spec : PatternSpec) : ∃ node, Node.IsJson spec.toJson node := by
  have hallow : ∃ node, Node.IsJson (.arr (spec.allow.map AllowedMatch.toJson)) node :=
    exists_isJson_list fun allow _ => allow.exists_isJson
  exact exists_isJson_obj (by simp [exists_isJson_str, exists_isJson_optionalText, hallow])

theorem Check.exists_isJson {check : Check} (hfits : check.FitsWords) :
    ∃ node, Node.IsJson check.toJson node := by
  have hpatterns : ∀ patterns : List PatternSpec,
      ∃ node, Node.IsJson (.arr (patterns.map PatternSpec.toJson)) node :=
    fun patterns => exists_isJson_list fun spec _ => spec.exists_isJson
  refine exists_isJson_obj (List.forall_mem_cons.2 ⟨exists_isJson_str _, ?_⟩)
  cases check with
  | inlineScript maxLines patterns =>
      have hlines : ∃ node, Node.IsJson (Json.ofOption (maxLines.map Json.ofNat)) node :=
        exists_isJson_ofOption fun n hn => Node.exists_isJson_ofNat (hfits n hn)
      simp [entries, hlines, hpatterns]
  | _ =>
      simp [entries, exists_isJson_bool, exists_isJson_strings, exists_isJson_optionalText,
        hpatterns]

theorem Rule.exists_isJson {rule : Rule} (hfits : rule.check.FitsWords) :
    ∃ node, Node.IsJson rule.toJson node :=
  exists_isJson_obj (by
    simp [exists_isJson_str, exists_isJson_optionalText, Check.exists_isJson hfits])

theorem Policy.exists_isJson {policy : Policy}
    (hfits : ∀ rule ∈ policy.rules, rule.check.FitsWords) :
    ∃ node, Node.IsJson policy.toJson node := by
  have hrules : ∃ node, Node.IsJson (.arr (policy.rules.map Rule.toJson)) node :=
    exists_isJson_list fun rule hrule => Rule.exists_isJson (hfits rule hrule)
  exact exists_isJson_obj (by simp [hrules])

theorem Exemption.exists_isJson {e : Exemption} (hfits : ∀ n ∈ e.step, n < Text.wordLimit) :
    ∃ node, Node.IsJson e.toJson node := by
  refine exists_isJson_obj fun field hfield => ?_
  simp only [List.mem_append, List.mem_cons, List.not_mem_nil, or_false, List.mem_map,
    Option.mem_toList] at hfield
  obtain ((((rfl | rfl) | ⟨job, -, rfl⟩) | ⟨step, hstep, rfl⟩) | ⟨rule, -, rfl⟩) | rfl := hfield
  · exact exists_isJson_str _
  · exact exists_isJson_str _
  · exact exists_isJson_str job
  · exact Node.exists_isJson_ofNat (hfits step hstep)
  · exact exists_isJson_str rule
  · exact exists_isJson_str _

theorem ExceptionSet.exists_isJson {set : ExceptionSet}
    (hfits : ∀ e ∈ set.exceptions, ∀ n ∈ e.step, n < Text.wordLimit) :
    ∃ node, Node.IsJson set.toJson node := by
  have hexceptions : ∃ node, Node.IsJson (.arr (set.exceptions.map Exemption.toJson)) node :=
    exists_isJson_list fun e he => Exemption.exists_isJson (hfits e he)
  exact exists_isJson_obj (by simp [hexceptions])

end

/-! ## Round trips -/

namespace Policy

/-- Validates the rules of a document. -/
def validated (rules : Except Problem (List Rule)) (origin : String) : Except Fault Policy :=
  match rules with
  | .error problem => .error (.configuration origin (.unreadable problem))
  | .ok rules =>
      let policy : Policy := ⟨rules, origin⟩
      match policy.fault? with
      | some fault => .error (.configuration origin (.policy fault))
      | none => .ok policy

/-- Decodes and validates a policy. -/
def decode (document : Node) (origin : String) : Except Fault Policy :=
  validated (rulesOfNode document) origin

variable {origin source : String} {policy : Policy}

theorem parse_eq_validated : parse source origin = validated (rulesOf source) origin := rfl

theorem parse_eq_decode {document : Node} (hparse : Node.parse? source = .ok (some document)) :
    parse source origin = decode document origin := by
  rw [parse_eq_validated, rulesOf_eq_rulesOfNode hparse, decode]

theorem validated_eq_ok_iff {rules : Except Problem (List Rule)} :
    validated rules origin = .ok policy ↔
      rules = .ok policy.rules ∧ policy.source = origin ∧ policy.fault? = none := by
  unfold validated
  split
  · simp
  next rules =>
    dsimp only
    constructor
    · intro hread
      split at hread
      · cases hread
      next hvalid =>
        cases hread
        exact ⟨rfl, rfl, hvalid⟩
    · rintro ⟨⟨⟩, rfl, hvalid⟩
      rw [hvalid]

end Policy

namespace ExceptionSet

/-- Validates the exceptions of a document. -/
def validated (read : Except Problem ExceptionSet) (origin : String) : Except Fault ExceptionSet :=
  match read with
  | .error problem => .error (.configuration origin (.unreadable problem))
  | .ok set =>
      match set.fault? with
      | some fault => .error (.configuration origin (.exceptions fault))
      | none => .ok set

/-- Decodes and validates exceptions. -/
def decode (document : Node) (origin : String) : Except Fault ExceptionSet :=
  validated (ofNode document) origin

variable {origin source : String} {set : ExceptionSet}

theorem parse_eq_validated : parse source origin = validated (ofText source) origin := rfl

theorem parse_eq_decode {document : Node} (hparse : Node.parse? source = .ok (some document)) :
    parse source origin = decode document origin := by
  rw [parse_eq_validated, ofText_eq_ofNode hparse, decode]

theorem validated_eq_ok_iff {read : Except Problem ExceptionSet} :
    validated read origin = .ok set ↔ read = .ok set ∧ set.fault? = none := by
  unfold validated
  split
  · simp
  next found =>
    constructor
    · intro hread
      split at hread
      · cases hread
      next hvalid =>
        cases hread
        exact ⟨rfl, hvalid⟩
    · rintro ⟨⟨⟩, hvalid⟩
      rw [hvalid]

end ExceptionSet

/-- What is written of a document that has been read is a document that is read as the same. -/
theorem documents_survive_round_trips (source origin : String) :
    (∀ policy, Policy.parse source origin = .ok policy →
      (∃ document, Node.IsJson policy.toJson document) ∧
      ∀ document, Node.IsJson policy.toJson document →
        Policy.decode document origin = .ok policy ∧
        ∀ text, Node.parse? text = .ok (some document) →
          Policy.parse text origin = .ok policy) ∧
    (∀ set, ExceptionSet.parse source origin = .ok set →
      (∃ document, Node.IsJson set.toJson document) ∧
      ∀ document, Node.IsJson set.toJson document →
        ExceptionSet.decode document origin = .ok set ∧
        ∀ text, Node.parse? text = .ok (some document) →
          ExceptionSet.parse text origin = .ok set) := by
  constructor
  · intro policy hpolicy
    obtain ⟨hrules, rfl, hvalid⟩ := Policy.validated_eq_ok_iff.1 hpolicy
    have hfits := Policy.fitsWords_of_rulesOf hrules
    refine ⟨Policy.exists_isJson hfits, fun document hdocument => ?_⟩
    have hdecode : Policy.decode document policy.source = .ok policy :=
      Policy.validated_eq_ok_iff.2 ⟨Policy.readsAs hfits hdocument, rfl, hvalid⟩
    exact ⟨hdecode, fun text htext => (Policy.parse_eq_decode htext).trans hdecode⟩
  · intro set hset
    obtain ⟨hread, hvalid⟩ := ExceptionSet.validated_eq_ok_iff.1 hset
    have hfits := ExceptionSet.lt_of_ofText hread
    refine ⟨ExceptionSet.exists_isJson hfits, fun document hdocument => ?_⟩
    have hdecode : ExceptionSet.decode document origin = .ok set :=
      ExceptionSet.validated_eq_ok_iff.2 ⟨set.readsAs hdocument, hvalid⟩
    exact ⟨hdecode, fun text htext => (ExceptionSet.parse_eq_decode htext).trans hdecode⟩

theorem documents_survive_round_trips_defaults :
    (∃ policy document,
      Policy.parse
        ("rules:\n" ++
          "- \x7bid: a, mode: advisory, check: \x7bcategory: inline_script, max_lines: 3\x7d\x7d\n" ++
          "- \x7bid: b, check: \x7bcategory: artifact_policy, required_paths: [d]\x7d\x7d\n") "a.yml" =
          .ok policy ∧
      policy.rules.map Rule.check =
        [.inlineScript (some 3) [], .artifactPolicy ["d"] ["actions/upload-artifact"] []] ∧
      Node.IsJson policy.toJson document ∧ Policy.decode document "a.yml" = .ok policy) ∧
    ∃ set document,
      ExceptionSet.parse
        "exceptions: [\x7bcategory: permissions, path: p, step: 1, rationale: r\x7d]" "b.yml" =
          .ok set ∧
      set.exceptions.length = 1 ∧
      Node.IsJson set.toJson document ∧ ExceptionSet.decode document "b.yml" = .ok set := by
  constructor
  · have hpolicy : Policy.parse
        ("rules:\n" ++
          "- \x7bid: a, mode: advisory, check: \x7bcategory: inline_script, max_lines: 3\x7d\x7d\n" ++
          "- \x7bid: b, check: \x7bcategory: artifact_policy, required_paths: [d]\x7d\x7d\n") "a.yml" =
        .ok ⟨[⟨"a", .advisory, none, .inlineScript (some 3) []⟩,
          ⟨"b", .enforced, none, .artifactPolicy ["d"] ["actions/upload-artifact"] []⟩],
          "a.yml"⟩ := by
      decide +kernel
    obtain ⟨⟨document, hdocument⟩, hread⟩ :=
      (documents_survive_round_trips _ "a.yml").1 _ hpolicy
    exact ⟨_, document, hpolicy, rfl, hdocument, (hread document hdocument).1⟩
  · have hset : ExceptionSet.parse
        "exceptions: [\x7bcategory: permissions, path: p, step: 1, rationale: r\x7d]" "b.yml" =
        .ok ⟨[⟨.permissions, "p", none, some 1, none, "r"⟩]⟩ := by
      decide +kernel
    obtain ⟨⟨document, hdocument⟩, hread⟩ := (documents_survive_round_trips _ "b.yml").2 _ hset
    exact ⟨_, document, hset, rfl, hdocument, (hread document hdocument).1⟩

end WorkflowAudit
