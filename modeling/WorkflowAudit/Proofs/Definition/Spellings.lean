import WorkflowAudit.Proofs.Definition.Fields
import WorkflowAudit.Proofs.Yaml.Scalars

/-!
# Keys that are spelled alike

The keys of a mapping are told apart as values, and two of them may still be spelled alike: a
text beside a number or a truth value.  That is the only way.  Numbers that are written alike
are equal, so of the keys with one spelling one is the text and the other one is not.
-/

namespace WorkflowAudit

open Yaml

namespace Yaml

/-- What the values of a document keep: numbers are in lowest form, and no key of a mapping
stands there twice. -/
inductive Value.IsSound : Value → Prop
  | null : IsSound .null
  | bool (value : Bool) : IsSound (.bool value)
  | number {n : Number} (hn : n.IsCanonical) : IsSound (.number n)
  | string (text : String) : IsSound (.string text)
  | sequence {items : List Value} (hitems : ∀ item ∈ items, IsSound item) :
      IsSound (.sequence items)
  | mapping {entries : List (Value × Value)} (hdiffer : KeysDiffer entries)
      (hkeys : ∀ entry ∈ entries, IsSound entry.1)
      (hvalues : ∀ entry ∈ entries, IsSound entry.2) : IsSound (.mapping entries)
  | tagged (tag : String) {value : Value} (hvalue : IsSound value) : IsSound (.tagged tag value)

/-! ## Values of a document -/

theorem isSound_of_integerValue? {text : String} {value : Value}
    (hread : integerValue? text = .ok (some value)) : value.IsSound := by
  unfold integerValue? at hread
  split at hread
  · cases hread
  · next negative magnitude hinteger =>
      split at hread
      · cases hread
        cases negative
        · exact .number trivial
        · exact .number trivial
      · cases hread
      · cases hread

theorem isSound_of_realValue? {text : String} {value : Value}
    (hread : realValue? text = some value) : value.IsSound := by
  obtain ⟨n, hn, rfl⟩ := Option.map_eq_some_iff.1 hread
  exact .number (isCanonical_of_real? hn)

theorem isSound_of_untagged {style : Style} {text : String} {value : Value}
    (hread : scalarValue none style text = .ok value) : value.IsSound := by
  rcases isPlainValue_of_scalarValue hread with rfl | hplain
  · exact .null
  cases hplain with
  | bool => exact .bool _
  | @integer negative magnitude _ _ =>
      cases negative
      · exact .number trivial
      · exact .number trivial
  | real hreal => exact .number (isCanonical_of_real? hreal)
  | string => exact .string text

theorem isSound_of_standardValue {tag : StandardTag} {text : String} {value : Value}
    (hread : tag.value text = .ok value) : value.IsSound := by
  cases tag with
  | bool =>
      simp only [StandardTag.value] at hread
      split at hread
      · next hbool =>
          cases hread
          obtain ⟨truth, -, rfl⟩ := Option.map_eq_some_iff.1 hbool
          exact .bool truth
      · cases hread
  | int =>
      obtain ⟨integer?, hinteger, hread⟩ := bind_eq_ok_iff.1 hread
      cases integer? with
      | none => cases hread
      | some integer =>
          cases hread
          exact isSound_of_integerValue? hinteger
  | float =>
      simp only [StandardTag.value] at hread
      split at hread
      · next hreal =>
          cases hread
          exact isSound_of_realValue? hreal
      · cases hread
  | null =>
      simp only [StandardTag.value] at hread
      split at hread
      · next hnull =>
          cases hread
          split at hnull
          · cases hnull
            exact .null
          · cases hnull
      · cases hread

theorem isSound_of_scalarValue {tag : Option Tag} {style : Style} {text : String} {value : Value}
    (hread : scalarValue tag style text = .ok value) : value.IsSound := by
  have huntagged : ∀ {value},
      (if style = .plain then plainValue text else .ok (.string text)) = .ok value →
        value.IsSound :=
    isSound_of_untagged
  unfold scalarValue at hread
  dsimp only at hread
  split at hread
  · next name _ =>
      cases hinner : (if style = .plain then plainValue text else .ok (.string text)) with
      | error problem =>
          rw [hinner] at hread
          cases hread
      | ok inner =>
          rw [hinner] at hread
          cases hread
          exact .tagged name (huntagged hinner)
  · split at hread
    · exact huntagged hread
    · split at hread
      · exact isSound_of_standardValue hread
      · split at hread
        · exact huntagged hread
        · cases hread
          exact .string text

theorem Value.IsSound.withTag {value : Value} (hvalue : value.IsSound) (tag : Option Tag) :
    (withTag tag value).IsSound := by
  unfold Yaml.withTag
  split
  · exact .tagged _ hvalue
  · exact hvalue

mutual

/-- The value of a tree is sound, and so are its parts. -/
theorem isSound_of_ofNode : ∀ {node : Node} {value : Value}, Value.ofNode node = .ok value →
    value.IsSound
  | .scalar _ _ _, _, hread => isSound_of_scalarValue (by rwa [Value.ofNode] at hread)
  | .sequence tag _, _, hread => by
      rw [Value.ofNode] at hread
      obtain ⟨items, hitems, hread⟩ := bind_eq_ok_iff.1 hread
      cases hread
      exact (Value.IsSound.sequence (isSound_of_valuesOfItems hitems)).withTag tag
  | .mapping tag _, _, hread => by
      rw [Value.ofNode] at hread
      obtain ⟨entries, hentries, hread⟩ := bind_eq_ok_iff.1 hread
      cases hread
      obtain ⟨hkeys, hvalues⟩ := isSound_of_valuesOfEntries hentries
      have hdiffer := (keysDiffer_of_valuesOfEntries hentries).1
      exact (Value.IsSound.mapping hdiffer hkeys hvalues).withTag tag

theorem isSound_of_valuesOfItems : ∀ {nodes : List Node} {items : List Value},
    valuesOfItems nodes = .ok items → ∀ item ∈ items, item.IsSound
  | [], _, hread => by
      rw [valuesOfItems] at hread
      cases hread
      simp
  | _ :: _, _, hread => by
      rw [valuesOfItems] at hread
      obtain ⟨item, hitem, hread⟩ := bind_eq_ok_iff.1 hread
      obtain ⟨rest, hrest, hread⟩ := bind_eq_ok_iff.1 hread
      cases hread
      exact List.forall_mem_cons.2 ⟨isSound_of_ofNode hitem, isSound_of_valuesOfItems hrest⟩

theorem isSound_of_valuesOfEntries : ∀ {seen : List Value} {nodes : List (Node × Node)}
    {entries : List (Value × Value)}, valuesOfEntries seen nodes = .ok entries →
      (∀ entry ∈ entries, entry.1.IsSound) ∧ ∀ entry ∈ entries, entry.2.IsSound
  | _, [], _, hread => by
      rw [valuesOfEntries] at hread
      cases hread
      simp
  | seen, (_, _) :: _, _, hread => by
      rw [valuesOfEntries] at hread
      obtain ⟨key, hkey, hread⟩ := bind_eq_ok_iff.1 hread
      by_cases hrepeated : seen.any (Value.same key) = true
      · simp only [if_pos hrepeated] at hread
        cases hread
      · simp only [if_neg hrepeated] at hread
        obtain ⟨value, hvalue, hread⟩ := bind_eq_ok_iff.1 hread
        obtain ⟨rest, hrest, hread⟩ := bind_eq_ok_iff.1 hread
        cases hread
        obtain ⟨hkeys, hvalues⟩ := isSound_of_valuesOfEntries hrest
        exact ⟨List.forall_mem_cons.2 ⟨isSound_of_ofNode hkey, hkeys⟩,
          List.forall_mem_cons.2 ⟨isSound_of_ofNode hvalue, hvalues⟩⟩

end

/-- A document that is read has a sound value. -/
theorem isSound_of_parse {source : String} {value : Value}
    (hread : Value.parse source = .ok value) : value.IsSound := by
  obtain ⟨node?, -, hread⟩ := bind_eq_ok_iff.1 hread
  cases node? with
  | none =>
      cases hread
      exact .null
  | some node => exact isSound_of_ofNode hread

/-! ## Two keys with one spelling -/

section

variable {entries : List (Value × Value)} {key other : Value} {name : String}

theorem Value.spells_unique {key : Value} {name name' : String} (hspells : key.Spells name)
    (hspells' : key.Spells name') : name = name' :=
  Option.some.inj ((spells_iff.1 hspells).symm.trans (spells_iff.1 hspells'))

/-- Values that are spelled alike and are both no text are the same. -/
theorem Value.same_of_spells (hkey : key.IsSound) (hother : other.IsSound)
    (hspells : key.Spells name) (hspells' : other.Spells name) (htext : key ≠ .string name)
    (htext' : other ≠ .string name) : Value.same other key = true := by
  have hnumeral : ∀ {n : Number} {c : Char}, c ∈ n.text.toList → isNumeral c = true :=
    fun hc => isNumeral_of_mem_text _ hc
  cases hspells with
  | string text => exact absurd rfl htext
  | number n =>
      generalize hname : n.text = name at *
      cases hspells' with
      | string text => exact absurd rfl htext'
      | number m =>
          cases hkey with
          | number hn =>
              cases hother with
              | number hm => exact Number.same_of_text_eq hm hn hname.symm
      | true => exact absurd (@hnumeral n 't' (by rw [hname]; decide)) (by decide)
      | false => exact absurd (@hnumeral n 'l' (by rw [hname]; decide)) (by decide)
  | true =>
      generalize hname : "true" = name at *
      cases hspells' with
      | string text => exact absurd rfl htext'
      | number m => exact absurd (@hnumeral m 't' (by rw [← hname]; decide)) (by decide)
      | true => rfl
      | false => exact absurd hname (by decide)
  | false =>
      generalize hname : "false" = name at *
      cases hspells' with
      | string text => exact absurd rfl htext'
      | number m => exact absurd (@hnumeral m 'l' (by rw [← hname]; decide)) (by decide)
      | true => exact absurd hname (by decide)
      | false => rfl

/-- Two keys of a mapping are spelled `name`: the text, and one that is no text. -/
def SpelledTwice (entries : List (Value × Value)) (name : String) : Prop :=
  ∃ key value other, (.string name, value) ∈ entries ∧ (key, other) ∈ entries ∧
    key.Spells name ∧ key ≠ .string name

/-- A name with a letter that no numeral has is not spelled twice. -/
theorem not_spelledTwice_of_letter {c : Char} (hc : c ∈ name.toList) (hletter : isNumeral c = false)
    (htruth : name ≠ "true") (hfalsity : name ≠ "false") : ¬SpelledTwice entries name := by
  rintro ⟨key, value, other, -, -, hspells, htext⟩
  exact htext ((Value.spells_iff_of_letter hc hletter htruth hfalsity).1 hspells)

variable {entry entry' : Value × Value} {i k : Nat}

/-- Where no name is spelled twice, it is spelled at one position. -/
theorem position_eq_of_spells (hsound : (Value.mapping entries).IsSound)
    (honce : ¬SpelledTwice entries name) (hentry : entries[i]? = some entry)
    (hentry' : entries[k]? = some entry') (hspells : entry.1.Spells name)
    (hspells' : entry'.1.Spells name) : i = k := by
  obtain ⟨key, value⟩ := entry
  obtain ⟨other, value'⟩ := entry'
  have hmem := List.mem_of_getElem? hentry
  have hmem' := List.mem_of_getElem? hentry'
  cases hsound with
  | mapping hdiffer hkeys _ =>
      by_cases htext : key = .string name
      · have htext' : other = .string name := by
          by_contra htext'
          exact honce ⟨other, value, value', htext ▸ hmem, hmem', hspells', htext'⟩
        subst htext htext'
        exact hdiffer.position_eq hentry hentry'
      · have htext' : other ≠ .string name := fun htext' =>
          honce ⟨key, value', value, htext' ▸ hmem', hmem, hspells, htext⟩
        have hkey := hkeys _ hmem
        have hother := hkeys _ hmem'
        exact Nat.le_antisymm
          (Nat.not_lt.1 (hdiffer.not_lt_of_same hentry' hentry
            (Value.same_of_spells hother hkey hspells' hspells htext' htext)))
          (Nat.not_lt.1 (hdiffer.not_lt_of_same hentry hentry'
            (Value.same_of_spells hkey hother hspells hspells' htext htext')))

/-- A name is spelled twice just where it is spelled at two positions. -/
theorem spelledTwice_iff (hsound : (Value.mapping entries).IsSound) :
    SpelledTwice entries name ↔ ∃ (i k : Nat) (entry entry' : Value × Value), i ≠ k ∧
      entries[i]? = some entry ∧ entries[k]? = some entry' ∧ entry.1.Spells name ∧
        entry'.1.Spells name := by
  constructor
  · rintro ⟨key, value, other, hmem, hmem', hspells, htext⟩
    obtain ⟨i, hentry⟩ := List.mem_iff_getElem?.1 hmem
    obtain ⟨k, hentry'⟩ := List.mem_iff_getElem?.1 hmem'
    refine ⟨i, k, _, _, ?_, hentry, hentry', .string name, hspells⟩
    rintro rfl
    rw [hentry] at hentry'
    cases hentry'
    exact htext rfl
  · rintro ⟨i, k, entry, entry', hne, hentry, hentry', hspells, hspells'⟩
    by_contra honce
    exact hne (position_eq_of_spells hsound honce hentry hentry' hspells hspells')

end

end Yaml

namespace Definition

theorem isSound_entriesUnder {entries : Entries} (hsound : (Value.mapping entries).IsSound)
    (key : String) : (Value.mapping (entriesUnder key entries)).IsSound := by
  unfold entriesUnder
  split
  · next nested hgiven =>
      have hmem := Value.mem_of_get?_eq_some (given?_eq_some_iff.1 hgiven).1
      cases hsound with
      | mapping _ _ hvalues => exact hvalues _ hmem
  · exact .mapping .nil (by simp) (by simp)

end Definition

end WorkflowAudit
