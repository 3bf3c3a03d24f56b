import WorkflowAudit.Proofs.Outcome
import WorkflowAudit.Proofs.Yaml.NumberText
import WorkflowAudit.Yaml.Value

/-!
# Plain scalars

A plain scalar is read as null, as a truth value, as a number or as its own text.  The digits
that a number is written with are read as that number.
-/

namespace WorkflowAudit.Yaml

open Text

/-- The values other than null that a plain scalar can be read as. -/
inductive IsPlainValue (text : String) : Value → Prop where
  | bool {value : Bool} (hbool : bool? text = some value) : IsPlainValue text (.bool value)
  | integer {negative : Bool} {magnitude : Nat}
      (hinteger : integer? text.toList = some (negative, magnitude))
      (hfit : integerFit negative magnitude = .word) :
      IsPlainValue text (.number (.ofSign negative magnitude))
  | real {number : Number} (hreal : real? text.toList = some number) :
      IsPlainValue text (.number number)
  | string : IsPlainValue text (.string text)

variable {text : String} {value : Value} {style : Style}

theorem plainValue_of_isNull (hnull : (text.isEmpty || null? text) = true) :
    plainValue text = .ok .null := by
  rw [plainValue, if_pos hnull]
  rfl

theorem isPlainValue_of_plainValue (hread : plainValue text = .ok value)
    (hnull : (text.isEmpty || null? text) = false) : IsPlainValue text value := by
  rw [plainValue, if_neg (by simp [hnull])] at hread
  split at hread
  next hbool =>
    cases hread
    exact .bool hbool
  obtain ⟨integer?, hinteger, hread⟩ := bind_eq_ok_iff.1 hread
  cases integer? with
  | some integer =>
      cases hread
      unfold integerValue? at hinteger
      split at hinteger
      · cases hinteger
      next negative magnitude hfound =>
        split at hinteger
        next hfit =>
          cases hinteger
          exact .integer hfound hfit
        · cases hinteger
        · cases hinteger
  | none =>
      dsimp only at hread
      split at hread
      · cases hread
        exact .string
      · cases hread
        cases hreal : realValue? text with
        | none => exact .string
        | some real =>
            obtain ⟨number, hnumber, rfl⟩ := Option.map_eq_some_iff.1 hreal
            exact .real hnumber

/-- A plain scalar without a tag is null where it is spelled so, and only there. -/
theorem plainValue_eq_null_iff :
    plainValue text = .ok .null ↔ (text.isEmpty || null? text) = true := by
  refine ⟨fun hread => ?_, plainValue_of_isNull⟩
  cases hnull : text.isEmpty || null? text with
  | true => rfl
  | false => nomatch isPlainValue_of_plainValue hread hnull

theorem scalarValue_none :
    scalarValue none style text =
      if style = .plain then plainValue text else .ok (.string text) :=
  rfl

theorem isPlainValue_of_scalarValue (hread : scalarValue none style text = .ok value) :
    value = .null ∨ IsPlainValue text value := by
  rw [scalarValue_none] at hread
  split at hread
  · cases hnull : text.isEmpty || null? text with
    | true =>
        rw [plainValue_of_isNull hnull] at hread
        exact .inl (Except.ok.inj hread).symm
    | false => exact .inr (isPlainValue_of_plainValue hread hnull)
  · cases hread
    exact .inr .string

/-- A scalar that is read as a text is that text. -/
theorem eq_of_scalarValue_string {written : String}
    (hread : scalarValue none style written = .ok (.string text)) : written = text := by
  rcases isPlainValue_of_scalarValue hread with hnull | hplain
  · cases hnull
  · cases hplain
    rfl

theorem style_eq_plain_of_scalarValue (hread : scalarValue none style text = .ok value)
    (hvalue : ∀ text, value ≠ .string text) : style = .plain := by
  by_contra hstyle
  rw [scalarValue_none, if_neg hstyle] at hread
  exact hvalue text (Except.ok.inj hread).symm

theorem not_natural_of_real? {chars : List Char} {n : Nat} :
    real? chars ≠ some (.natural n) := by
  unfold real?
  dsimp only
  split
  · simp
  · split
    · simp
    · simp

theorem integerFit_false_eq_word_iff {n : Nat} :
    integerFit false n = .word ↔ n < wordLimit := by
  unfold integerFit wordLimit
  simp only [Bool.false_eq_true, if_false]
  split
  next hfits => simp only [hfits]
  next hfits =>
    simp only [hfits, iff_false]
    split <;> simp

/-- A scalar that is read as a natural number is one that a word can hold. -/
theorem integer?_of_plainValue {n : Nat} (hread : plainValue text = .ok (.number (.natural n))) :
    integer? text.toList = some (false, n) ∧ n < wordLimit := by
  have hnull : (text.isEmpty || null? text) = false := by
    rw [← Bool.not_eq_true, ← plainValue_eq_null_iff, hread]
    exact nofun
  generalize hvalue : Value.number (.natural n) = value at hread
  cases isPlainValue_of_plainValue hread hnull with
  | bool => cases hvalue
  | string => cases hvalue
  | real hreal =>
      cases hvalue
      exact absurd hreal not_natural_of_real?
  | @integer negative magnitude hinteger hfit =>
      cases negative with
      | true => cases hvalue
      | false =>
          cases hvalue
          exact ⟨hinteger, integerFit_false_eq_word_iff.1 hfit⟩

/-! ## Numbers in digits -/

theorem basedDigits?_of_denotes {digits : List Char} {n : Nat} (hdigits : Denotes digits n) :
    basedDigits? digits = none := by
  unfold basedDigits?
  split
  · exact absurd (hdigits.decimal 'x' (by simp)) (by decide)
  · exact absurd (hdigits.decimal 'o' (by simp)) (by decide)
  · exact absurd (hdigits.decimal 'b' (by simp)) (by decide)
  · rfl

theorem hasIdleZero_toDigits (n : Nat) : hasIdleZero (Nat.toDigits 10 n) = false := by
  rcases Nat.eq_zero_or_pos n with rfl | hpos
  · rfl
  have hhead := head?_toDigits_ne_zero hpos
  unfold hasIdleZero
  split
  next heq => rw [heq] at hhead; exact absurd rfl hhead
  · rfl

theorem integer?_toDigits (n : Nat) : integer? (Nat.toDigits 10 n) = some (false, n) := by
  have hdigits := denotes_toDigits n
  rw [integer?, splitSign_of_denotes hdigits]
  simp only [basedDigits?_of_denotes hdigits, hasIdleZero_toDigits, Bool.false_eq_true, if_false,
    hdigits.natOfDigits?, Option.map_some]
  rfl

/-- A text of digits is none of some words that have other characters. -/
theorem contains_eq_false_of_digits {words : List String}
    (hwords : ∀ word ∈ words, word.toList.all isDecimalDigit = false)
    (hdigit : text.toList.all isDecimalDigit = true) : words.contains text = false := by
  rw [← Bool.not_eq_true, List.contains_iff_mem]
  intro hmem
  rw [hwords text hmem] at hdigit
  cases hdigit

theorem plainValue_toString {n : Nat} (hn : n < wordLimit) :
    plainValue (toString n) = .ok (.number (.natural n)) := by
  have htext : (toString n).toList = Nat.toDigits 10 n := Nat.toList_repr
  have hdigit : (toString n).toList.all isDecimalDigit = true := by
    rw [htext, List.all_eq_true]
    exact (denotes_toDigits n).decimal
  have hempty : (toString n).isEmpty = false := by
    rw [← Bool.not_eq_true, String.isEmpty_iff, ← String.toList_eq_nil_iff, htext]
    exact Nat.toDigits_ne_nil
  have hnull : null? (toString n) = false := contains_eq_false_of_digits (by decide) hdigit
  have hbool : bool? (toString n) = none := by
    rw [bool?, contains_eq_false_of_digits (by decide) hdigit,
      contains_eq_false_of_digits (by decide) hdigit]
    rfl
  rw [plainValue, hempty, hnull, hbool]
  dsimp only
  rw [integerValue?, htext, integer?_toDigits]
  dsimp only
  rw [integerFit_false_eq_word_iff.2 hn]
  rfl

end WorkflowAudit.Yaml
