import WorkflowAudit.Proofs.Decimal.Shortest
import WorkflowAudit.Proofs.Text.Numerals
import WorkflowAudit.Proofs.Text.Pieces
import WorkflowAudit.Yaml.Number

/-!
# The texts of numbers

A decimal is written in one of four shapes, and the reader finds the same value in each of
them.  So two numbers that are written alike are equal, up to the sign of a zero: integers
have digits only, a finite decimal number has a point or an exponent, and each of them is
written with digits that tell which number it is.
-/

namespace WorkflowAudit.Yaml

open Text Decimal

/-! ## Reading a decimal -/

/-- The decimal that an unsigned text is read as. -/
def digitsOf? (text : List Char) : Option Digits := do
  let whole := text.takeWhile isDecimalDigit
  let (fraction, rest) := match text.drop whole.length with
    | '.' :: rest => (rest.takeWhile isDecimalDigit, rest.dropWhile isDecimalDigit)
    | rest => ([], rest)
  let coefficient ← natOfDigits? 10 (whole ++ fraction)
  let exponent ← exponent? rest
  return ⟨coefficient, exponent - fraction.length⟩

theorem decimal?_eq (negative : Bool) (text : List Char) :
    decimal? negative text =
      (digitsOf? text).bind fun d => Binary64.ofDecimal? negative d.coefficient d.exponent := by
  symm
  refine (Option.bind_assoc _ _ _).trans (Option.bind_congr fun coefficient _ => ?_)
  exact Option.bind_assoc _ _ _

variable {digits whole fraction rest : List Char} {coefficient : Nat} {exponent : Int}

theorem digitsOf?_point (hdigits : Denotes (whole ++ fraction) coefficient)
    (hrest : rest.takeWhile isDecimalDigit = []) (hexponent : exponent? rest = some exponent) :
    digitsOf? (whole ++ '.' :: (fraction ++ rest)) =
      some ⟨coefficient, exponent - fraction.length⟩ := by
  obtain ⟨hwhole, hfraction⟩ := List.forall_mem_append.1 hdigits.decimal
  have hdrop : rest.dropWhile isDecimalDigit = rest := by
    rw [← drop_length_takeWhile, hrest, List.length_nil, List.drop_zero]
  have hpoint : ('.' :: (fraction ++ rest)).takeWhile isDecimalDigit = [] := rfl
  rw [digitsOf?, List.takeWhile_append_of_pos hwhole, hpoint, List.append_nil, List.drop_left]
  simp only [List.takeWhile_append_of_pos hfraction, List.dropWhile_append_of_pos hfraction, hrest,
    hdrop, List.append_nil, hdigits.natOfDigits?, hexponent, Option.bind_eq_bind, Option.bind_some,
    Option.pure_def]

theorem digitsOf?_whole (hdigits : Denotes digits coefficient)
    (hrest : rest.takeWhile isDecimalDigit = []) (hpoint : rest.head? ≠ some '.')
    (hexponent : exponent? rest = some exponent) :
    digitsOf? (digits ++ rest) = some ⟨coefficient, exponent⟩ := by
  rw [digitsOf?, List.takeWhile_append_of_pos hdigits.decimal, hrest, List.append_nil,
    List.drop_left]
  split
  next fraction after heq =>
  obtain ⟨rfl, rfl⟩ : fraction = [] ∧ after = rest := by
    split at heq
    · exact absurd rfl hpoint
    · exact ⟨(Prod.mk.inj heq).1.symm, (Prod.mk.inj heq).2.symm⟩
  simp only [List.append_nil, hdigits.natOfDigits?, hexponent, Option.bind_eq_bind,
    Option.bind_some, Option.pure_def, List.length_nil, Nat.cast_zero, Int.sub_zero]

theorem splitSign_of_denotes (hdigits : Denotes digits coefficient) :
    splitSign digits = (none, digits) := by
  unfold splitSign
  split
  · exact absurd (hdigits.decimal '-' List.mem_cons_self) (by decide)
  · exact absurd (hdigits.decimal '+' List.mem_cons_self) (by decide)
  · rfl

/-- An exponent is read back. -/
theorem exponent?_toString (n : Int) : exponent? ('e' :: (toString n).toList) = some n := by
  rw [exponent?, if_pos (by decide), Int.toString_eq_repr, Int.repr_eq_if]
  by_cases hn : 0 ≤ n
  · rw [if_pos hn, Nat.toList_repr, splitSign_of_denotes (denotes_toDigits _)]
    simp only [(denotes_toDigits _).natOfDigits?, Option.bind_eq_bind, Option.bind_some,
      Option.pure_def, Option.map_some, Int.toNat_of_nonneg hn]
    rfl
  · have hsign : ("-" ++ (-n).toNat.repr).toList = '-' :: Nat.toDigits 10 (-n).toNat := by
      rw [String.toList_append, Nat.toList_repr]
      rfl
    rw [if_neg hn, hsign]
    simp only [splitSign, (denotes_toDigits _).natOfDigits?, Option.bind_eq_bind, Option.bind_some,
      Option.pure_def, Option.map_some, if_true]
    exact congrArg some (by omega)

/-! ## Writing a decimal -/

/-- Zeros behind the digits, and one behind the point. -/
theorem digitsOf?_zeros_behind (hdigits : Denotes digits coefficient) (count : Nat) :
    digitsOf? (digits ++ List.replicate count '0' ++ ['.', '0']) =
      some ⟨10 ^ (count + 1) * coefficient, -1⟩ := by
  have hall := hdigits.zeros_behind (count + 1)
  rw [List.replicate_succ', ← List.append_assoc] at hall
  exact @digitsOf?_point _ ['0'] [] _ 0 hall rfl rfl

/-- The point stands between the digits. -/
theorem digitsOf?_take_drop (hdigits : Denotes digits coefficient) (count : Nat) :
    digitsOf? (digits.take count ++ '.' :: digits.drop count) =
      some ⟨coefficient, -(digits.length - count : Nat)⟩ := by
  have hall : Denotes (digits.take count ++ digits.drop count) coefficient := by
    rwa [List.take_append_drop]
  have hread := @digitsOf?_point _ _ [] _ 0 hall rfl rfl
  rwa [List.append_nil, List.length_drop, Int.zero_sub] at hread

/-- Zeros stand between the point and the digits. -/
theorem digitsOf?_zeros_before (hdigits : Denotes digits coefficient) (count : Nat) :
    digitsOf? (['0', '.'] ++ List.replicate count '0' ++ digits) =
      some ⟨coefficient, -(count + digits.length : Nat)⟩ := by
  have hall := hdigits.zeros_before (count + 1)
  have hread := @digitsOf?_point ['0'] (List.replicate count '0' ++ digits) [] _ 0 hall rfl rfl
  rwa [List.append_nil, List.length_append, List.length_replicate, Int.zero_sub] at hread

theorem value_shift (coefficient count : Nat) (exponent : Int) :
    Digits.value ⟨10 ^ count * coefficient, exponent - count⟩ =
      Digits.value ⟨coefficient, exponent⟩ := by
  rw [Digits.value, Digits.value, zpow_sub₀ (by norm_num), zpow_natCast]
  push_cast
  field_simp

/-- Whatever shape a decimal is written in, its value is read back. -/
theorem exists_digitsOf?_decimalText (d : Digits) :
    ∃ read, digitsOf? (decimalText d) = some read ∧ read.value = d.value := by
  obtain ⟨coefficient, exponent⟩ := d
  have hdigits := denotes_toDigits coefficient
  unfold decimalText
  dsimp only
  generalize Nat.toDigits 10 coefficient = digits at hdigits ⊢
  simp only [Bool.and_eq_true, decide_eq_true_iff]
  by_cases hwhole : 0 ≤ exponent ∧ (digits.length : Int) + exponent ≤ 16
  · rw [if_pos hwhole]
    refine ⟨_, digitsOf?_zeros_behind hdigits _, ?_⟩
    rw [← value_shift coefficient (exponent.toNat + 1) exponent]
    congr 2
    omega
  rw [if_neg hwhole]
  by_cases hinner : 0 < (digits.length : Int) + exponent ∧ (digits.length : Int) + exponent ≤ 16
  · rw [if_pos hinner]
    refine ⟨_, digitsOf?_take_drop hdigits _, ?_⟩
    congr 2
    omega
  rw [if_neg hinner]
  by_cases hleading : -5 < (digits.length : Int) + exponent ∧ (digits.length : Int) + exponent ≤ 0
  · rw [if_pos hleading]
    refine ⟨_, digitsOf?_zeros_before hdigits _, ?_⟩
    congr 2
    omega
  rw [if_neg hleading]
  have hexponent := exponent?_toString ((digits.length : Int) + exponent - 1)
  match digits, hdigits with
  | [], hdigits => exact absurd rfl hdigits.ne_nil
  | [first], hdigits =>
      refine ⟨_, digitsOf?_whole hdigits rfl (by simp) hexponent, ?_⟩
      congr 2
      simp
  | first :: second :: rest, hdigits =>
      refine ⟨_, @digitsOf?_point [first] _ _ _ _ hdigits rfl hexponent, ?_⟩
      congr 2
      simp only [List.length_cons]
      omega

/-- Decimals that are written alike have one value. -/
theorem value_eq_of_decimalText_eq {d d' : Digits} (heq : decimalText d = decimalText d') :
    d.value = d'.value := by
  obtain ⟨read, hread, hvalue⟩ := exists_digitsOf?_decimalText d
  obtain ⟨read', hread', hvalue'⟩ := exists_digitsOf?_decimalText d'
  rw [heq, hread'] at hread
  cases hread
  exact hvalue.symm.trans hvalue'

/-! ## Kinds of numbers by their texts -/

inductive NumberKind where
  | integer
  | real
  | infinite
  | notANumber
  deriving DecidableEq

/-- The kind of number that an unsigned text shows: digits only, the letters of `inf` or those
of `nan`, or none of these. -/
def NumberKind.shown (text : List Char) : NumberKind :=
  if text.all isDecimalDigit then .integer
  else if text.contains 'f' then .infinite
  else if text.contains 'n' then .notANumber
  else .real

namespace Number

def kind : Number → NumberKind
  | .natural _ | .minus _ => .integer
  | .real _ => .real
  | .infinite _ => .infinite
  | .notANumber => .notANumber

/-- Whether a number is written with a minus sign. -/
def isNegative : Number → Bool
  | .natural _ | .minus 0 | .notANumber => false
  | .minus (_ + 1) => true
  | .real value => value.negative
  | .infinite negative => negative

/-- What is written behind the sign. -/
def unsignedText : Number → List Char
  | .natural value | .minus value => Nat.toDigits 10 value
  | .real value => decimalText value.shortest
  | .infinite _ => ['.', 'i', 'n', 'f']
  | .notANumber => ['.', 'n', 'a', 'n']

theorem toList_text (n : Number) :
    n.text.toList = (if n.isNegative then ['-'] else []) ++ n.unsignedText := by
  unfold text
  split
  · exact Nat.toList_repr
  · rfl
  · next magnitude hpositive =>
      cases magnitude with
      | zero => exact absurd rfl hpositive
      | succ magnitude =>
          rw [String.toList_append, Nat.toString_eq_repr, Nat.toList_repr]
          rfl
  · rw [String.toList_ofList]
    rfl
  · next negative =>
      cases negative <;> decide
  · decide

end Number

/-- Decimal digits and the marks of a decimal. -/
def isDecimalMark (c : Char) : Bool := isDecimalDigit c || ['.', 'e', '-'].contains c

theorem isDecimalMark_of_denotes {digits : List Char} {n : Nat} (hdigits : Denotes digits n) :
    ∀ c ∈ digits, isDecimalMark c = true := fun c hc => by
  rw [isDecimalMark, hdigits.decimal c hc, Bool.true_or]

theorem isDecimalMark_of_mem_intText {n : Int} :
    ∀ c ∈ (toString n).toList, isDecimalMark c = true := by
  rw [Int.toString_eq_repr, Int.repr_eq_if]
  split
  · rw [Nat.toList_repr]
    exact isDecimalMark_of_denotes (denotes_toDigits _)
  · rw [String.toList_append, Nat.toList_repr]
    exact List.forall_mem_append.2 ⟨List.forall_mem_singleton.2 rfl,
      isDecimalMark_of_denotes (denotes_toDigits _)⟩

/-- A decimal begins with a digit, and a point or the mark of an exponent stands somewhere
behind it. -/
theorem exists_decimalText_eq (d : Digits) :
    ∃ first before mark rest, decimalText d = first :: (before ++ mark :: rest) ∧
      isDecimalDigit first = true ∧ isDecimalDigit mark = false ∧
        ∀ c ∈ decimalText d, isDecimalMark c = true := by
  have hdigits := denotes_toDigits d.coefficient
  have hmarks := isDecimalMark_of_denotes hdigits
  unfold decimalText
  dsimp only
  generalize Nat.toDigits 10 d.coefficient = digits at hdigits hmarks ⊢
  obtain ⟨first, others, rfl⟩ := List.exists_cons_of_ne_nil hdigits.ne_nil
  have hfirst := hdigits.decimal first List.mem_cons_self
  split
  · exact ⟨first, others ++ List.replicate d.exponent.toNat '0', '.', ['0'], rfl, hfirst, rfl,
      List.forall_mem_append.2 ⟨isDecimalMark_of_denotes (hdigits.zeros_behind _),
        List.forall_mem_cons.2 ⟨rfl, List.forall_mem_singleton.2 rfl⟩⟩⟩
  split
  · next hinner =>
      simp only [Bool.and_eq_true, decide_eq_true_iff] at hinner
      generalize (((first :: others).length : Int) + d.exponent) = point at hinner ⊢
      obtain ⟨count, rfl⟩ : ∃ count : Nat, point = (count + 1 : Nat) :=
        ⟨point.toNat - 1, by omega⟩
      refine ⟨first, others.take count, '.', others.drop count, rfl, hfirst, rfl,
        List.forall_mem_append.2 ⟨fun c hc => hmarks c (List.mem_of_mem_take hc),
          List.forall_mem_cons.2 ⟨rfl, fun c hc => hmarks c (List.mem_of_mem_drop hc)⟩⟩⟩
  split
  · refine ⟨'0', [], '.', _, rfl, rfl, rfl, ?_⟩
    rw [List.append_assoc]
    exact List.forall_mem_append.2
      ⟨List.forall_mem_cons.2 ⟨rfl, List.forall_mem_singleton.2 rfl⟩,
        isDecimalMark_of_denotes (hdigits.zeros_before _)⟩
  · cases others with
    | nil =>
        exact ⟨first, [], 'e', _, rfl, hfirst, rfl, List.forall_mem_append.2
          ⟨hmarks, List.forall_mem_cons.2 ⟨rfl, isDecimalMark_of_mem_intText⟩⟩⟩
    | cons second rest =>
        obtain ⟨hmark, hothers⟩ := List.forall_mem_cons.1 hmarks
        exact ⟨first, [], '.', _, rfl, hfirst, rfl, List.forall_mem_append.2
          ⟨List.forall_mem_cons.2 ⟨hmark, List.forall_mem_cons.2 ⟨rfl, hothers⟩⟩,
            List.forall_mem_cons.2 ⟨rfl, isDecimalMark_of_mem_intText⟩⟩⟩

namespace Number

/-- The text behind the sign begins with no further sign and shows the kind of the number. -/
theorem shown_unsignedText (n : Number) :
    n.unsignedText.head? ≠ some '-' ∧ NumberKind.shown n.unsignedText = n.kind := by
  have hinteger : ∀ value, (Nat.toDigits 10 value).head? ≠ some '-' ∧
      NumberKind.shown (Nat.toDigits 10 value) = .integer := by
    intro value
    have hdigits := (denotes_toDigits value).decimal
    refine ⟨fun hhead => ?_, if_pos (List.all_eq_true.2 hdigits)⟩
    exact absurd (hdigits '-' (List.mem_of_mem_head? hhead)) (by decide)
  cases n with
  | natural value => exact hinteger value
  | minus value => exact hinteger value
  | real value =>
      obtain ⟨first, before, mark, rest, htext, hfirst, hmark, hmarks⟩ :=
        exists_decimalText_eq value.shortest
      have habsent : ∀ c, isDecimalMark c = false →
          (decimalText value.shortest).contains c = false := by
        intro c hc
        rw [← Bool.not_eq_true, List.contains_iff_mem]
        exact fun hmem => by simp [hmarks c hmem] at hc
      refine ⟨fun hhead => ?_, ?_⟩
      · rw [unsignedText, htext] at hhead
        cases hhead
        cases hfirst
      · have hall : (decimalText value.shortest).all isDecimalDigit = false := by
          rw [htext]
          simp [hmark]
        rw [unsignedText, NumberKind.shown, hall, habsent 'f' rfl, habsent 'n' rfl]
        rfl
  | infinite negative => exact ⟨by simp [unsignedText], rfl⟩
  | notANumber => exact ⟨by decide, rfl⟩

/-- Numbers that are written alike have one sign, one kind and one text behind the sign. -/
theorem isNegative_eq_of_text_eq {n m : Number} (heq : n.text = m.text) :
    n.isNegative = m.isNegative ∧ n.unsignedText = m.unsignedText ∧ n.kind = m.kind := by
  have hchars := congrArg String.toList heq
  rw [toList_text, toList_text] at hchars
  obtain ⟨hhead, hkind⟩ := shown_unsignedText n
  obtain ⟨hhead', hkind'⟩ := shown_unsignedText m
  have hboth : n.isNegative = m.isNegative ∧ n.unsignedText = m.unsignedText := by
    cases hn : n.isNegative <;> cases hm : m.isNegative <;> simp only [hn, hm] at hchars
    · exact ⟨rfl, hchars⟩
    · exact absurd (congrArg List.head? hchars) hhead
    · exact absurd (congrArg List.head? hchars).symm hhead'
    · exact ⟨rfl, List.append_cancel_left hchars⟩
  exact ⟨hboth.1, hboth.2, by rw [← hkind, ← hkind', hboth.2]⟩

/-- A decimal number is in lowest form. -/
def IsCanonical : Number → Prop
  | .real value => value.IsCanonical
  | _ => True

theorem same_self (n : Number) : n.same n = true := by
  cases n with
  | natural value => cases value <;> simp [same]
  | minus value => cases value <;> simp [same]
  | real value => simp [same]
  | infinite negative => simp [same]
  | notANumber => rfl

/-- Numbers that are written alike are equal. -/
theorem same_of_text_eq {n m : Number} (hn : n.IsCanonical) (hm : m.IsCanonical)
    (heq : n.text = m.text) : n.same m = true := by
  obtain ⟨hsign, htext, hkind⟩ := isNegative_eq_of_text_eq heq
  have hdigits : ∀ {a b : Nat}, Nat.toDigits 10 a = Nat.toDigits 10 b → a = b := fun hdigits =>
    (denotes_toDigits _).value.symm.trans (hdigits ▸ (denotes_toDigits _).value)
  cases n with
  | natural a =>
      cases m with
      | natural b => rw [hdigits htext, same_self]
      | minus b =>
          cases b with
          | zero => rw [hdigits htext]; rfl
          | succ b => cases hsign
      | real _ | infinite _ | notANumber => cases hkind
  | minus a =>
      cases m with
      | natural b =>
          cases a with
          | zero => rw [← hdigits htext]; rfl
          | succ a => cases hsign
      | minus b => rw [hdigits htext, same_self]
      | real _ | infinite _ | notANumber => cases hkind
  | real x =>
      cases m with
      | real y =>
          obtain ⟨hmantissa, hrest⟩ :=
            Binary64.eq_of_value_shortest_eq hn hm (value_eq_of_decimalText_eq htext)
          simp only [same, Bool.or_eq_true, beq_iff_eq, Bool.and_eq_true]
          refine hrest.symm.imp (fun hexponent => ?_) fun hzero => ⟨hzero, hmantissa ▸ hzero⟩
          obtain ⟨_, _, _⟩ := x
          obtain ⟨_, _, _⟩ := y
          simp_all [isNegative]
      | natural _ | minus _ | infinite _ | notANumber => cases hkind
  | infinite a =>
      cases m with
      | infinite b => rw [show a = b from hsign, same_self]
      | natural _ | minus _ | real _ | notANumber => cases hkind
  | notANumber =>
      cases m with
      | notANumber => rfl
      | natural _ | minus _ | real _ | infinite _ => cases hkind

end Number

/-! ## Numbers that are read -/

/-- A number that is read is in lowest form. -/
theorem isCanonical_of_real? {text : List Char} {n : Number} (hread : real? text = some n) :
    n.IsCanonical := by
  unfold real? at hread
  dsimp only at hread
  split at hread
  · cases hread
    trivial
  split at hread
  · cases hread
    trivial
  · obtain ⟨value, hvalue, rfl⟩ := Option.map_eq_some_iff.1 hread
    rw [decimal?_eq] at hvalue
    obtain ⟨d, -, hvalue⟩ := Option.bind_eq_some_iff.1 hvalue
    exact Binary64.isCanonical_of_ofDecimal? hvalue

end WorkflowAudit.Yaml

/-! ## Finite decimal numbers -/

namespace WorkflowAudit.Decimal.Binary64

open Yaml

variable {x y : Binary64}

theorem isDecimalMark_of_mem_text : ∀ c ∈ x.text, isDecimalMark c = true := by
  obtain ⟨-, -, -, -, -, -, -, hmarks⟩ := exists_decimalText_eq x.shortest
  refine List.forall_mem_append.2 ⟨?_, hmarks⟩
  split
  · exact List.forall_mem_singleton.2 rfl
  · nofun

theorem text_ne_nil (x : Binary64) : x.text ≠ [] := by
  obtain ⟨_, _, _, _, htext, -⟩ := exists_decimalText_eq x.shortest
  rw [text, htext]
  simp

/-- Numbers in lowest form that are written alike are equal, the sign of a zero included. -/
theorem text_inj (hx : x.IsCanonical) (hy : y.IsCanonical) (heq : x.text = y.text) : x = y := by
  obtain ⟨hsign, htext, -⟩ := Number.isNegative_eq_of_text_eq (n := .real x) (m := .real y)
    (congrArg String.ofList heq)
  obtain ⟨hmantissa, hexponent⟩ := eq_of_value_shortest_eq hx hy (value_eq_of_decimalText_eq htext)
  have hexponent : x.exponent = y.exponent := hexponent.elim
    (fun hzero => (hx.exponent_of_mantissa_eq_zero hzero).trans
      (hy.exponent_of_mantissa_eq_zero (hmantissa ▸ hzero)).symm) id
  obtain ⟨negative, mantissa, exponent⟩ := x
  obtain rfl : negative = y.negative := hsign
  obtain rfl : mantissa = y.mantissa := hmantissa
  obtain rfl : exponent = y.exponent := hexponent
  rfl

end WorkflowAudit.Decimal.Binary64
