import Mathlib.Algebra.Order.Ring.Nat
import WorkflowAudit.Text.Ascii

/-!
# Numbers in decimal digits

A text of decimal digits denotes a number, and the digits that a number is written with
denote that number.
-/

namespace WorkflowAudit.Text

theorem isDecimalDigit_eq (c : Char) : isDecimalDigit c = c.isDigit := by
  simp [isDecimalDigit, Char.isDigit, Char.le_def]

theorem foldlM_digitValue? {digits : List Char} (hdigits : ∀ c ∈ digits, isDecimalDigit c = true)
    (value : Nat) :
    digits.foldlM (fun value c => do
        let digit ← digitValue? c
        if digit < 10 then Option.some (value * 10 + digit) else none) value =
      Option.some (digits.foldl (fun value c => value * 10 + (c.toNat - '0'.toNat)) value) := by
  induction digits generalizing value with
  | nil => rfl
  | cons c digits ih =>
      have hc := hdigits c List.mem_cons_self
      have hsmall : c.toNat - '0'.toNat < 10 := by
        simp only [isDecimalDigit, Bool.and_eq_true, decide_eq_true_eq, Char.le_def,
          UInt32.le_iff_toNat_le] at hc
        have hval : c.val.toNat = c.toNat := rfl
        simp_all
        omega
      rw [List.foldlM_cons, List.foldl_cons, ← ih fun d hd => hdigits d (.tail _ hd)]
      simp only [digitValue?, hc, if_true, Option.bind_eq_bind, Option.bind_some, if_pos hsmall]

/-- A text of decimal digits denotes a number. -/
structure Denotes (digits : List Char) (n : Nat) : Prop where
  ne_nil : digits ≠ []
  decimal : ∀ c ∈ digits, isDecimalDigit c = true
  value : Nat.ofDigitChars 10 digits 0 = n

variable {digits : List Char} {n : Nat}

theorem Denotes.natOfDigits? (hdigits : Denotes digits n) : natOfDigits? 10 digits = some n := by
  rw [Text.natOfDigits?, if_neg (by simpa using hdigits.ne_nil), foldlM_digitValue? hdigits.decimal,
    ← hdigits.value, Nat.ofDigitChars_eq_foldl]
  simp only [Nat.mul_comm]

theorem isDecimalDigit_of_mem_replicate {count : Nat} :
    ∀ c ∈ List.replicate count '0', isDecimalDigit c = true := by
  intro c hc
  rw [List.eq_of_mem_replicate hc]
  rfl

/-- A number is denoted by the digits that it is written with. -/
theorem denotes_toDigits (n : Nat) : Denotes (Nat.toDigits 10 n) n := by
  refine ⟨Nat.toDigits_ne_nil, fun c hc => ?_, Nat.ofDigitChars_ten_toDigits⟩
  rw [isDecimalDigit_eq]
  exact Nat.isDigit_of_mem_toDigits (by decide) (by decide) hc

/-- No zero stands in front of the digits of a number. -/
theorem head?_toDigits_ne_zero {n : Nat} (hn : 0 < n) :
    (Nat.toDigits 10 n).head? ≠ Option.some '0' := by
  induction n using Nat.strongRecOn with
  | ind n ih =>
      by_cases hsmall : n < 10
      · have hdigit :
            ∀ digit : Fin 10, 0 < digit.val → [digit.val.digitChar].head? ≠ .some '0' := by
          decide
        rw [Nat.toDigits_of_lt_base hsmall]
        exact hdigit ⟨n, hsmall⟩ hn
      · have hhead := ih (n / 10) (by omega) (by omega)
        obtain ⟨c, rest, heq⟩ :=
          List.exists_cons_of_ne_nil (Nat.toDigits_ne_nil : Nat.toDigits 10 (n / 10) ≠ [])
        rw [Nat.toDigits_of_base_le (by decide) (by omega), heq]
        rw [heq] at hhead
        exact hhead

theorem Denotes.zeros_before (hdigits : Denotes digits n) (count : Nat) :
    Denotes (List.replicate count '0' ++ digits) n := by
  refine ⟨List.append_ne_nil_of_right_ne_nil _ hdigits.ne_nil,
    List.forall_mem_append.2 ⟨isDecimalDigit_of_mem_replicate, hdigits.decimal⟩, ?_⟩
  rw [Nat.ofDigitChars_append, Nat.ofDigitChars_replicate_zero]
  exact hdigits.value

theorem Denotes.zeros_behind (hdigits : Denotes digits n) (count : Nat) :
    Denotes (digits ++ List.replicate count '0') (10 ^ count * n) := by
  refine ⟨List.append_ne_nil_of_left_ne_nil hdigits.ne_nil _,
    List.forall_mem_append.2 ⟨hdigits.decimal, isDecimalDigit_of_mem_replicate⟩, ?_⟩
  rw [Nat.ofDigitChars_append, Nat.ofDigitChars_replicate_zero, hdigits.value]

end WorkflowAudit.Text
