import Mathlib.Data.List.Lex
import Mathlib.Data.String.Basic
import Mathlib.Data.UInt

/-!
# The order of encoded texts

Texts are compared character by character.  Encoded as UTF-8 they are compared byte by
byte, and the order is the same: of two characters the smaller one has the smaller
encoding, and no encoding begins another.
-/

namespace WorkflowAudit.Text

/-- The bytes of a text in UTF-8. -/
def octets (text : String) : List UInt8 := text.toUTF8.data.toList

theorem octets_eq (text : String) : octets text = text.toList.flatMap String.utf8EncodeChar := by
  rw [octets, String.toUTF8_eq_toByteArray, ← String.utf8Encode_toList, List.utf8Encode,
    List.toList_data_toByteArray]

/-- Numbers of 21 bits are ordered like their digits in base 64. -/
theorem digits_lt {m n : ℕ} (hlt : m < n) (hn : n < 2097152) :
    m / 262144 % 8 < n / 262144 % 8 ∨ m / 262144 % 8 = n / 262144 % 8 ∧
      (m / 4096 % 64 < n / 4096 % 64 ∨ m / 4096 % 64 = n / 4096 % 64 ∧
        (m / 64 % 64 < n / 64 % 64 ∨ m / 64 % 64 = n / 64 % 64 ∧ m % 64 < n % 64)) := by
  have hdigits : ∀ k : ℕ, k < 2097152 →
      k = ((k / 262144 % 8 * 64 + k / 4096 % 64) * 64 + k / 64 % 64) * 64 + k % 64 := by
    intro k hk
    omega
  have hbound : ∀ k : ℕ, k / 4096 % 64 < 64 ∧ k / 64 % 64 < 64 ∧ k % 64 < 64 := by
    intro k
    omega
  have hleft := hdigits m (hlt.trans hn)
  have hright := hdigits n hn
  have hleft' := hbound m
  have hright' := hbound n
  generalize m / 262144 % 8 = a, m / 4096 % 64 = b, m / 64 % 64 = c, m % 64 = d at *
  generalize n / 262144 % 8 = a', n / 4096 % 64 = b', n / 64 % 64 = c', n % 64 = d' at *
  omega

theorem ofNat_lt_ofNat_iff {m n : ℕ} (hm : m < 256) (hn : n < 256) :
    UInt8.ofNat m < UInt8.ofNat n ↔ m < n := by
  rw [UInt8.lt_iff_toNat_lt, UInt8.toNat_ofNat', UInt8.toNat_ofNat', Nat.mod_eq_of_lt hm,
    Nat.mod_eq_of_lt hn]

theorem ofNat_eq_ofNat_iff {m n : ℕ} (hm : m < 256) (hn : n < 256) :
    UInt8.ofNat m = UInt8.ofNat n ↔ m = n := by
  rw [← UInt8.toNat_inj, UInt8.toNat_ofNat', UInt8.toNat_ofNat', Nat.mod_eq_of_lt hm,
    Nat.mod_eq_of_lt hn]

/-- Whatever follows them, the encodings of two characters are ordered as these are. -/
theorem utf8EncodeChar_append_lt {c d : Char} (hlt : c < d) (left right : List UInt8) :
    String.utf8EncodeChar c ++ left < String.utf8EncodeChar d ++ right := by
  have hcode : c.val.toNat < d.val.toNat := hlt
  have hmax : d.val.toNat < 0x110000 := by
    rcases d.valid with hlow | hhigh <;> omega
  have hdigits := digits_lt hcode (hmax.trans (by decide))
  unfold String.utf8EncodeChar
  generalize c.val.toNat = m, d.val.toNat = n at *
  dsimp only
  -- Where the lengths differ, the first bytes do; where they agree, the bytes are digits.
  split_ifs <;>
    simp (disch := omega) only [List.cons_append, List.nil_append, List.cons_lt_cons_iff,
      ofNat_lt_ofNat_iff, ofNat_eq_ofNat_iff, Nat.add_lt_add_iff_right,
      Nat.add_right_cancel_iff] <;>
    omega

theorem utf8EncodeChar_ne_nil (c : Char) : String.utf8EncodeChar c ≠ [] := by
  unfold String.utf8EncodeChar
  dsimp only
  split_ifs <;> exact List.cons_ne_nil _ _

theorem flatMap_utf8EncodeChar_lt {left right : List Char} (hlt : left < right) :
    left.flatMap String.utf8EncodeChar < right.flatMap String.utf8EncodeChar := by
  induction left generalizing right with
  | nil =>
      cases right with
      | nil => exact absurd hlt (List.lt_irrefl [])
      | cons d right =>
          rw [List.flatMap_nil, List.flatMap_cons]
          cases hbytes : String.utf8EncodeChar d with
          | nil => exact absurd hbytes (utf8EncodeChar_ne_nil d)
          | cons byte bytes => exact List.nil_lt_cons _ _
  | cons c left ih =>
      cases right with
      | nil => exact absurd hlt (List.not_lt_nil _)
      | cons d right =>
          rw [List.flatMap_cons, List.flatMap_cons]
          rcases List.cons_lt_cons_iff.1 hlt with hchar | ⟨rfl, hrest⟩
          · exact utf8EncodeChar_append_lt hchar _ _
          · exact List.append_left_lt (ih hrest)

/-- Texts are ordered as their bytes are. -/
theorem octets_lt_iff {left right : String} : octets left < octets right ↔ left < right := by
  have hmono : ∀ {left right : String}, left < right → octets left < octets right := by
    intro left right hlt
    rw [octets_eq, octets_eq]
    exact flatMap_utf8EncodeChar_lt (String.lt_iff_toList_lt.1 hlt)
  refine ⟨fun hbytes => ?_, hmono⟩
  rcases lt_trichotomy left right with hlt | rfl | hgt
  · exact hlt
  · exact absurd hbytes (List.lt_irrefl _)
  · exact absurd (List.lt_trans hbytes (hmono hgt)) (List.lt_irrefl _)

end WorkflowAudit.Text
