import Mathlib.Algebra.Order.Field.Power
import Mathlib.Data.Rat.Cast.Order
import Mathlib.Tactic.FieldSimp
import Mathlib.Tactic.Linarith
import Mathlib.Tactic.NormNum
import Mathlib.Tactic.Positivity
import Mathlib.Tactic.Ring
import WorkflowAudit.Decimal.Binary64

/-!
# Shortest decimals

A number is written with a decimal that rounds to it.  The decimals that round to a number
form an interval around it; those of two numbers have no point in common, where they touch
the point belongs to the even mantissa.  So the decimal tells which number was written.  The
search for it succeeds: its last grid is finer than the interval is wide.
-/

namespace WorkflowAudit.Decimal

/-! ## Powers -/

theorem scale_pos {base : Nat} (hbase : 0 < base) (exponent : Int) : 0 < scale base exponent :=
  Nat.pow_pos hbase

/-- A power is the quotient of its two factors, one of which is one. -/
theorem zpow_mul_scale (base : Nat) (hbase : 0 < base) (exponent : Int) :
    (base : ℚ) ^ exponent * scale base (-exponent) = scale base exponent := by
  have hbase : (base : ℚ) ≠ 0 := Nat.cast_ne_zero.2 hbase.ne'
  have hcast : ∀ e : Int, (scale base e : ℚ) = (base : ℚ) ^ (e.toNat : Int) := fun e => by
    rw [zpow_natCast, scale, Nat.pow_eq, Nat.cast_pow]
  rw [hcast, hcast, ← zpow_add₀ hbase]
  congr 1
  omega

/-- The number that a decimal stands for. -/
def Digits.value (d : Digits) : ℚ := d.coefficient * 10 ^ d.exponent

theorem Digits.value_mul_scale (d : Digits) :
    d.value * scale 10 (-d.exponent) = (d.coefficient * scale 10 d.exponent : Nat) := by
  have hscale := zpow_mul_scale 10 (by decide) d.exponent
  rw [value, mul_assoc, Nat.cast_mul, ← hscale]
  norm_num

theorem Digits.value_dropZeros (count : Nat) (d : Digits) :
    (d.dropZeros count).value = d.value := by
  induction count generalizing d with
  | zero => rfl
  | succ count ih =>
      unfold dropZeros
      split
      · next hzero =>
          have hdivides : d.coefficient % 10 = 0 := by simp_all
          have hcoefficient : (d.coefficient : ℚ) = (d.coefficient / 10 : Nat) * 10 := by
            exact_mod_cast (Nat.div_mul_cancel (Nat.dvd_of_mod_eq_zero hdivides)).symm
          rw [ih, value, value, zpow_add_one₀ (by norm_num), hcoefficient]
          ring
      · rfl

/-! ## What rounds to a number -/

namespace Binary64

/-- The size of a number, without its sign. -/
def magnitude (x : Binary64) : ℚ := x.mantissa * 2 ^ x.exponent

/-- Half the way to the number below.  At the least mantissa of an exponent it is the half of
half a unit. -/
def gapBelow (x : Binary64) : ℚ :=
  if x.mantissa = leastMantissa ∧ leastExponent < x.exponent then 1 / 4 else 1 / 2

def lower (x : Binary64) : ℚ := (x.mantissa - x.gapBelow) * 2 ^ x.exponent

def upper (x : Binary64) : ℚ := (x.mantissa + 1 / 2) * 2 ^ x.exponent

/-- The numbers between the ends round to `x`; the ends do so if the mantissa is even. -/
def Rounds (x : Binary64) (q : ℚ) : Prop :=
  if x.mantissa % 2 = 0 then x.lower ≤ q ∧ q ≤ x.upper else x.lower < q ∧ q < x.upper

variable {x y : Binary64} {q : ℚ}

theorem Rounds.lower_le (hq : x.Rounds q) : x.lower ≤ q := by
  unfold Rounds at hq
  split at hq
  · exact hq.1
  · exact hq.1.le

theorem Rounds.le_upper (hq : x.Rounds q) : q ≤ x.upper := by
  unfold Rounds at hq
  split at hq
  · exact hq.2
  · exact hq.2.le

theorem zpow_exponent_pos (x : Binary64) : (0 : ℚ) < 2 ^ x.exponent := zpow_pos (by norm_num) _

theorem gapBelow_pos (x : Binary64) : 0 < x.gapBelow := by
  unfold gapBelow
  split <;> norm_num

theorem gapBelow_le (x : Binary64) : x.gapBelow ≤ 1 / 2 := by
  unfold gapBelow
  split <;> norm_num

theorem lower_lt_magnitude (x : Binary64) : x.lower < x.magnitude :=
  mul_lt_mul_of_pos_right (sub_lt_self _ x.gapBelow_pos) x.zpow_exponent_pos

theorem upper_eq (x : Binary64) : x.upper = x.magnitude + 2 ^ x.exponent / 2 := by
  rw [upper, magnitude]
  ring

theorem lower_pos (hx : x.mantissa ≠ 0) : 0 < x.lower := by
  have hmantissa : (1 : ℚ) ≤ x.mantissa := Nat.one_le_cast.2 (Nat.pos_of_ne_zero hx)
  exact mul_pos (by linarith [x.gapBelow_le]) x.zpow_exponent_pos

/-- A number in lowest form. -/
structure IsCanonical (x : Binary64) : Prop where
  mantissa_lt : x.mantissa < 2 * leastMantissa
  least_le : leastExponent ≤ x.exponent
  full : leastMantissa ≤ x.mantissa ∨ x.exponent = leastExponent

/-- There is one zero of either sign. -/
theorem IsCanonical.exponent_of_mantissa_eq_zero (hx : x.IsCanonical) (hzero : x.mantissa = 0) :
    x.exponent = leastExponent :=
  hx.full.resolve_left (by rw [hzero]; decide)

/-- Two numbers with one exponent, of which the first has the smaller mantissa. -/
theorem upper_le_lower_of_mantissa_lt (hx : x.IsCanonical) (hexponent : x.exponent = y.exponent)
    (hlt : x.mantissa < y.mantissa) :
    x.upper ≤ y.lower ∧ (x.upper = y.lower → y.mantissa = x.mantissa + 1) := by
  have hgap : y.gapBelow = 1 / 2 := by
    refine if_neg fun hleast => ?_
    have := hx.full
    omega
  rw [upper, lower, hgap, hexponent]
  have hnext : (x.mantissa : ℚ) + 1 ≤ y.mantissa := by exact_mod_cast hlt
  refine ⟨mul_le_mul_of_nonneg_right (by linarith) y.zpow_exponent_pos.le, fun heq => ?_⟩
  have hsum := mul_right_cancel₀ y.zpow_exponent_pos.ne' heq
  have hcast : ((y.mantissa : Nat) : ℚ) = (x.mantissa + 1 : Nat) := by
    push_cast
    linarith
  exact_mod_cast hcast

/-- Two numbers of which the first has the smaller exponent.  They touch only where the first
mantissa is the greatest one. -/
theorem upper_le_lower_of_exponent_lt (hx : x.IsCanonical) (hy : y.IsCanonical)
    (hlt : x.exponent < y.exponent) :
    x.upper ≤ y.lower ∧ (x.upper = y.lower → x.mantissa + 1 = 2 * leastMantissa) := by
  have hpower : (2 : ℚ) * 2 ^ x.exponent ≤ 2 ^ y.exponent := by
    rw [← zpow_one_add₀ (by norm_num)]
    exact zpow_le_zpow_right₀ (by norm_num) (by omega)
  have hmantissa : (x.mantissa : ℚ) + 1 ≤ 2 * leastMantissa := by exact_mod_cast hx.mantissa_lt
  have hfull : leastMantissa ≤ y.mantissa :=
    hy.full.resolve_right fun hleast => by have := hx.least_le; omega
  -- The lower end is at least that of the least mantissa.
  have hbelow : (leastMantissa : ℚ) - 1 / 4 ≤ y.mantissa - y.gapBelow := by
    rcases Nat.eq_or_lt_of_le hfull with hleast | hmore
    · have hgap : y.gapBelow = 1 / 4 := if_pos ⟨hleast.symm, lt_of_le_of_lt hx.least_le hlt⟩
      rw [hgap, hleast]
    · have hmore : (leastMantissa : ℚ) + 1 ≤ y.mantissa := by exact_mod_cast hmore
      linarith [y.gapBelow_le]
  have hleast : (1 : ℚ) ≤ leastMantissa := by exact_mod_cast Nat.pow_pos (by decide)
  have hunit := x.zpow_exponent_pos
  have hlower : (2 * leastMantissa - 1 / 2) * 2 ^ x.exponent ≤ y.lower :=
    calc (2 * (leastMantissa : ℚ) - 1 / 2) * 2 ^ x.exponent
        = (leastMantissa - 1 / 4) * (2 * 2 ^ x.exponent) := by ring
      _ ≤ (leastMantissa - 1 / 4) * 2 ^ y.exponent :=
          mul_le_mul_of_nonneg_left hpower (by linarith)
      _ ≤ y.lower := mul_le_mul_of_nonneg_right hbelow y.zpow_exponent_pos.le
  have hupper : x.upper ≤ (2 * leastMantissa - 1 / 2) * 2 ^ x.exponent :=
    mul_le_mul_of_nonneg_right (by linarith) hunit.le
  refine ⟨hupper.trans hlower, fun heq => ?_⟩
  have hsum : (x.mantissa : ℚ) + 1 / 2 = 2 * leastMantissa - 1 / 2 :=
    mul_right_cancel₀ hunit.ne' (le_antisymm hupper (hlower.trans_eq heq.symm))
  have hcast : ((x.mantissa + 1 : Nat) : ℚ) = (2 * leastMantissa : Nat) := by
    push_cast
    linarith
  exact_mod_cast hcast

/-- No decimal rounds to a number and to one that comes before it. -/
theorem not_rounds_both (htouch : x.upper ≤ y.lower)
    (hodd : x.upper = y.lower → ¬(x.mantissa % 2 = 0 ∧ y.mantissa % 2 = 0))
    (hx : x.Rounds q) (hy : y.Rounds q) : False := by
  have hx' := hx.le_upper
  have hy' := hy.lower_le
  have hsame : x.upper = y.lower := le_antisymm htouch (hy'.trans hx')
  unfold Rounds at hx hy
  split at hx
  · split at hy
    · exact hodd hsame ⟨‹_›, ‹_›⟩
    · linarith [hy.1]
  · linarith [hx.2]

/-- A decimal rounds to one number. -/
theorem eq_of_rounds (hx : x.IsCanonical) (hy : y.IsCanonical) (hxq : x.Rounds q)
    (hyq : y.Rounds q) : x.mantissa = y.mantissa ∧ x.exponent = y.exponent := by
  have hexponent : ∀ {x y : Binary64}, x.IsCanonical → y.IsCanonical → x.Rounds q → y.Rounds q →
      ¬x.exponent < y.exponent := by
    intro x y hx hy hxq hyq hlt
    obtain ⟨htouch, hgreatest⟩ := upper_le_lower_of_exponent_lt hx hy hlt
    exact not_rounds_both htouch (fun heq => by have := hgreatest heq; omega) hxq hyq
  have hexponent : x.exponent = y.exponent :=
    le_antisymm (not_lt.1 (hexponent hy hx hyq hxq)) (not_lt.1 (hexponent hx hy hxq hyq))
  have hmantissa : ∀ {x y : Binary64}, x.IsCanonical → x.exponent = y.exponent → x.Rounds q →
      y.Rounds q → ¬x.mantissa < y.mantissa := by
    intro x y hx hexponent hxq hyq hlt
    obtain ⟨htouch, hnext⟩ := upper_le_lower_of_mantissa_lt hx hexponent hlt
    exact not_rounds_both htouch (fun heq => by have := hnext heq; omega) hxq hyq
  exact ⟨le_antisymm (not_lt.1 (hmantissa hy hexponent.symm hyq hxq))
    (not_lt.1 (hmantissa hx hexponent hxq hyq)), hexponent⟩

end Binary64

/-! ## The test of a decimal -/

namespace Rounding

/-- The numbers that round to the value. -/
def Contains (r : Rounding) (q : ℚ) : Prop :=
  if r.closed then r.low ≤ q * r.den ∧ q * r.den ≤ r.high
  else r.low < q * r.den ∧ q * r.den < r.high

theorem contains_of_lt {r : Rounding} {q : ℚ} (hlow : r.low < q * r.den)
    (hhigh : q * r.den < r.high) : r.Contains q := by
  unfold Contains
  split
  · exact ⟨hlow.le, hhigh.le⟩
  · exact ⟨hlow, hhigh⟩

theorem admits_iff {r : Rounding} {d : Digits} : r.admits d = true ↔ r.Contains d.value := by
  have hscale : (0 : ℚ) < scale 10 (-d.exponent) := Nat.cast_pos.2 (scale_pos (by decide) _)
  have hpoint : ((d.coefficient * scale 10 d.exponent * r.den : Nat) : ℚ) =
      d.value * r.den * scale 10 (-d.exponent) := by
    rw [Nat.cast_mul, ← d.value_mul_scale]
    ring
  have hbelow : ∀ bound : Nat, bound * scale 10 (-d.exponent) ≤
      d.coefficient * scale 10 d.exponent * r.den ↔ (bound : ℚ) ≤ d.value * r.den := fun bound => by
    rw [← Nat.cast_le (α := ℚ), hpoint, Nat.cast_mul, mul_le_mul_iff_left₀ hscale]
  have habove : ∀ bound : Nat, d.coefficient * scale 10 d.exponent * r.den ≤
      bound * scale 10 (-d.exponent) ↔ d.value * r.den ≤ (bound : ℚ) := fun bound => by
    rw [← Nat.cast_le (α := ℚ), hpoint, Nat.cast_mul, mul_le_mul_iff_left₀ hscale]
  unfold admits Contains
  dsimp only
  split
  · rw [Bool.and_eq_true, decide_eq_true_iff, decide_eq_true_iff, hbelow, habove]
  · rw [Bool.and_eq_true, decide_eq_true_iff, decide_eq_true_iff, ← not_le, ← not_le, hbelow,
      habove, not_le, not_le]

/-! ## The search -/

variable {r : Rounding} {exponent : Int} {d : Digits}

theorem admits_of_onGrid? (hgrid : r.onGrid? exponent = some d) : r.admits d = true := by
  unfold onGrid? at hgrid
  dsimp only at hgrid
  split at hgrid
  · cases hgrid
    assumption
  · cases hgrid
    assumption
  · split at hgrid
    · cases hgrid
      assumption
    · cases hgrid
      assumption
  · cases hgrid

/-- On a grid that is finer than the way to the upper end, the decimal that follows the value
rounds to it. -/
theorem contains_next {below : Nat} (hlow : r.low < r.value)
    (hfine : (r.value : ℚ) + 10 ^ exponent * r.den < r.high)
    (hbelow : below * (scale 10 exponent * r.den) ≤ r.value * scale 10 (-exponent))
    (hnext : r.value * scale 10 (-exponent) < (below + 1) * (scale 10 exponent * r.den)) :
    r.Contains (Digits.value ⟨below + 1, exponent⟩) := by
  have hscale : (0 : ℚ) < scale 10 (-exponent) := Nat.cast_pos.2 (scale_pos (by decide) _)
  have hstep : (10 : ℚ) ^ exponent * r.den * scale 10 (-exponent) =
      (scale 10 exponent * r.den : Nat) := by
    rw [mul_right_comm, Nat.cast_mul]
    exact_mod_cast congrArg (· * (r.den : ℚ)) (zpow_mul_scale 10 (by decide) exponent)
  have hvalue : Digits.value ⟨below + 1, exponent⟩ * r.den * scale 10 (-exponent) =
      ((below + 1) * (scale 10 exponent * r.den) : Nat) := by
    rw [Nat.cast_mul, ← hstep, Digits.value]
    push_cast
    ring
  refine contains_of_lt (lt_trans (Nat.cast_lt.2 hlow) ?_) (lt_of_le_of_lt ?_ hfine)
  · refine lt_of_mul_lt_mul_right ?_ hscale.le
    rw [hvalue]
    exact_mod_cast hnext
  · refine le_of_mul_le_mul_right ?_ hscale
    rw [hvalue, add_mul (r.value : ℚ), hstep, Nat.succ_mul]
    exact_mod_cast Nat.add_le_add_right hbelow _

theorem exists_onGrid? (hden : 0 < r.den) (hlow : r.low < r.value)
    (hfine : (r.value : ℚ) + 10 ^ exponent * r.den < r.high) :
    ∃ d, r.onGrid? exponent = some d := by
  have hstep : 0 < scale 10 exponent * r.den := Nat.mul_pos (scale_pos (by decide) _) hden
  have hnext := admits_iff.2 (contains_next hlow hfine (Nat.div_mul_le_self _ _)
    (by rw [Nat.mul_comm _ (_ * _)]; exact Nat.lt_mul_div_succ _ hstep))
  unfold onGrid?
  dsimp only
  rw [hnext]
  split
  · exact ⟨_, rfl⟩
  · exact ⟨_, rfl⟩
  · split <;> exact ⟨_, rfl⟩
  · next hnone => cases hnone

theorem admits_of_search {count : Nat} (hsearch : r.search count exponent = some d) :
    r.admits d = true := by
  induction count generalizing exponent with
  | zero => cases hsearch
  | succ count ih =>
      rw [search] at hsearch
      split at hsearch
      · next hgrid =>
          cases hsearch
          exact admits_of_onGrid? hgrid
      · exact ih hsearch

theorem exists_search {count k : Nat} (hk : k < count)
    (hgrid : ∃ d, r.onGrid? (exponent - k) = some d) : ∃ d, r.search count exponent = some d := by
  induction count generalizing exponent k with
  | zero => cases hk
  | succ count ih =>
      rw [search]
      split
      · exact ⟨_, rfl⟩
      · next hnone =>
          cases k with
          | zero =>
              obtain ⟨d, hgrid⟩ := hgrid
              rw [Int.natCast_zero, Int.sub_zero, hnone] at hgrid
              cases hgrid
          | succ k =>
              refine ih (Nat.lt_of_succ_lt_succ hk) ?_
              rwa [Nat.cast_succ, add_comm, ← sub_sub] at hgrid

end Rounding

namespace Binary64

variable {x y : Binary64} {q : ℚ}

/-- The bounds over their denominator. -/
theorem rounding_bounds (hx : x.mantissa ≠ 0) :
    (x.rounding.low : ℚ) = x.lower * x.rounding.den ∧
      (x.rounding.value : ℚ) = x.magnitude * x.rounding.den ∧
      (x.rounding.high : ℚ) = x.upper * x.rounding.den := by
  have hpower : (2 : ℚ) ^ x.exponent * scale 2 (-x.exponent) = scale 2 x.exponent := by
    exact_mod_cast zpow_mul_scale 2 (by decide) x.exponent
  simp only [rounding, lower, magnitude, upper, gapBelow, Nat.cast_mul, Nat.cast_ofNat,
    Nat.cast_add, ← hpower]
  refine ⟨?_, by ring, by ring⟩
  by_cases hleast : x.mantissa = leastMantissa ∧ leastExponent < x.exponent
  · rw [if_pos hleast, if_pos (by simpa using hleast), Nat.cast_sub (by omega)]
    push_cast
    ring
  · rw [if_neg hleast, if_neg (by simpa using hleast), Nat.cast_sub (by omega)]
    push_cast
    ring

theorem rounding_den_pos (x : Binary64) : 0 < x.rounding.den :=
  Nat.mul_pos (by decide) (scale_pos (by decide) _)

theorem contains_iff (hx : x.mantissa ≠ 0) : x.rounding.Contains q ↔ x.Rounds q := by
  obtain ⟨hlow, -, hhigh⟩ := rounding_bounds hx
  have hden : (0 : ℚ) < x.rounding.den := Nat.cast_pos.2 x.rounding_den_pos
  have hclosed : x.rounding.closed = true ↔ x.mantissa % 2 = 0 := beq_iff_eq
  unfold Rounding.Contains Rounds
  rw [hlow, hhigh, mul_le_mul_iff_left₀ hden, mul_le_mul_iff_left₀ hden, mul_lt_mul_iff_left₀ hden,
    mul_lt_mul_iff_left₀ hden]
  simp only [hclosed]

/-! ## What is written -/

theorem pow_length_toDigits_le {n : Nat} (hn : 0 < n) :
    10 ^ ((Nat.toDigits 10 n).length - 1) ≤ n := by
  rcases Nat.eq_zero_or_pos ((Nat.toDigits 10 n).length - 1) with hone | hmore
  · rw [hone]
    exact hn
  · by_contra hlt
    have hshort := (Nat.length_toDigits_le_iff (by decide) hmore).2 (not_le.1 hlt)
    omega

/-- The search starts within a factor of a hundred above the value. -/
theorem zpow_start_le {value den : Nat} (hvalue : 0 < value) (hden : 0 < den) :
    (10 : ℚ) ^ ((if den ≤ value then ((Nat.toDigits 10 (value / den)).length : Int)
      else 2 - (Nat.toDigits 10 (den / value)).length) - 2) * den ≤ value := by
  split
  · next hle =>
      have hlength := pow_length_toDigits_le (Nat.div_pos hle hden)
      generalize (Nat.toDigits 10 (value / den)).length = size at hlength ⊢
      have hpower : (10 : ℚ) ^ ((size : Int) - 2) ≤ (10 ^ (size - 1) : Nat) := by
        rw [Nat.cast_pow, Nat.cast_ofNat, ← zpow_natCast]
        exact zpow_le_zpow_right₀ (by norm_num) (by omega)
      calc (10 : ℚ) ^ ((size : Int) - 2) * den ≤ (value / den : Nat) * den :=
            mul_le_mul_of_nonneg_right (hpower.trans (Nat.cast_le.2 hlength)) den.cast_nonneg
        _ ≤ value := by exact_mod_cast Nat.div_mul_le_self value den
  · have hshort : den / value < 10 ^ (Nat.toDigits 10 (den / value)).length :=
      (Nat.length_toDigits_le_iff (by decide) Nat.length_toDigits_pos).1 le_rfl
    generalize (Nat.toDigits 10 (den / value)).length = size at hshort ⊢
    have hbound : den ≤ 10 ^ size * value := ((Nat.div_lt_iff_lt_mul hvalue).1 hshort).le
    rw [show (2 - (size : Int)) - 2 = -size by ring, zpow_neg, zpow_natCast,
      inv_mul_le_iff₀ (by positivity)]
    exact_mod_cast hbound

/-- The search of the digits succeeds. -/
theorem exists_search_start (hx : x.mantissa < 2 * leastMantissa) (hpositive : x.mantissa ≠ 0) :
    ∃ d, x.rounding.search 30 (if x.rounding.den ≤ x.rounding.value then
        ((Nat.toDigits 10 (x.rounding.value / x.rounding.den)).length : Int)
      else 2 - (Nat.toDigits 10 (x.rounding.den / x.rounding.value)).length) = some d := by
  obtain ⟨hlow, hvalue, hhigh⟩ := rounding_bounds hpositive
  have hden : (0 : ℚ) < x.rounding.den := Nat.cast_pos.2 x.rounding_den_pos
  have hbelow : x.rounding.low < x.rounding.value := by
    rw [← Nat.cast_lt (α := ℚ), hlow, hvalue]
    exact mul_lt_mul_of_pos_right x.lower_lt_magnitude hden
  have hstart := zpow_start_le (Nat.zero_lt_of_lt hbelow) x.rounding_den_pos
  generalize (if x.rounding.den ≤ x.rounding.value then
    ((Nat.toDigits 10 (x.rounding.value / x.rounding.den)).length : Int)
      else 2 - (Nat.toDigits 10 (x.rounding.den / x.rounding.value)).length) = start at hstart ⊢
  rw [hvalue, mul_le_mul_iff_left₀ hden] at hstart
  refine Rounding.exists_search (k := 29) (by decide)
    (Rounding.exists_onGrid? x.rounding_den_pos hbelow ?_)
  rw [hvalue, hhigh, ← add_mul, upper_eq]
  refine mul_lt_mul_of_pos_right (add_lt_add_right ?_ _) hden
  have hmantissa : (x.mantissa : ℚ) < 2 ^ 53 := by exact_mod_cast hx
  calc (10 : ℚ) ^ (start - (29 : Nat)) = 10 ^ (start - 2) * (10 ^ 27)⁻¹ := by
        rw [← zpow_natCast, ← zpow_neg, ← zpow_add₀ (by norm_num)]
        congr 1
        push_cast
        ring
    _ ≤ x.magnitude * (10 ^ 27)⁻¹ := mul_le_mul_of_nonneg_right hstart (by norm_num)
    _ < 2 ^ 53 * 2 ^ x.exponent * (10 ^ 27)⁻¹ :=
        mul_lt_mul_of_pos_right (mul_lt_mul_of_pos_right hmantissa x.zpow_exponent_pos)
          (by norm_num)
    _ ≤ 2 ^ x.exponent / 2 := by
        have hunit := x.zpow_exponent_pos
        linarith

/-- A number is written with a decimal that rounds to it. -/
theorem rounds_shortest (hx : x.mantissa < 2 * leastMantissa) (hpositive : x.mantissa ≠ 0) :
    x.Rounds x.shortest.value := by
  obtain ⟨d, hsearch⟩ := exists_search_start hx hpositive
  rw [shortest, if_neg hpositive]
  dsimp only
  rw [hsearch, Option.getD_some, Digits.value_dropZeros, ← contains_iff hpositive]
  exact Rounding.admits_iff.1 (Rounding.admits_of_search hsearch)

/-- Numbers written with decimals of one value have one size. -/
theorem eq_of_value_shortest_eq (hx : x.IsCanonical) (hy : y.IsCanonical)
    (heq : x.shortest.value = y.shortest.value) :
    x.mantissa = y.mantissa ∧ (x.mantissa = 0 ∨ x.exponent = y.exponent) := by
  have hzero : ∀ {x : Binary64}, x.mantissa = 0 → x.shortest.value = 0 := fun hx => by
    rw [shortest, if_pos hx, Digits.value, Nat.cast_zero, zero_mul]
  have hnonzero : ∀ {x : Binary64}, x.IsCanonical → x.mantissa ≠ 0 → x.shortest.value ≠ 0 :=
    fun hx hpositive => ((lower_pos hpositive).trans_le
      (rounds_shortest hx.mantissa_lt hpositive).lower_le).ne'
  by_cases hx0 : x.mantissa = 0
  · have hy0 : y.mantissa = 0 := by
      by_contra hy0
      exact hnonzero hy hy0 (heq.symm.trans (hzero hx0))
    exact ⟨hx0.trans hy0.symm, .inl hx0⟩
  · have hy0 : y.mantissa ≠ 0 := fun hy0 => hnonzero hx hx0 (heq.trans (hzero hy0))
    have hboth := eq_of_rounds hx hy (rounds_shortest hx.mantissa_lt hx0)
      (heq ▸ rounds_shortest hy.mantissa_lt hy0)
    exact ⟨hboth.1, .inr hboth.2⟩

end Binary64

/-! ## What is read -/

theorem le_roundDiv {num den k : Nat} (hden : 0 < den) (hle : k * den ≤ num) :
    k ≤ roundDiv num den := by
  have hquotient : k ≤ num / den := (Nat.le_div_iff_mul_le hden).2 hle
  unfold roundDiv
  dsimp only
  split
  · exact hquotient.trans (Nat.le_succ _)
  · exact hquotient

theorem roundDiv_le {num den k : Nat} (hden : 0 < den) (hle : num ≤ k * den) :
    roundDiv num den ≤ k := by
  rcases Nat.eq_or_lt_of_le hle with rfl | hlt
  · rw [roundDiv, Nat.mul_div_cancel _ hden, Nat.mul_mod_left]
    simp [hden.ne]
  · have hquotient : num / den < k := (Nat.div_lt_iff_lt_mul hden).2 hlt
    unfold roundDiv
    dsimp only
    split <;> omega

theorem cast_mul_scale (k den : Nat) (exponent : Int) :
    ((k * (den * scale 2 exponent) : Nat) : ℚ) =
      k * (2 ^ exponent * den) * scale 2 (-exponent) := by
  have hpower := zpow_mul_scale 2 (by decide) exponent
  push_cast at hpower ⊢
  rw [← hpower]
  ring

/-- Comparisons of scaled operands are those of quotients. -/
theorem mul_scale_le_iff {k num den : Nat} (exponent : Int) :
    k * (den * scale 2 exponent) ≤ num * scale 2 (-exponent) ↔
      (k : ℚ) * (2 ^ exponent * den) ≤ num := by
  rw [← Nat.cast_le (α := ℚ), cast_mul_scale, Nat.cast_mul,
    mul_le_mul_iff_left₀ (Nat.cast_pos.2 (scale_pos (by decide) _))]

theorem le_mul_scale_iff {k num den : Nat} (exponent : Int) :
    num * scale 2 (-exponent) ≤ k * (den * scale 2 exponent) ↔
      (num : ℚ) ≤ k * (2 ^ exponent * den) := by
  rw [← Nat.cast_le (α := ℚ), cast_mul_scale, Nat.cast_mul,
    mul_le_mul_iff_left₀ (Nat.cast_pos.2 (scale_pos (by decide) _))]

theorem log2Quotient_bounds {num den : Nat} (hnum : num ≠ 0) (hden : den ≠ 0) :
    (2 : ℚ) ^ log2Quotient num den * den ≤ num ∧
      (num : ℚ) ≤ 2 ^ (log2Quotient num den + 1) * den := by
  have htwo : (2 : ℚ) ≠ 0 := by norm_num
  have hlow : ∀ {n : Nat}, n ≠ 0 → (2 : ℚ) ^ (n.log2 : Int) ≤ n := fun hn => by
    rw [zpow_natCast]
    exact_mod_cast Nat.log2_self_le hn
  have hhigh : ∀ n : Nat, (n : ℚ) ≤ 2 ^ ((n.log2 : Int) + 1) := fun n => by
    rw [← Nat.cast_succ, zpow_natCast]
    exact_mod_cast Nat.lt_log2_self.le
  have htest := @mul_scale_le_iff 1 num den ((num.log2 : Int) - den.log2)
  rw [Nat.one_mul, Nat.cast_one, one_mul] at htest
  unfold log2Quotient
  dsimp only
  split
  · next hle =>
      refine ⟨htest.1 hle, (hhigh num).trans ?_⟩
      calc (2 : ℚ) ^ ((num.log2 : Int) + 1)
          = 2 ^ ((num.log2 : Int) - den.log2 + 1) * 2 ^ (den.log2 : Int) := by
            rw [← zpow_add₀ htwo]
            congr 1
            ring
        _ ≤ 2 ^ ((num.log2 : Int) - den.log2 + 1) * den :=
            mul_le_mul_of_nonneg_left (hlow hden) (by positivity)
  · next hlt =>
      rw [Int.sub_add_cancel]
      refine ⟨?_, (not_le.1 (mt htest.2 hlt)).le⟩
      calc (2 : ℚ) ^ ((num.log2 : Int) - den.log2 - 1) * den
          ≤ 2 ^ ((num.log2 : Int) - den.log2 - 1) * 2 ^ ((den.log2 : Int) + 1) :=
            mul_le_mul_of_nonneg_left (hhigh den) (by positivity)
        _ = 2 ^ (num.log2 : Int) := by
            rw [← zpow_add₀ htwo]
            congr 1
            ring
        _ ≤ num := hlow hnum

namespace Binary64

theorem isCanonical_zero (negative : Bool) : (zero negative).IsCanonical :=
  ⟨Nat.mul_pos (by decide) (Nat.pow_pos (by decide)), le_rfl, .inr rfl⟩

theorem isCanonical_of_ofQuotient? {negative : Bool} {num den : Nat} {x : Binary64}
    (hnum : num ≠ 0) (hden : den ≠ 0) (hread : ofQuotient? negative num den = some x) :
    x.IsCanonical := by
  obtain ⟨hlow, hhigh⟩ := log2Quotient_bounds hnum hden
  generalize hlog : log2Quotient num den = log at hlow hhigh
  have hscaled : 0 < den * scale 2 (max leastExponent (log - 52)) :=
    Nat.mul_pos (Nat.pos_of_ne_zero hden) (scale_pos (by decide) _)
  have hdenominator : (0 : ℚ) ≤ den := den.cast_nonneg
  have hmantissa : roundDiv (num * scale 2 (-max leastExponent (log - 52)))
      (den * scale 2 (max leastExponent (log - 52))) ≤ 2 * leastMantissa := by
    refine roundDiv_le hscaled ((le_mul_scale_iff _).2 (hhigh.trans ?_))
    have hcast : ((2 * leastMantissa : Nat) : ℚ) = 2 ^ (53 : Int) := by norm_num [leastMantissa]
    rw [← mul_assoc, hcast, ← zpow_add₀ (by norm_num)]
    exact mul_le_mul_of_nonneg_right (zpow_le_zpow_right₀ (by norm_num) (by omega)) hdenominator
  have hfull : leastMantissa ≤ roundDiv (num * scale 2 (-max leastExponent (log - 52)))
      (den * scale 2 (max leastExponent (log - 52))) ∨
        max leastExponent (log - 52) = leastExponent := by
    rcases le_total (log - 52) leastExponent with hleast | hmore
    · exact .inr (max_eq_left hleast)
    · refine .inl (le_roundDiv hscaled ((mul_scale_le_iff _).2 ?_))
      have hcast : (leastMantissa : ℚ) = 2 ^ (52 : Int) := by norm_num [leastMantissa]
      rwa [max_eq_right hmore, ← mul_assoc, hcast, ← zpow_add₀ (by norm_num), add_sub_cancel]
  unfold ofQuotient? at hread
  rw [hlog] at hread
  dsimp only at hread
  generalize roundDiv _ _ = mantissa at hread hmantissa hfull
  have hleast : leastExponent ≤ max leastExponent (log - 52) := le_max_left _ _
  generalize max leastExponent (log - 52) = exponent at hread hfull hleast
  have hpositive : 0 < leastMantissa := by decide
  by_cases hcarry : mantissa = 2 * leastMantissa
  · rw [if_pos hcarry] at hread
    split at hread
    · cases hread
    · cases hread
      exact ⟨by dsimp only; omega, by dsimp only; omega, .inl le_rfl⟩
  · rw [if_neg hcarry] at hread
    split at hread
    · cases hread
    · cases hread
      exact ⟨lt_of_le_of_ne hmantissa hcarry, hleast, hfull⟩

/-- Every number that is read is in lowest form. -/
theorem isCanonical_of_ofDecimal? {negative : Bool} {coefficient : Nat} {exponent : Int}
    {x : Binary64} (hread : ofDecimal? negative coefficient exponent = some x) :
    x.IsCanonical := by
  unfold ofDecimal? at hread
  dsimp only at hread
  split at hread
  · cases hread
    exact isCanonical_zero negative
  · next hsize =>
      split at hread
      · cases hread
      · have hcoefficient : coefficient ≠ 0 := by
          rintro rfl
          exact hsize rfl
        exact isCanonical_of_ofQuotient?
          (Nat.mul_ne_zero hcoefficient (scale_pos (by decide) _).ne')
          (scale_pos (by decide) _).ne' hread

end Binary64

end WorkflowAudit.Decimal
