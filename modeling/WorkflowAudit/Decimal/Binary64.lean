/-!
# Finite binary floating-point numbers

A finite number of the 64-bit format is kept exactly, as a mantissa and a power
of two.  Reading rounds a decimal to the nearest such number, a tie to the even
mantissa, and writing chooses the fewest decimal digits that read back, the
nearest where several do.  They are written positionally where the point falls
within sixteen digits or at most five zeros lead.
-/

namespace WorkflowAudit.Decimal

/-- A finite number `± mantissa · 2 ^ exponent` in lowest form: the mantissa
has 53 bits unless the exponent is the least one. -/
structure Binary64 where
  negative : Bool
  mantissa : Nat
  exponent : Int
  deriving DecidableEq, Repr

/-- The least exponent of a mantissa, that of the subnormal numbers. -/
def leastExponent : Int := -1074

def greatestExponent : Int := 971

/-- The least mantissa of 53 bits. -/
def leastMantissa : Nat := Nat.pow 2 52

/-- The factor `base ^ exponent`, or one where the exponent is negative. -/
def scale (base : Nat) (exponent : Int) : Nat := base.pow exponent.toNat

/-- The quotient rounded to the nearest integer, a tie to the even one. -/
def roundDiv (num den : Nat) : Nat :=
  let quotient := num / den
  let twice := 2 * (num % den)
  if den < twice || (twice == den && quotient % 2 == 1) then quotient + 1 else quotient

/-- The greatest `e` with `2 ^ e ≤ num / den`, for positive operands. -/
def log2Quotient (num den : Nat) : Int :=
  let estimate : Int := (Nat.log2 num : Int) - Nat.log2 den
  if den * scale 2 estimate ≤ num * scale 2 (-estimate) then estimate else estimate - 1

namespace Binary64

def zero (negative : Bool) : Binary64 := ⟨negative, 0, leastExponent⟩

/-- The number nearest to a positive quotient; `none` beyond the greatest one. -/
def ofQuotient? (negative : Bool) (num den : Nat) : Option Binary64 :=
  let exponent := max leastExponent (log2Quotient num den - 52)
  let mantissa := roundDiv (num * scale 2 (-exponent)) (den * scale 2 exponent)
  let (mantissa, exponent) :=
    if mantissa = 2 * leastMantissa then (leastMantissa, exponent + 1) else (mantissa, exponent)
  if greatestExponent < exponent then none else some ⟨negative, mantissa, exponent⟩

/-- The number nearest to `± coefficient · 10 ^ exponent`; `none` beyond the
greatest one.  Magnitudes far outside the range are settled by their size. -/
def ofDecimal? (negative : Bool) (coefficient : Nat) (exponent : Int) : Option Binary64 :=
  let size : Int := (Nat.toDigits 10 coefficient).length + exponent
  if coefficient = 0 || size < -330 then some (zero negative)
  else if 310 < size then none
  else ofQuotient? negative (coefficient * scale 10 exponent) (scale 10 (-exponent))

end Binary64

/-- A decimal `coefficient · 10 ^ exponent`. -/
structure Digits where
  coefficient : Nat
  exponent : Int
  deriving DecidableEq, Repr

/-- Drops up to `count` zeros at the end of the coefficient. -/
def Digits.dropZeros : Nat → Digits → Digits
  | 0, d => d
  | count + 1, d =>
      if d.coefficient ≠ 0 && d.coefficient % 10 == 0 then
        dropZeros count ⟨d.coefficient / 10, d.exponent + 1⟩
      else d

/-- The numbers that round to a value, as quotients over one denominator. -/
structure Rounding where
  low : Nat
  value : Nat
  high : Nat
  den : Nat
  /-- Whether the ends themselves round to the value. -/
  closed : Bool
  deriving Repr

/-- The numbers that round to a positive value.  Below the least mantissa of an
exponent the grid is twice as fine. -/
def Binary64.rounding (x : Binary64) : Rounding :=
  let unit := scale 2 x.exponent
  let belowGap := if x.mantissa = leastMantissa && leastExponent < x.exponent then 1 else 2
  { low := (4 * x.mantissa - belowGap) * unit
    value := 4 * x.mantissa * unit
    high := (4 * x.mantissa + 2) * unit
    den := 4 * scale 2 (-x.exponent)
    closed := x.mantissa % 2 == 0 }

namespace Rounding

/-- Whether `coefficient · 10 ^ exponent` rounds to the value. -/
def admits (r : Rounding) (d : Digits) : Bool :=
  let point := d.coefficient * scale 10 d.exponent * r.den
  let low := r.low * scale 10 (-d.exponent)
  let high := r.high * scale 10 (-d.exponent)
  if r.closed then low ≤ point && point ≤ high else low < point && point < high

/-- Twice the distance of the value above the decimal `d`, against the grid. -/
def above (r : Rounding) (d : Digits) : Nat :=
  2 * (r.value * scale 10 (-d.exponent) - d.coefficient * scale 10 d.exponent * r.den)

/-- The better of the two neighbours of the value on a decimal grid. -/
def onGrid? (r : Rounding) (exponent : Int) : Option Digits :=
  let step := scale 10 exponent * r.den
  let below : Digits := ⟨r.value * scale 10 (-exponent) / step, exponent⟩
  let next : Digits := ⟨below.coefficient + 1, exponent⟩
  match r.admits below, r.admits next with
  | true, false => some below
  | false, true => some next
  | true, true =>
      let distance := r.above below
      if distance < step || (distance == step && below.coefficient % 2 == 0) then some below
      else some next
  | false, false => none

/-- The first grid with a decimal that rounds to the value, each finer by ten
than the one before. -/
def search (r : Rounding) : Nat → Int → Option Digits
  | 0, _ => none
  | count + 1, exponent =>
      match r.onGrid? exponent with
      | some d => some d
      | none => search r count (exponent - 1)

end Rounding

/-- The fewest digits that read back as a number of this magnitude. -/
def Binary64.shortest (x : Binary64) : Digits :=
  if x.mantissa = 0 then ⟨0, 0⟩
  else
    let r := x.rounding
    let size : Int := (Nat.toDigits 10 (r.value / r.den)).length
    let start : Int := if r.den ≤ r.value then size
      else 2 - (Nat.toDigits 10 (r.den / r.value)).length
    ((r.search 30 start).getD ⟨0, 0⟩).dropZeros 30

/-- A decimal with its point in the place it has, or with an exponent. -/
def decimalText (d : Digits) : List Char :=
  let digits := Nat.toDigits 10 d.coefficient
  let point : Int := digits.length + d.exponent
  if 0 ≤ d.exponent && point ≤ 16 then
    digits ++ List.replicate d.exponent.toNat '0' ++ ['.', '0']
  else if 0 < point && point ≤ 16 then
    digits.take point.toNat ++ '.' :: digits.drop point.toNat
  else if -5 < point && point ≤ 0 then
    ['0', '.'] ++ List.replicate (-point).toNat '0' ++ digits
  else
    let mantissa := match digits with
      | first :: second :: rest => first :: '.' :: second :: rest
      | short => short
    mantissa ++ 'e' :: (toString (point - 1)).toList

/-- The text of a number, with its sign even where it is zero. -/
def Binary64.text (x : Binary64) : List Char :=
  (if x.negative then ['-'] else []) ++ decimalText x.shortest

end WorkflowAudit.Decimal
