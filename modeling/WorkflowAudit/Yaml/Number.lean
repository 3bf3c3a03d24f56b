import WorkflowAudit.Decimal.Binary64
import WorkflowAudit.Text.Ascii
import WorkflowAudit.Text.Pieces

/-!
# Numbers in YAML

Plain scalars are read as integers in four bases or as decimal numbers, and a
decimal number is written with the fewest digits that read back.
-/

namespace WorkflowAudit.Yaml

open Text Decimal

inductive Number where
  | natural (value : Nat)
  /-- An integer with a minus sign in front, even if it is zero. -/
  | minus (magnitude : Nat)
  | real (value : Binary64)
  | infinite (negative : Bool)
  | notANumber
  deriving DecidableEq, Repr

/-! Writing -/

def Number.text : Number → String
  | .natural value => toString value
  | .minus 0 => "0"
  | .minus magnitude => "-" ++ toString magnitude
  | .real value => String.ofList value.text
  | .infinite negative => if negative then "-.inf" else ".inf"
  | .notANumber => ".nan"

/-- An integer by its sign and its magnitude. -/
def Number.ofSign (negative : Bool) (magnitude : Nat) : Number :=
  if negative then .minus magnitude else .natural magnitude

/-- Equality of values: the sign of a zero does not count. -/
def Number.same : Number → Number → Bool
  | .natural 0, .minus 0 => true
  | .minus 0, .natural 0 => true
  | .real left, .real right =>
      left == right || (left.mantissa == 0 && right.mantissa == 0)
  | left, right => left == right

/-! Reading -/

/-- Digits behind a base mark, with nothing else. -/
def basedDigits? (text : List Char) : Option Nat :=
  match text with
  | '0' :: 'x' :: digits => natOfDigits? 16 digits
  | '0' :: 'o' :: digits => natOfDigits? 8 digits
  | '0' :: 'b' :: digits => natOfDigits? 2 digits
  | _ => none

/-- Zeros in front of further digits: no number, but a text. -/
def hasIdleZero (unsigned : List Char) : Bool :=
  match unsigned with
  | '0' :: next :: rest => (next :: rest).all isDecimalDigit
  | _ => false

/-- The sign of a text, and the text behind it. -/
def splitSign (text : List Char) : Option Char × List Char :=
  match text with
  | '-' :: rest => (some '-', rest)
  | '+' :: rest => (some '+', rest)
  | rest => (none, rest)

/-- The integer that a text denotes, of any size: whether a minus sign stands in
front, and the magnitude. -/
def integer? (text : List Char) : Option (Bool × Nat) :=
  let (sign, unsigned) := splitSign text
  let magnitude := match basedDigits? unsigned with
    | some value => some value
    | none => if hasIdleZero unsigned then none else natOfDigits? 10 unsigned
  magnitude.map fun value => (sign == some '-', value)

/-- The least word that holds an integer, with or without a sign. -/
inductive IntegerFit where
  /-- From `- 2 ^ 63` to `2 ^ 64 - 1`. -/
  | word
  /-- From `- 2 ^ 127` to `2 ^ 128 - 1`. -/
  | doubleWord
  | none
  deriving DecidableEq, Repr

def integerFit (negative : Bool) (magnitude : Nat) : IntegerFit :=
  let fits := fun (bits : Nat) =>
    if negative then magnitude ≤ Nat.pow 2 (bits - 1) else magnitude < Nat.pow 2 bits
  if fits 64 then .word else if fits 128 then .doubleWord else .none

/-- The exponent part of a decimal, or nothing. -/
def exponent? : List Char → Option Int
  | [] => some 0
  | mark :: rest =>
      if mark == 'e' || mark == 'E' then
        let (sign, digits) := splitSign rest
        (natOfDigits? 10 digits).map fun value =>
          if sign = some '-' then -(value : Int) else value
      else none

/-- The finite number that an unsigned decimal is nearest to. -/
def decimal? (negative : Bool) (text : List Char) : Option Binary64 := do
  let whole := text.takeWhile isDecimalDigit
  let (fraction, rest) := match text.drop whole.length with
    | '.' :: rest => (rest.takeWhile isDecimalDigit, rest.dropWhile isDecimalDigit)
    | rest => ([], rest)
  let coefficient ← natOfDigits? 10 (whole ++ fraction)
  let exponent ← exponent? rest
  Binary64.ofDecimal? negative coefficient (exponent - fraction.length)

/-- The decimal number that a text denotes. -/
def real? (text : List Char) : Option Number :=
  let (sign, unsigned) := splitSign text
  if [".inf", ".Inf", ".INF"].contains (String.ofList unsigned) then
    some (.infinite (sign == some '-'))
  else if sign.isNone && [".nan", ".NaN", ".NAN"].contains (String.ofList unsigned) then
    some .notANumber
  else (decimal? (sign == some '-') unsigned).map .real

end WorkflowAudit.Yaml
