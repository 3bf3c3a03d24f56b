/-!
# ASCII classes and case

Owners, repositories, commit ids, modes and action names are compared over
ASCII only: a letter outside ASCII has no other case here and is no digit.
-/

namespace WorkflowAudit.Text

def isDecimalDigit (c : Char) : Bool := '0' ≤ c && c ≤ '9'

def isAsciiLetter (c : Char) : Bool := ('a' ≤ c && c ≤ 'z') || ('A' ≤ c && c ≤ 'Z')

def isHexDigit (c : Char) : Bool :=
  isDecimalDigit c || ('a' ≤ c && c ≤ 'f') || ('A' ≤ c && c ≤ 'F')

/-- The value of a digit in any base up to 36. -/
def digitValue? (c : Char) : Option Nat :=
  if isDecimalDigit c then some (c.toNat - '0'.toNat)
  else if 'a' ≤ c && c ≤ 'z' then some (c.toNat - 'a'.toNat + 10)
  else if 'A' ≤ c && c ≤ 'Z' then some (c.toNat - 'A'.toNat + 10)
  else none

/-- The number that a non-empty text of digits denotes in `base`. -/
def natOfDigits? (base : Nat) (digits : List Char) : Option Nat :=
  if digits.isEmpty then none
  else digits.foldlM (fun value c => do
    let digit ← digitValue? c
    if digit < base then some (value * base + digit) else none) 0

/-- The lower-case hexadecimal digit of a value below sixteen. -/
def hexDigitOf (value : Nat) : Char :=
  ['0', '1', '2', '3', '4', '5', '6', '7', '8', '9', 'a', 'b', 'c', 'd', 'e', 'f'].getD value '0'

def lowerAscii (text : List Char) : List Char := text.map Char.toLower

def lowerAsciiString (text : String) : String := String.ofList (lowerAscii text.toList)

/-- Equality up to the case of ASCII letters. -/
def equalIgnoringCase (left right : String) : Bool :=
  lowerAscii left.toList == lowerAscii right.toList

/-- What a word of 64 bits cannot hold: `2 ^ 64`. -/
def wordLimit : Nat := Nat.pow 2 64

/-- A decimal text of a number that fits a word; a leading plus sign is allowed. -/
def word64? (text : String) : Option Nat :=
  let digits := match text.toList with
    | '+' :: rest => rest
    | chars => chars
  (natOfDigits? 10 digits).bind fun value => if value < wordLimit then some value else none

end WorkflowAudit.Text
