/-!
# Sets of characters

A set of characters is a list of ranges of their codes, in ascending order.
Ranges that touch are joined; those that only surrogates part stay apart, because
surrogates are no characters.  Tables of such sets are packed into texts: each number is
the distance from the one before, written in base 32 with one alphabet for the
last digit and another for the digits before it.
-/

namespace WorkflowAudit

/-- The greatest code point. -/
def maxCodePoint : Nat := 0x10FFFF

structure CharSet where
  /-- First and last members, in ascending order. -/
  ranges : List (Nat × Nat)
  deriving DecidableEq, Repr

namespace CharSet

def empty : CharSet := ⟨[]⟩

def all : CharSet := ⟨[(0, maxCodePoint)]⟩

def ofRange (low high : Nat) : CharSet := ⟨[(low, high)]⟩

def singleton (c : Char) : CharSet := ofRange c.toNat c.toNat

def isEmpty (set : CharSet) : Bool := set.ranges.isEmpty

def isAscii (set : CharSet) : Bool := set.ranges.all (·.2 < 0x80)

/-- Membership in ascending ranges; the search ends at the first range above. -/
def memberOf (code : Nat) : List (Nat × Nat) → Bool
  | [] => false
  | (low, high) :: rest =>
      if code < low then false else if code ≤ high then true else memberOf code rest

def contains (set : CharSet) (c : Char) : Bool := memberOf c.toNat set.ranges

/-- Joins ranges that overlap or touch, given in the order of their first members. -/
def join (low high : Nat) : List (Nat × Nat) → List (Nat × Nat)
  | [] => [(low, high)]
  | (next, last) :: rest =>
      if next ≤ high + 1 then join low (max high last) rest
      else (low, high) :: join next last rest

/-- The set of the members of any ranges. -/
def ofRanges (ranges : List (Nat × Nat)) : CharSet :=
  match ranges.mergeSort fun left right => left.1 ≤ right.1 with
  | [] => empty
  | (low, high) :: rest => ⟨join low high rest⟩

def union (left right : CharSet) : CharSet := ofRanges (left.ranges ++ right.ranges)

def unionAll (sets : List CharSet) : CharSet := ofRanges (sets.flatMap CharSet.ranges)

/-- The next character's code; surrogates are skipped. -/
def codeAfter (code : Nat) : Nat := if code == 0xD7FF then 0xE000 else code + 1

/-- The code of the character before one. -/
def codeBefore (code : Nat) : Nat := if code == 0xE000 then 0xD7FF else code - 1

/-- The gaps behind a range that ends at `last`.  Between ranges that only
surrogates part the ends of the gap change places. -/
def gapsBehind (last : Nat) : List (Nat × Nat) → List (Nat × Nat)
  | [] => if last < maxCodePoint then [(codeAfter last, maxCodePoint)] else []
  | (low, high) :: rest =>
      let first := codeAfter last
      let final := codeBefore low
      (min first final, max first final) :: gapsBehind high rest

def complement (set : CharSet) : CharSet :=
  match set.ranges with
  | [] => all
  | (low, high) :: rest =>
      ⟨(if 0 < low then [(0, codeBefore low)] else []) ++ gapsBehind high rest⟩

/-- What ascending ranges have in common. -/
def commonRanges (left right : List (Nat × Nat)) : List (Nat × Nat) :=
  match left, right with
  | (low, high) :: left, (first, last) :: right =>
      let rest := if high < last then commonRanges left ((first, last) :: right)
        else commonRanges ((low, high) :: left) right
      if max low first ≤ min high last then (max low first, min high last) :: rest else rest
  | _, _ => []
termination_by left.length + right.length

def inter (left right : CharSet) : CharSet := ⟨commonRanges left.ranges right.ranges⟩

/-- What ascending ranges keep when others are taken away. -/
def remainingRanges (kept removed : List (Nat × Nat)) : List (Nat × Nat) :=
  match kept, removed with
  | [], _ => []
  | kept, [] => kept
  | (low, high) :: kept, (first, last) :: removed =>
      if last < low then remainingRanges ((low, high) :: kept) removed
      else if high < first then
        (low, high) :: remainingRanges kept ((first, last) :: removed)
      else
        let rest := if last < high then remainingRanges ((codeAfter last, high) :: kept) removed
          else remainingRanges kept ((first, last) :: removed)
        if low < first then (low, codeBefore first) :: rest else rest
termination_by kept.length + removed.length

def diff (left right : CharSet) : CharSet := ⟨remainingRanges left.ranges right.ranges⟩

def symmDiff (left right : CharSet) : CharSet := (left.union right).diff (left.inter right)

/-- A set given by the characters of a text. -/
def ofText (text : String) : CharSet := ofRanges (text.toList.map fun c => (c.toNat, c.toNat))

/-! Packed tables -/

/-- The value of a digit, and whether it is the last one of its number. -/
def packedDigit (c : Char) : Nat × Bool :=
  let code := c.toNat
  if '0' ≤ c && c ≤ '9' then (code - '0'.toNat, true)
  else if 'A' ≤ c && c ≤ 'V' then (code - 'A'.toNat + 10, true)
  else if 'a' ≤ c && c ≤ 'z' then (code - 'a'.toNat, false)
  else if 'W' ≤ c && c ≤ 'Z' then (code - 'W'.toNat + 26, false)
  else if c == '.' then (30, false)
  else (31, false)

/-- Reads on behind the digits that made `value` of the current number. -/
def numbersFrom (value : Nat) : List Char → List Nat
  | [] => []
  | c :: rest =>
      let (digit, last) := packedDigit c
      if last then (value * 32 + digit) :: numbersFrom 0 rest
      else numbersFrom (value * 32 + digit) rest

/-- The numbers of a packed text. -/
def unpackNumbers (text : String) : List Nat := numbersFrom 0 text.toList

/-- Ranges from the gaps before them and their widths. -/
def rangesOfSteps (last : Nat) : List Nat → List (Nat × Nat)
  | gap :: width :: rest =>
      let low := last + gap
      (low, low + width) :: rangesOfSteps (low + width) rest
  | _ => []

def unpack (text : String) : CharSet := ⟨rangesOfSteps 0 (unpackNumbers text)⟩

end CharSet

end WorkflowAudit
