import WorkflowAudit.Text.Ascii

/-!
# Glob patterns

Globs are matched byte by byte against paths whose names are separated by
slashes, and the case of ASCII letters is ignored.  What a glob can leave of a
text is computed part by part: a set of remainders goes into each part and a set
of remainders comes out.  A glob matches when nothing may be left.
-/

namespace WorkflowAudit

namespace Glob

abbrev Bytes := List UInt8

def slash : UInt8 := 0x2F

def bytesOf (text : String) : Bytes := text.toUTF8.toList

def bytesOfChar (c : Char) : Bytes := bytesOf c.toString

/-- The lower case of an ASCII letter. -/
def lowerByte (b : UInt8) : UInt8 := if 0x41 ≤ b && b ≤ 0x5A then b + 0x20 else b

/-- The upper case of an ASCII letter. -/
def upperByte (b : UInt8) : UInt8 := if 0x61 ≤ b && b ≤ 0x7A then b - 0x20 else b

inductive Part where
  | literal (c : Char)
  /-- One byte within a name. -/
  | anyByte
  /-- Any bytes within a name. -/
  | anyBytes
  /-- Names at the start, or none. -/
  | leadingNames
  /-- A slash and all that follows. -/
  | trailingNames
  /-- A slash, and names with a slash behind them. -/
  | namesBetween
  | byteClass (negated : Bool) (ranges : List (Char × Char))
  /-- One of several globs; those without any content do not count. -/
  | oneOf (branches : List (List Part))
  deriving Repr, Inhabited

/-- The ranges of bytes that a range of characters stands for.  The bytes of a
longer character stand on their own, and the range runs from the last byte of
its first character to the first byte of its last one. -/
def byteRanges (low high : Char) : List (UInt8 × UInt8) :=
  let single := fun (b : UInt8) => (b, b)
  let first := bytesOfChar low
  let last := bytesOfChar high
  if low == high then first.map single
  else first.dropLast.map single ++ [(first.getLastD 0, last.headD 0)] ++ last.tail.map single

/-- Whether a class holds a byte in either case. -/
def classHolds (negated : Bool) (ranges : List (Char × Char)) (b : UInt8) : Bool :=
  let bytes := ranges.flatMap fun (low, high) => byteRanges low high
  let within := fun (b : UInt8) => bytes.any fun (low, high) => low ≤ b && b ≤ high
  (within (lowerByte b) || within (upperByte b) || within b) != negated

/-- What may be left behind bytes that match a text up to case. -/
def afterBytes : Bytes → Bytes → List Bytes
  | [], text => [text]
  | _ :: _, [] => []
  | b :: expected, c :: text => if lowerByte b == lowerByte c then afterBytes expected text else []

/-- What may be left behind any number of bytes of one name. -/
def afterName : Bytes → List Bytes
  | [] => [[]]
  | b :: rest => (b :: rest) :: if b == slash then [] else afterName rest

/-- What may be left behind any number of bytes. -/
def afterAny : Bytes → List Bytes
  | [] => [[]]
  | b :: rest => (b :: rest) :: afterAny rest

/-- What may be left behind a slash, with anything before it. -/
def afterSlashes : Bytes → List Bytes
  | [] => []
  | b :: rest => if b == slash then rest :: afterSlashes rest else afterSlashes rest

/-- What is left behind one byte that a test accepts. -/
def afterByte (accepts : UInt8 → Bool) : Bytes → List Bytes
  | [] => []
  | b :: rest => if accepts b then [rest] else []

/-- What is left behind a slash. -/
def afterSlash (text : Bytes) : List Bytes := afterByte (· == slash) text

mutual

/-- Whether a part has no content, as a group of empty globs. -/
def Part.isVoid : Part → Bool
  | .oneOf branches => branchesVoid branches
  | _ => false

def allVoid : List Part → Bool
  | [] => true
  | part :: rest => part.isVoid && allVoid rest

def branchesVoid : List (List Part) → Bool
  | [] => true
  | branch :: rest => allVoid branch && branchesVoid rest

end

mutual

/-- What a part may leave of a text. -/
def Part.remainders : Part → Bytes → List Bytes
  | .literal c, text => afterBytes (bytesOfChar c) text
  | .anyByte, text => afterByte (· != slash) text
  | .anyBytes, text => afterName text
  | .leadingNames, text => text :: afterSlashes text
  | .trailingNames, text => (afterSlash text).flatMap afterAny
  | .namesBetween, text => (afterSlash text).flatMap fun rest => rest :: afterSlashes rest
  | .byteClass negated ranges, text => afterByte (classHolds negated ranges) text
  | .oneOf branches, text =>
      if branchesVoid branches then [text] else branchRemainders branches text

/-- What several parts in a row may leave; equal remainders are kept once. -/
def remainders : List Part → List Bytes → List Bytes
  | [], texts => texts
  | part :: rest, texts => remainders rest (texts.flatMap part.remainders).eraseDups

def branchRemainders : List (List Part) → Bytes → List Bytes
  | [], _ => []
  | branch :: rest, text =>
      if allVoid branch then branchRemainders rest text
      else remainders branch [text] ++ branchRemainders rest text

end

end Glob

/-- A glob, by its parts. -/
structure Glob where
  parts : List Glob.Part
  deriving Repr

/-- Whether a glob matches a whole text.  Leading names alone match everything. -/
def Glob.isMatch (glob : Glob) (text : String) : Bool :=
  match glob.parts with
  | [.leadingNames] => true
  | parts => (remainders parts [bytesOf text]).any List.isEmpty

end WorkflowAudit
