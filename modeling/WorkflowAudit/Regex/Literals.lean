import WorkflowAudit.Regex.NormalForm

/-!
# Literal searches

The texts that matches begin with are collected from an expression in order of
preference.  Each is exact while it is a whole match, and no longer once it has
been cut short.  When all of them are exact, and the expression asks nothing of
positions and captures nothing, looking for those texts is all that matching it
takes, and no automaton is made, however large it would be.
-/

namespace WorkflowAudit.Regex

/-- A text that matches begin with; an exact one is a whole match. -/
structure Literal where
  bytes : List UInt8
  exact : Bool := true
  deriving DecidableEq, Repr

namespace Literal

def cut (length : Nat) (literal : Literal) : Literal :=
  if literal.bytes.length ≤ length then literal
  else { bytes := literal.bytes.take length, exact := false }

def makeInexact (literal : Literal) : Literal := { literal with exact := false }

/-- A literal with another one behind it. -/
def append (left right : Literal) : Literal :=
  { bytes := left.bytes ++ right.bytes, exact := right.exact }

end Literal

/-- Literals in order of preference; absent where any text can begin a match. -/
abbrev Literals := Option (List Literal)

namespace Literals

/-- The greatest number of literals. -/
def maxCount : Nat := 250

def maxBytes : Nat := 100

/-- The greatest number of characters of a set that is spelled out. -/
def maxMembers : Nat := 10

/-- How often a repetition is spelled out. -/
def maxCopies : Nat := 10

def emptyText : Literals := some [{ bytes := [] }]

def isExact (literals : Literals) : Bool := literals.any (·.all Literal.exact)

/-- Whether nothing that follows can make the literals longer. -/
def isFinal (literals : Literals) : Bool := literals.all (·.all fun literal => !literal.exact)

def minBytes (literals : Literals) : Option Nat :=
  literals.bind fun list => (list.map (·.bytes.length)).min?

def makeInexact (literals : Literals) : Literals := literals.map (·.map Literal.makeInexact)

/-- Drops literals that repeat the one before them. -/
def dropRepeated : List Literal → List Literal
  | [] => []
  | first :: rest =>
      match dropRepeated rest with
      | [] => [first]
      | next :: others =>
          if first.bytes == next.bytes then
            { first with exact := first.exact && next.exact } :: others
          else first :: next :: others

def cut (length : Nat) (literals : Literals) : Literals := literals.map (·.map (·.cut length))

def count (literals : Literals) : Nat := (literals.map List.length).getD 0

def concatenation (left right : Literals) : Literals :=
  let right := if left.count * right.count ≤ maxCount then right else none
  let joined : Literals :=
    match left, right with
    | none, some _ => none
    | left, none => if left.minBytes == some 0 then none else left.makeInexact
    | some lefts, some rights =>
        some (dropRepeated (lefts.flatMap fun literal =>
          if literal.exact then rights.map literal.append else [literal]))
  joined.cut maxBytes

/-- Where there would be too many, the literals of both sides are cut to four
bytes first. -/
def union (left right : Literals) : Literals :=
  let trim := fun (literals : Literals) => (literals.cut 4).map dropRepeated
  let tooMany := fun (left right : Literals) =>
    left.isSome && right.isSome && maxCount < left.count + right.count
  let (left, right) := if tooMany left right then (trim left, trim right) else (left, right)
  if tooMany left right then none
  else match left, right with
    | some lefts, some rights => some (dropRepeated (lefts ++ rights))
    | _, _ => none

/-- The characters of a small set, or its bytes. -/
def ofSet (members : CharSet) (unicode : Bool) : Literals :=
  let total := members.ranges.foldl (fun total (low, high) => total + (high - low + 1)) 0
  if maxMembers < total then none
  else some (members.ranges.flatMap fun (low, high) =>
    (List.range (high - low + 1)).map fun step =>
      { bytes := NormalForm.bytesOfCode unicode (low + step) })

/-- Several copies of literals in a row. -/
def copies (literals : Literals) : Nat → Literals → Literals
  | 0, front => front
  | count + 1, front =>
      if front.isFinal then front else copies literals count (front.concatenation literals)

def ofRepetition (least : Nat) (most : Option Nat) (greedy : Bool) (body : Literals) :
    Literals :=
  if least == 0 then
    let body := if most == some 1 then body else body.makeInexact
    if greedy then body.union emptyText else emptyText.union body
  else
    let front := copies body (min least maxCopies) emptyText
    if most == some least && least ≤ maxCopies then front else front.makeInexact

mutual

/-- The literals that the matches of a form begin with. -/
def ofForm : NormalForm → Literals
  | .empty => emptyText
  | .literal bytes => cut maxBytes (some [{ bytes }])
  | .oneOf members unicode => ofSet members unicode
  | .assertion _ => emptyText
  | .repeated least most greedy body => ofRepetition least most greedy (ofForm body)
  | .capture body => ofForm body
  | .sequence parts => ofParts emptyText parts
  | .choice branches => ofBranches (some []) branches

def ofParts (front : Literals) : List NormalForm → Literals
  | [] => front
  | part :: rest =>
      if front.isFinal then front else ofParts (front.concatenation (ofForm part)) rest

def ofBranches (others : Literals) : List NormalForm → Literals
  | [] => others
  | branch :: rest =>
      if others.isNone then others else ofBranches (others.union (ofForm branch)) rest

end

/-- Drops literals that begin with one in front of them: where the longer one
matches, the other is preferred. -/
def dropCovered : List Literal → List Literal
  | [] => []
  | first :: rest =>
      first :: (dropCovered rest).filter fun literal => !first.bytes.isPrefixOf literal.bytes

def commonBytes : List UInt8 → List UInt8 → List UInt8
  | b :: left, c :: right => if b == c then b :: commonBytes left right else []
  | _, _ => []

/-- What all literals begin with. -/
def commonStart : List Literal → List UInt8
  | [] => []
  | first :: rest => rest.foldl (fun start literal => commonBytes start literal.bytes) first.bytes

/-- The bytes that occur often in texts, as ranges. -/
def commonByteRanges : List (UInt8 × UInt8) :=
  [(0x0A, 0x0A), (0x0D, 0x0D), (0x20, 0x20), (0x28, 0x29), (0x2C, 0x32), (0x39, 0x3A),
    (0x5F, 0x5F), (0x61, 0x69), (0x6C, 0x70), (0x72, 0x76), (0x78, 0x79), (0x7C, 0x7C),
    (0x80, 0x84), (0x90, 0x90), (0xB1, 0xB1), (0xB5, 0xB7), (0xB9, 0xBD), (0xBF, 0xFF)]

def isCommonByte (b : UInt8) : Bool :=
  commonByteRanges.any fun (low, high) => low ≤ b && b ≤ high

/-- A literal that is found nearly everywhere: nothing, or one of the most frequent
bytes. -/
def isPoison (literal : Literal) : Bool :=
  match literal.bytes with
  | [] => true
  | [b] => b == 0x20 || b == 0x65 || b == 0x74 || 0xC0 ≤ b
  | _ => false

/-- Cuts literals shorter, step by step, while they are too many.  A step says to
which length, and beyond how many. -/
def shorten : List (Nat × Nat) → List Literal → List Literal
  | [], list => list
  | (length, most) :: steps, list =>
      if list.length ≤ most then list else shorten steps (dropCovered (list.map (·.cut length)))

def shorteningSteps : List (Nat × Nat) := [(5, 10), (4, 10), (3, 64), (2, 64), (1, 10)]

/-- The literals that are searched for.  A long common start is searched for in
place of all that have it; of many literals only their starts are, unless those
are too short, too frequent or still too many. -/
def optimized (list : List Literal) : List Literal :=
  let kept := dropCovered list
  let start := commonStart kept
  let areFew := kept.all Literal.exact && kept.length ≤ 16
  if 1 < list.length && 1 ≤ start.length && start.length ≤ 3 &&
      !(start.head?.any isCommonByte) then
    dropRepeated (kept.map (·.cut 1))
  else
    let kept := if 4 < start.length || (1 < start.length && !areFew) then
      dropRepeated (kept.map (·.cut start.length)) else kept
    let short := shorten shorteningSteps kept
    let isWorse := short.any isPoison || (minBytes (some short)).all (· ≤ 2) || 64 < short.length
    if kept.all Literal.exact && isWorse then kept else short

end Literals

mutual

/-- Whether a form neither captures nor asks anything of positions. -/
def NormalForm.isPlain : NormalForm → Bool
  | .assertion _ => false
  | .capture _ => false
  | .repeated _ _ _ body => body.isPlain
  | .sequence parts => allPlain parts
  | .choice branches => allPlain branches
  | _ => true

def allPlain : List NormalForm → Bool
  | [] => true
  | form :: rest => form.isPlain && allPlain rest

end

/-- Whether looking for some texts is all that matching a form takes. -/
def NormalForm.isLiteralSearch (form : NormalForm) : Bool :=
  form.isPlain &&
    match Literals.ofForm form with
    | none => false
    | some list =>
        !list.isEmpty && list.all (!·.bytes.isEmpty) && (Literals.optimized list).all Literal.exact

end WorkflowAudit.Regex
