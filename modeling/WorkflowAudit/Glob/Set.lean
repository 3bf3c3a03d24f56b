import WorkflowAudit.Glob.Basic
import WorkflowAudit.Regex.Reader
import WorkflowAudit.Regex.Size

/-!
# Sets of globs

The globs of a list are searched together, by one automaton that is made of the
expression of each.  A list is refused when one of its expressions is nested too
deeply, or when the automaton would be too large.
-/

namespace WorkflowAudit

namespace Glob

open Regex (Item)

/-- One byte of a set that is given by a test. -/
def byteWhere (accepts : UInt8 → Bool) : Regex :=
  let codes := (List.range 0x100).filter fun code => accepts code.toUInt8
  .chars (CharSet.ofRanges (codes.map fun code => (code, code))) false

/-- A byte in either case. -/
def byteItem (b : UInt8) : Item := { regex := byteWhere fun c => lowerByte b == lowerByte c }

def anyNumberOf (regex : Regex) (depth : Nat) : Item :=
  { regex := .repeated 0 none true regex, depth := depth + 1 }

/-- A byte within a name, given as a class of what it is not. -/
def nameByte : Item := { regex := byteWhere (· != slash), depth := 1 }

/-- Any bytes, given by a dot. -/
def anyText : Item := anyNumberOf (byteWhere fun _ => true) 0

/-- Several items nest one level deeper than a single one. -/
def sequenceItem (items : List Item) : Item :=
  match items with
  | [] => { regex := .empty }
  | [item] => item
  | items =>
      { regex := .sequence (items.map Item.regex)
        depth := (items.map Item.depth).foldl max 0 + 1 }

/-- A group of alternatives. -/
def groupItem (branches : List (List Item)) : Item :=
  match branches.map sequenceItem with
  | [branch] => { regex := .group false branch.regex, depth := branch.depth + 1 }
  | branches =>
      { regex := .group false (.choice (branches.map Item.regex))
        depth := (branches.map Item.depth).foldl max 0 + 2 }

/-- A class of several members nests them one level deeper. -/
def classItem (negated : Bool) (ranges : List (Char × Char)) : Item :=
  let members := ranges.flatMap fun (low, high) => byteRanges low high
  { regex := byteWhere (classHolds negated ranges)
    depth := if members.length < 2 then 1 else 2 }

mutual

/-- The expression of a part, as items of the sequence that it stands in. -/
def Part.items : Part → List Item
  | .literal c => (bytesOfChar c).map byteItem
  | .anyByte => [nameByte]
  | .anyBytes => [anyNumberOf nameByte.regex nameByte.depth]
  | .leadingNames =>
      let optional := Regex.repeated 0 (some 1) true (byteItem slash).regex
      [groupItem [[{ regex := optional, depth := 1 }], [anyText, byteItem slash]]]
  | .trailingNames => [byteItem slash, anyText]
  | .namesBetween => [groupItem [[byteItem slash], [byteItem slash, anyText, byteItem slash]]]
  | .byteClass negated ranges => [classItem negated ranges]
  | .oneOf branches => if branchesVoid branches then [] else [groupItem (branchItems branches)]

def itemsOf : List Part → List Item
  | [] => []
  | part :: rest => part.items ++ itemsOf rest

/-- The alternatives that have any content. -/
def branchItems : List (List Part) → List (List Item)
  | [] => []
  | branch :: rest =>
      if allVoid branch then branchItems rest else itemsOf branch :: branchItems rest

end

/-- The expression that matches where a glob matches the whole text. -/
def expression (glob : Glob) : Item :=
  let items := match glob.parts with
    | [.leadingNames] => [anyText]
    | parts => itemsOf parts
  sequenceItem ([{ regex := .assertion .textStart }] ++ items ++
    [{ regex := .assertion .textEnd }])

end Glob

/-- Globs that are searched together. -/
structure GlobSet where
  globs : List Glob
  deriving Repr

namespace GlobSet

/-- The greatest size of the automaton, in bytes. -/
def maxSize : Nat := 10 * Nat.pow 2 20

inductive Fault where
  /-- The expression of the glob at a place of the list nests too deeply. -/
  | tooDeep (index : Nat)
  | tooLarge
  deriving DecidableEq, Repr

def Fault.message : Fault → String
  | .tooDeep index => s!"error parsing pattern {index}"
  | .tooLarge => "error building NFA"

/-- Puts globs together.  Depth is looked at first. -/
def build (globs : List Glob) : Except Fault GlobSet :=
  let items := globs.map Glob.expression
  match items.findIdx? fun item => Regex.maxDepth < item.depth with
  | some index => .error (.tooDeep index)
  | none =>
      if Regex.fits maxSize (items.map fun item => .ofRegex item.regex) then .ok ⟨globs⟩
      else .error .tooLarge

def isMatch (set : GlobSet) (text : String) : Bool := set.globs.any (·.isMatch text)

end GlobSet

end WorkflowAudit
