import WorkflowAudit.Unicode.CharSet

/-!
# Regular expressions

An expression has the shape of its text: groups stay groups, and a repetition
stands over what it repeats.  Flags are no part of it, because they only decide
which characters and positions its leaves stand for.
-/

namespace WorkflowAudit

/-- A condition on the characters on both sides of a position. -/
inductive WordEdge where
  | boundary
  | noBoundary
  | start
  | finish
  /-- No word character in front. -/
  | startHalf
  /-- No word character behind. -/
  | finishHalf
  deriving DecidableEq, Repr

/-- Whether an edge lies between characters of which `before` and `after` say
whether they belong to words. -/
def WordEdge.holds (edge : WordEdge) (before after : Bool) : Bool :=
  match edge with
  | .boundary => before != after
  | .noBoundary => before == after
  | .start => !before && after
  | .finish => before && !after
  | .startHalf => !before
  | .finishHalf => !after

/-- What a position can be required to be. -/
inductive Assertion where
  | textStart
  | textEnd
  /-- Lines end at a line feed, and under `crlf` also at a carriage return. -/
  | lineStart (crlf : Bool)
  | lineEnd (crlf : Bool)
  /-- Words are those of Unicode or of ASCII. -/
  | word (edge : WordEdge) (unicode : Bool)
  deriving DecidableEq, Repr

inductive Regex where
  | empty
  /-- One character of a set; without Unicode the set is one of bytes. -/
  | chars (set : CharSet) (unicode : Bool)
  | assertion (a : Assertion)
  | group (captures : Bool) (body : Regex)
  /-- A repetition, without upper bound where `most` is absent. -/
  | repeated (least : Nat) (most : Option Nat) (greedy : Bool) (body : Regex)
  | sequence (parts : List Regex)
  /-- Alternatives in the order of preference. -/
  | choice (branches : List Regex)
  deriving Repr, Inhabited

namespace Regex

mutual

/-- The greatest number of characters of a match; `none` without a bound. -/
def maxLength : Regex → Option Nat
  | .empty => some 0
  | .chars _ _ => some 1
  | .assertion _ => some 0
  | .group _ body => maxLength body
  | .repeated _ most _ body =>
      match most, maxLength body with
      | some 0, _ => some 0
      | _, some 0 => some 0
      | some most, some length => some (most * length)
      | _, _ => none
  | .sequence parts => maxLengthSum parts
  | .choice branches => maxLengthMax branches

def maxLengthSum : List Regex → Option Nat
  | [] => some 0
  | part :: rest =>
      match maxLength part, maxLengthSum rest with
      | some length, some others => some (length + others)
      | _, _ => none

def maxLengthMax : List Regex → Option Nat
  | [] => some 0
  | branch :: rest =>
      match maxLength branch, maxLengthMax rest with
      | some length, some others => some (max length others)
      | _, _ => none

end

mutual

/-- Whether an expression can match without a character.  One that can match
nothing at all counts as if it could. -/
def matchesEmpty : Regex → Bool
  | .empty => true
  | .chars set _ => set.isEmpty
  | .assertion _ => true
  | .group _ body => matchesEmpty body
  | .repeated least most _ body => least == 0 || most == some 0 || matchesEmpty body
  | .sequence parts => allMatchEmpty parts
  | .choice branches => anyMatchesEmpty branches

def allMatchEmpty : List Regex → Bool
  | [] => true
  | part :: rest => matchesEmpty part && allMatchEmpty rest

def anyMatchesEmpty : List Regex → Bool
  | [] => false
  | branch :: rest => matchesEmpty branch || anyMatchesEmpty rest

end

/-- The bounds of a repetition once repetitions of nothing are cut short. -/
def effectiveBounds (least : Nat) (most : Option Nat) (body : Regex) : Nat × Option Nat :=
  if body.maxLength == some 0 then (min least 1, some (most.elim 1 (min · 1)))
  else (least, most)

end Regex

end WorkflowAudit
