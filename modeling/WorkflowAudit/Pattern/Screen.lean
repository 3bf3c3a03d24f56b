import WorkflowAudit.Text.Blank
import WorkflowAudit.Text.Pieces
import WorkflowAudit.Text.Ascii

/-!
# The safety screen for patterns

The screen reads a pattern once from the left and refuses the shapes that make
backtracking matchers slow: a widely repeated group whose body repeats without
bound, and a widely repeated group whose alternatives overlap.  It keeps one
frame per open group, tracks the verbose flag so that a comment cannot hide a
group boundary, and decides without compiling anything.
-/

namespace WorkflowAudit.Pattern

open Text

def maxLength : Nat := 1024

/-- A group may be repeated this often even if its body repeats without bound. -/
def maxNestedRepeat : Nat := 10

inductive Hazard where
  | nestedRepetition
  | overlappingAlternatives
  deriving DecidableEq, Repr

def Hazard.reason : Hazard → String
  | .nestedRepetition => "nested unbounded quantifier"
  | .overlappingAlternatives => "repeated alternation with overlapping branches"

inductive Malformation where
  | unbalancedClose
  | unclosedGroup
  | trailingBackslash
  | unterminatedEscape
  | unterminatedClass
  | malformedGroup
  deriving DecidableEq, Repr

def Malformation.reason : Malformation → String
  | .unbalancedClose => "unbalanced ')'"
  | .unclosedGroup => "unclosed group"
  | .trailingBackslash => "trailing backslash"
  | .unterminatedEscape => "unterminated escape"
  | .unterminatedClass => "unterminated character class"
  | .malformedGroup => "malformed group prefix"

/-- Why the screen refuses a pattern. -/
inductive Objection where
  | hazard (hazard : Hazard)
  | malformed (fault : Malformation)
  deriving DecidableEq, Repr

/-- What the screen knows of one open group. -/
structure Frame where
  /-- The body read so far repeats something without bound, at any depth. -/
  unbounded : Bool := false
  verbose : Bool := false
  /-- The finished alternatives, in order. -/
  branches : List (List Char) := []
  /-- The alternative that is being read. -/
  current : List Char := []
  deriving DecidableEq, Repr

/-- What a closed group leaves for the quantifier after it. -/
structure GroupBody where
  unbounded : Bool
  overlapping : Bool
  deriving DecidableEq, Repr

/-- The open groups, innermost first, and the group that has just been closed.
The outermost frame stands for the whole pattern and is never closed. -/
structure ScreenState where
  frame : Frame := {}
  outer : List Frame := []
  lastGroup : Option GroupBody := none
  deriving DecidableEq, Repr

/-- A repetition operator: its upper bound, if it has one, and how many
characters of it follow its first one. -/
structure Quantifier where
  max : Option Nat
  extra : Nat
  deriving DecidableEq, Repr

namespace Quantifier

def repeats (q : Quantifier) : Bool := q.max.all (1 < ·)

def isWide (q : Quantifier) : Bool := q.max.all (maxNestedRepeat < ·)

def isUnbounded (q : Quantifier) : Bool := q.max.isNone

/-- The bound that the body of a braced repetition states: an exact count, a
range that may leave out its lower end, or a lower end alone. -/
def braceBound? (body : List Char) : Option (Option Nat) :=
  let number? := fun digits =>
    if digits.all isDecimalDigit then natOfDigits? 10 digits else none
  match splitFirst? ',' body with
  | none => (number? (trim body)).map some
  | some (least, most) =>
      let least := trim least
      let most := trim most
      if most.isEmpty then (number? least).map fun _ => none
      else if least.isEmpty || (number? least).isSome then (number? most).map some
      else none

/-- Counts a lazy or possessive mark as part of the operator. -/
def withSuffix (max : Option Nat) (extra : Nat) (following : List Char) : Quantifier :=
  match following with
  | '?' :: _ => ⟨max, extra + 1⟩
  | '+' :: _ => ⟨max, extra + 1⟩
  | _ => ⟨max, extra⟩

/-- Reads an operator that starts with `first`; a brace that opens no
repetition is none. -/
def read? (first : Char) (rest : List Char) : Option Quantifier :=
  if first = '?' then some (withSuffix (some 1) 0 rest)
  else if first = '*' || first = '+' then some (withSuffix none 0 rest)
  else match splitFirst? '}' rest with
    | none => none
    | some (body, following) =>
        (braceBound? body).map fun max => withSuffix max (body.length + 1) following

end Quantifier

/-- How many characters of an escape follow its backslash. -/
def escapeExtent : List Char → Except Malformation Nat
  | [] => .error .trailingBackslash
  | kind :: rest =>
      let braced := ['p', 'P', 'x', 'u', 'U'].contains kind
      match braced, rest with
      | true, '\x7b' :: body =>
          match splitFirst? '\x7d' body with
          | some (name, _) => .ok (name.length + 3)
          | none => .error .unterminatedEscape
      | _, _ =>
          .ok (if kind = 'x' then 3 else if kind = 'u' then 5 else if kind = 'U' then 9 else 1)

/-- How many characters are left of a class when `depth` brackets are open. -/
def classTail (depth : Nat) : List Char → Except Malformation Nat
  | [] => .error .unterminatedClass
  | '\\' :: [] => .error .unterminatedClass
  | '\\' :: _ :: rest => (classTail depth rest).map (· + 2)
  | '[' :: rest => (classTail (depth + 1) rest).map (· + 1)
  | ']' :: rest => if depth ≤ 1 then .ok 1 else (classTail (depth - 1) rest).map (· + 1)
  | _ :: rest => (classTail depth rest).map (· + 1)

/-- How many characters of a class follow its opening bracket.  A closing
bracket directly after the opening or the negation is a member. -/
def classExtent (rest : List Char) : Except Malformation Nat :=
  match rest with
  | '^' :: ']' :: tail => (classTail 1 tail).map (· + 2)
  | '^' :: tail => (classTail 1 tail).map (· + 1)
  | ']' :: tail => (classTail 1 tail).map (· + 1)
  | tail => classTail 1 tail

/-- The flag list of a group that only sets flags, such as `(?i-x)`. -/
def flagGroup? (rest : List Char) : Option (List Char) :=
  match rest with
  | '?' :: tail =>
      let flags := tail.takeWhile fun c => isAsciiLetter c || c == '-'
      if (tail.drop flags.length).head? = some ')' then some flags else none
  | _ => none

/-- Reads one character of a flag list, given the verbose flag and whether a minus
sign has been read; the sign negates what follows it. -/
def verboseStep : Bool × Bool → Char → Bool × Bool
  | (verbose, negated), c =>
      if c = '-' then (verbose, true)
      else if c = 'x' then (!negated, negated)
      else (verbose, negated)

/-- The verbose flag after a flag list. -/
def verboseAfter (flags : List Char) (verbose : Bool) : Bool :=
  (flags.foldl verboseStep (verbose, false)).1

/-- The beginning of a group: how many characters follow the parenthesis, and
the flags set for the body. -/
structure GroupOpening where
  extra : Nat
  flags : List Char
  deriving DecidableEq, Repr

/-- Reads what stands between a parenthesis and the body of its group: nothing,
flags up to a colon, or a name up to a closing angle. -/
def groupOpening (rest : List Char) : Except Malformation GroupOpening :=
  match rest with
  | '?' :: tail =>
      let named := tail.head? = some '<' || tail.take 2 = ['P', '<']
      match splitFirst? (if named then '>' else ':') tail with
      | none => .error .malformedGroup
      | some (before, _) => .ok ⟨before.length + 2, if named then [] else before⟩
  | _ => .ok ⟨0, []⟩

/-- Whether two alternatives can match the same text: one is empty, or one
begins with another. -/
def overlapping : List (List Char) → Bool
  | [] => false
  | branch :: rest =>
      rest.any (fun other =>
        branch.isEmpty || other.isEmpty || branch.isPrefixOf other || other.isPrefixOf branch) ||
      overlapping rest

namespace ScreenState

/-- Adds text that no quantifier can find fault with. -/
def push (s : ScreenState) (text : List Char) : ScreenState :=
  { s with
    frame := { s.frame with current := s.frame.current ++ text }
    lastGroup := none }

def setVerbose (s : ScreenState) (flags : List Char) : ScreenState :=
  { s with
    frame := { s.frame with verbose := verboseAfter flags s.frame.verbose }
    lastGroup := none }

def openGroup (s : ScreenState) (flags : List Char) : ScreenState :=
  { frame := { verbose := verboseAfter flags s.frame.verbose }
    outer := s.frame :: s.outer
    lastGroup := none }

def startBranch (s : ScreenState) : ScreenState :=
  { s with
    frame := { s.frame with branches := s.frame.branches ++ [s.frame.current], current := [] }
    lastGroup := none }

/-- Closes the innermost group and adds its text, with the prefix left out, to
the group around it. -/
def closeGroup (s : ScreenState) : Except Malformation ScreenState :=
  match s.outer with
  | [] => .error .unbalancedClose
  | parent :: outer =>
      let branches := s.frame.branches ++ [s.frame.current]
      let text := '(' :: joinWith ['|'] branches ++ [')']
      .ok {
        frame := { parent with
          current := parent.current ++ text
          unbounded := parent.unbounded || s.frame.unbounded }
        outer := outer
        lastGroup := some ⟨s.frame.unbounded, overlapping branches⟩ }

/-- The hazard of repeating what was read last, if there is one. -/
def hazard? (s : ScreenState) (q : Quantifier) : Option Hazard :=
  match s.lastGroup with
  | none => none
  | some body =>
      if !(q.repeats && q.isWide) then none
      else if body.unbounded then some .nestedRepetition
      else if body.overlapping then some .overlappingAlternatives
      else none

def repeatLast (s : ScreenState) (q : Quantifier) (text : List Char) : ScreenState :=
  { s with
    frame := { s.frame with
      current := s.frame.current ++ text
      unbounded := s.frame.unbounded || q.isUnbounded }
    lastGroup := none }

end ScreenState

/-- Reads one lexeme that starts with `c`: the new state, and how many of the
following characters belong to it. -/
def screenStep (s : ScreenState) (c : Char) (rest : List Char) :
    Except Objection (ScreenState × Nat) :=
  if s.frame.verbose && isBlank c then .ok (s, 0)
  else if s.frame.verbose && c == '#' then
    .ok (s, (rest.takeWhile (· ≠ '\n')).length + 1)
  else if c = '\\' then do
    let extra ← (escapeExtent rest).mapError .malformed
    return (s.push (c :: rest.take extra), extra)
  else if c = '[' then do
    let extra ← (classExtent rest).mapError .malformed
    return (s.push (c :: rest.take extra), extra)
  else if c = '(' then
    match flagGroup? rest with
    | some flags => .ok (s.setVerbose flags, flags.length + 2)
    | none => do
        let opening ← (groupOpening rest).mapError .malformed
        return (s.openGroup opening.flags, opening.extra)
  else if c = ')' then do
    let closed ← s.closeGroup.mapError .malformed
    return (closed, 0)
  else if c = '|' then .ok (s.startBranch, 0)
  else if c = '*' || c = '+' || c = '?' || c = '\x7b' then
    match Quantifier.read? c rest with
    | none => .ok (s.push [c], 0)
    | some q =>
        match s.hazard? q with
        | some hazard => .error (.hazard hazard)
        | none => .ok (s.repeatLast q (c :: rest.take q.extra), q.extra)
  else .ok (s.push [c], 0)

/-- Reads lexeme after lexeme to the end of the pattern. -/
def screenFrom (s : ScreenState) : List Char → Except Objection ScreenState
  | [] => if s.outer.isEmpty then .ok s else .error (.malformed .unclosedGroup)
  | c :: rest =>
      match screenStep s c rest with
      | .error objection => .error objection
      | .ok (s, extra) => screenFrom s (rest.drop extra)
termination_by text => text.length
decreasing_by simp only [List.length_cons, List.length_drop]; omega

/-- Why a pattern was not compiled. -/
inductive PatternError where
  | hazardous (pattern : String) (hazard : Hazard)
  | tooLong (length : Nat)
  | malformed (pattern : String) (fault : Malformation)
  /-- Refused by the matcher engine, in the engine's words. -/
  | refused (pattern : String) (reason : String)
  deriving DecidableEq, Repr

namespace PatternError

def message : PatternError → String
  | .hazardous pattern hazard => s!"unsafe pattern '{pattern}': {hazard.reason}"
  | .tooLong length => s!"pattern length {length} exceeds maximum {maxLength}"
  | .malformed pattern fault => s!"invalid pattern '{pattern}': {fault.reason}"
  | .refused pattern reason => s!"invalid pattern '{pattern}': {reason}"

/-- The stable code of a violation that reports the error. -/
def code : PatternError → String
  | .hazardous .. | .tooLong _ => "unsafe_regex"
  | .malformed .. | .refused .. => "invalid_regex"

end PatternError

/-- Screens a pattern.  Its length is counted in bytes of UTF-8. -/
def checkSafety (pattern : String) : Except PatternError Unit :=
  if pattern.utf8ByteSize > maxLength then .error (.tooLong pattern.utf8ByteSize)
  else match screenFrom {} pattern.toList with
    | .ok _ => .ok ()
    | .error (.hazard hazard) => .error (.hazardous pattern hazard)
    | .error (.malformed fault) => .error (.malformed pattern fault)

end WorkflowAudit.Pattern
