import WorkflowAudit.Regex.Program
import WorkflowAudit.Unicode.Property

/-!
# Matching

A program runs on all its threads at once, in the order of preference.  Between
two characters every thread is followed to the instructions that consume or
accept; a place that a preferred thread has reached is not visited again.  When
a thread accepts, the threads behind it are dropped, and the search ends when
none is left.  So the match that is found starts as early as possible, and of
the matches that start there it is the preferred one.
-/

namespace WorkflowAudit

def isWordChar (unicode : Bool) (c : Char) : Bool :=
  c.isAlphanum || c == '_' || (unicode && Unicode.wordChars.contains c)

/-- Whether an assertion holds between two characters, of which each is absent
at its end of the text. -/
def Assertion.holds (a : Assertion) (before after : Option Char) : Bool :=
  match a with
  | .textStart => before.isNone
  | .textEnd => after.isNone
  | .lineStart false => before.isNone || before == some '\n'
  | .lineStart true =>
      before.isNone || before == some '\n' || (before == some '\r' && after != some '\n')
  | .lineEnd false => after.isNone || after == some '\n'
  | .lineEnd true =>
      after.isNone || after == some '\r' || (after == some '\n' && before != some '\r')
  | .word edge unicode =>
      edge.holds (before.any (isWordChar unicode)) (after.any (isWordChar unicode))

namespace Regex

/-- A thread stands at a place of the program and remembers where it started. -/
structure Thread where
  place : Nat
  start : Nat
  deriving DecidableEq, Repr

/-- The threads that wait at consuming and accepting instructions, most
preferred last, and the places that have been visited. -/
structure Front where
  visited : Array Bool
  waiting : List Thread := []

namespace Program

/-- Follows the places on `work` in order.  Each visit takes one unit of fuel,
and so does each place that is dropped because it was visited before. -/
def follow (program : Program) (before after : Option Char) (start : Nat) :
    Nat → List Nat → Front → Front
  | 0, _, front => front
  | _ + 1, [], front => front
  | fuel + 1, place :: work, front =>
      if front.visited.getD place true then follow program before after start fuel work front
      else
        let front := { front with visited := front.visited.setIfInBounds place true }
        match program.code[place]? with
        | some (.require a next) =>
            let work := if a.holds before after then next :: work else work
            follow program before after start fuel work front
        | some (.branch targets) =>
            follow program before after start fuel (targets ++ work) front
        | _ =>
            follow program before after start fuel work
              { front with waiting := ⟨place, start⟩ :: front.waiting }

/-- Enough fuel to follow all places: each is visited once, and each instruction
names its targets once. -/
def followFuel (program : Program) : Nat :=
  program.code.foldl (fun fuel i => fuel + i.targets.length + 1) 2

/-- Follows threads in order to where they wait, most preferred first. -/
def frontOf (program : Program) (fuel : Nat) (before after : Option Char)
    (threads : List Thread) : List Thread :=
  let front : Front := { visited := Array.replicate program.code.size false }
  (threads.foldl (fun front thread =>
    follow program before after thread.start fuel [thread.place] front) front).waiting.reverse

def isAccepting (program : Program) (thread : Thread) : Bool :=
  match program.code[thread.place]? with
  | some .accept => true
  | _ => false

/-- Where a waiting thread goes on behind a character. -/
def advance (program : Program) (c : Char) (thread : Thread) : Option Thread :=
  match program.code[thread.place]? with
  | some (.consume set next) => if set.contains c then some { thread with place := next } else none
  | _ => none

/-- Runs threads over the rest of a text that stands at `position`.  A thread
that starts here is added behind the others until a match has been found.  The
result is the start and the end of the match. -/
def run (program : Program) (fuel : Nat) (found : Option (Nat × Nat)) (before : Option Char)
    (position : Nat) (threads : List Thread) (text : List Char) : Option (Nat × Nat) :=
  let threads := if found.isSome then threads else threads ++ [⟨program.start, position⟩]
  let waiting := program.frontOf fuel before text.head? threads
  let going := waiting.takeWhile fun thread => !program.isAccepting thread
  let found := match waiting.find? program.isAccepting with
    | some thread => some (thread.start, position)
    | none => found
  match text with
  | [] => found
  | c :: rest =>
      let threads := going.filterMap (program.advance c)
      if threads.isEmpty && found.isSome then found
      else run program fuel found (some c) (position + 1) threads rest

/-- The first match in a text, by how many characters stand before it and how
many it has; `before` is the character in front of the text. -/
def find? (program : Program) (before : Option Char) (text : List Char) : Option (Nat × Nat) :=
  (program.run program.followFuel none before 0 [] text).map fun (start, finish) =>
    (start, finish - start)

def isMatch (program : Program) (text : List Char) : Bool := (program.find? none text).isSome

/-- All matches that do not overlap, from left to right.  Directly behind a
match an empty one does not count. -/
def findAllFrom (program : Program) (before : Option Char) (behindMatch : Bool)
    (text : List Char) : List (List Char) :=
  match text with
  | [] => if !behindMatch && (program.find? before []).isSome then [[]] else []
  | c :: rest =>
      match program.find? before (c :: rest) with
      | none => []
      | some (0, 0) =>
          if _hbehind : behindMatch then findAllFrom program (some c) false rest
          else [] :: findAllFrom program before true (c :: rest)
      | some (skipped, 0) =>
          let after := rest.drop (skipped - 1)
          [] :: findAllFrom program ((c :: rest)[skipped - 1]?) true after
      | some (skipped, length + 1) =>
          let after := rest.drop (skipped + length)
          ((c :: rest).drop skipped).take (length + 1) ::
            findAllFrom program ((c :: rest)[skipped + length]?) true after
termination_by 2 * text.length + (if behindMatch then 0 else 1)
decreasing_by
  all_goals
    simp only [List.length_cons, List.length_drop]
    repeat' split
    all_goals first
      | omega
      | contradiction

def findAll (program : Program) (text : List Char) : List (List Char) :=
  program.findAllFrom none false text

end Program

end Regex

end WorkflowAudit
