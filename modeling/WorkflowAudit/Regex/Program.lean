import WorkflowAudit.Regex.Basic

/-!
# Programs of matchers

An expression becomes a list of instructions, each of which names the places
where matching goes on.  Code is laid out from the end of the expression to its
start, so that every place is known when it is named; only a loop names itself
and is filled in after its body.  Where several places are named, the first one
is preferred.
-/

namespace WorkflowAudit.Regex

inductive Instruction where
  | accept
  /-- Consumes one character of a set. -/
  | consume (set : CharSet) (next : Nat)
  | require (a : Assertion) (next : Nat)
  | branch (targets : List Nat)
  deriving Repr, Inhabited

/-- The places that are reached without a further character. -/
def Instruction.targets : Instruction → List Nat
  | .accept => []
  | .consume _ next => [next]
  | .require _ next => [next]
  | .branch targets => targets

structure Program where
  code : Array Instruction
  start : Nat
  deriving Repr

namespace Program

/-- Adds an instruction and gives its place. -/
def emit (code : Array Instruction) (i : Instruction) : Nat × Array Instruction :=
  (code.size, code.push i)

/-- A choice between going into a body and going past it. -/
def fork (greedy : Bool) (into past : Nat) : Instruction :=
  .branch (if greedy then [into, past] else [past, into])

/-- Lays out the same code several times, one before the other. -/
def copies (layOut : Nat → Array Instruction → Nat × Array Instruction) :
    Nat → Nat → Array Instruction → Nat × Array Instruction
  | 0, next, code => (next, code)
  | count + 1, next, code =>
      let (entry, code) := layOut next code
      copies layOut count entry code

/-- One or more passes through a body: behind it stands the choice of another
pass.  The place of that choice is the second result. -/
def atLeastOnce (layOut : Nat → Array Instruction → Nat × Array Instruction) (greedy : Bool)
    (next : Nat) (code : Array Instruction) : Nat × Nat × Array Instruction :=
  let (loop, code) := emit code (.branch [])
  let (entry, code) := layOut loop code
  (entry, loop, code.setIfInBounds loop (fork greedy entry next))

/-- Any number of passes.  A body that can match nothing is entered as an
optional run of passes, so that its preferences are kept. -/
def anyNumber (layOut : Nat → Array Instruction → Nat × Array Instruction)
    (greedy mayBeEmpty : Bool) (next : Nat) (code : Array Instruction) :
    Nat × Array Instruction :=
  let (entry, loop, code) := atLeastOnce layOut greedy next code
  if mayBeEmpty then emit code (fork greedy entry next) else (loop, code)

/-- Up to `count` further passes; each can end the repetition. -/
def upTo (layOut : Nat → Array Instruction → Nat × Array Instruction) (greedy : Bool)
    (exit : Nat) : Nat → Nat → Array Instruction → Nat × Array Instruction
  | 0, next, code => (next, code)
  | count + 1, next, code =>
      let (entry, code) := layOut next code
      let (optional, code) := emit code (fork greedy entry exit)
      upTo layOut greedy exit count optional code

mutual

/-- Lays out the code of an expression in front of `next`, and gives the place
where it starts. -/
def layOut : Regex → Nat → Array Instruction → Nat × Array Instruction
  | .empty, next, code => (next, code)
  | .chars set _, next, code => emit code (.consume set next)
  | .assertion a, next, code => emit code (.require a next)
  | .group _ body, next, code => layOut body next code
  | .repeated least most greedy body, next, code =>
      match effectiveBounds least most body with
      | (0, none) => anyNumber (layOut body) greedy body.matchesEmpty next code
      | (least + 1, none) =>
          let (entry, _, code) := atLeastOnce (layOut body) greedy next code
          copies (layOut body) least entry code
      | (least, some most) =>
          let (entry, code) := upTo (layOut body) greedy next (most - least) next code
          copies (layOut body) least entry code
  | .sequence parts, next, code => layOutSequence parts next code
  | .choice branches, next, code =>
      let (entries, code) := layOutBranches branches next code
      emit code (.branch entries)

def layOutSequence : List Regex → Nat → Array Instruction → Nat × Array Instruction
  | [], next, code => (next, code)
  | part :: rest, next, code =>
      let (entry, code) := layOutSequence rest next code
      layOut part entry code

def layOutBranches : List Regex → Nat → Array Instruction → List Nat × Array Instruction
  | [], _, code => ([], code)
  | branch :: rest, next, code =>
      let (entries, code) := layOutBranches rest next code
      let (entry, code) := layOut branch next code
      (entry :: entries, code)

end

/-- The program of an expression; its first instruction accepts. -/
def ofRegex (regex : Regex) : Program :=
  let (start, code) := layOut regex 0 #[.accept]
  { code, start }

end Program

end WorkflowAudit.Regex
