import Std.Data.HashMap
import WorkflowAudit.Regex.Encoding
import WorkflowAudit.Regex.NormalForm

/-!
# The size of a byte automaton

Expressions are refused when the automaton that matches them byte by byte would
be too large, either in the direction of the text or against it.  The automaton
is laid out in thought: its states are only counted, but in the order in which
they would be made, because the nodes for sets of characters are shared where
they lead to the same states.
-/

namespace WorkflowAudit.Regex

inductive Direction where
  | forward
  | backward
  deriving DecidableEq, Repr

/-- What a state counts, and an edge out of a state by bytes or by choice. -/
def stateSize : Nat := 32

def byteEdgeSize : Nat := 8

def choiceEdgeSize : Nat := 4

/-- What has been made of an automaton: how many states, and what their edges
count.  The states are numbered in the order in which they are made. -/
structure Automaton where
  states : Nat := 0
  edges : Nat := 0
  deriving DecidableEq, Repr

namespace Automaton

def size (a : Automaton) : Nat := stateSize * a.states + a.edges

/-- Adds states with a single way on. -/
def addPlain (a : Automaton) (count : Nat) : Automaton := { a with states := a.states + count }

/-- Adds a state with an edge for each of some ranges of bytes. -/
def addBytes (a : Automaton) (count : Nat) : Automaton :=
  { states := a.states + 1, edges := a.edges + byteEdgeSize * count }

/-- Adds a choice between some ways. -/
def addChoice (a : Automaton) (count : Nat) : Automaton :=
  { states := a.states + 1, edges := a.edges + choiceEdgeSize * count }

/-- A choice of two ways. -/
def addFork (a : Automaton) : Automaton := a.addChoice 2

end Automaton

/-! Nodes that are remembered for sharing stand in a table of a fixed number of
slots.  A node that falls into an occupied slot takes it over. -/

/-- An automaton, and the node that each slot holds. -/
structure NodeTable (Node : Type) where
  automaton : Automaton
  slots : Std.HashMap Nat (Node × Nat) := {}

/-- The slot of a node that is given by numbers, by the FNV-1a hash of them. -/
def slotOf (count : Nat) (numbers : List Nat) : Nat :=
  let hash := numbers.foldl (fun (hash : UInt64) number =>
    (hash ^^^ number.toUInt64) * 1099511628211) 14695981039346656037
  hash.toNat % count

/-- The number of a node's state: that of a like node, if its slot holds one, and
otherwise that of a new state. -/
def NodeTable.place {Node : Type} [BEq Node] (table : NodeTable Node) (slot : Nat) (node : Node)
    (make : Automaton → Automaton) : Nat × NodeTable Node :=
  let fresh := (table.automaton.states,
    { automaton := make table.automaton
      slots := table.slots.insert slot (node, table.automaton.states) })
  match table.slots[slot]? with
  | some (known, number) => if known == node then (number, table) else fresh
  | none => fresh

/-- The edges of a node along the text: ranges of bytes, and the states that they
lead to. -/
abbrev ForwardNode := List ((Nat × Nat) × Nat)

def forwardSlots : Nat := 10000

def ForwardNode.numbers (node : ForwardNode) : List Nat :=
  node.flatMap fun ((low, high), target) => [low, high, target]

/-- Places the tree of some encodings, whose leaves are `target`: nodes are placed
after all that they lead to.  Encodings are not longer than `depth`. -/
def placeTree (target : Nat) : Nat → List Encoding → NodeTable ForwardNode →
    Nat × NodeTable ForwardNode
  | 0, _, table => (target, table)
  | depth + 1, all, table =>
      match byFirst all with
      | [] => (target, table)
      | groups =>
          let (node, table) := groups.foldl
            (fun (state : ForwardNode × NodeTable ForwardNode) (group : (Nat × Nat) × _) =>
              let (child, table) := placeTree target depth group.2 state.2
              (state.1 ++ [(group.1, child)], table)) ([], table)
          table.place (slotOf forwardSlots (ForwardNode.numbers node)) node
            (·.addBytes node.length)

/-- Against the text a node has one range and one state that it leads to. -/
abbrev BackwardNode := Nat × Nat × Nat

def backwardSlots : Nat := 1000

/-- Places the ranges of one encoding, each in front of the one before. -/
def placeRow (target : Nat) : Encoding → NodeTable BackwardNode → Nat × NodeTable BackwardNode
  | [], table => (target, table)
  | (low, high) :: rest, table =>
      let (place, table) := table.place (slotOf backwardSlots [target, low, high])
        (target, low, high) (·.addPlain 1)
      placeRow place rest table

/-- Adds a set of characters beyond ASCII: along the text the tree of its
encodings, and against it a choice between them. -/
def addEncodings (direction : Direction) (members : CharSet) (a : Automaton) : Automaton :=
  let all := encodingsOf members
  match direction with
  | .forward => (placeTree a.states 4 all { automaton := a.addPlain 1 }).2.automaton
  | .backward =>
      let target := a.states + 1
      let start : NodeTable BackwardNode := { automaton := (a.addChoice all.length).addPlain 1 }
      (all.foldl (fun table row => (placeRow target row table).2) start).automaton

def addSet (direction : Direction) (members : CharSet) (unicode : Bool) (a : Automaton) :
    Automaton :=
  if unicode && !members.isAscii then addEncodings direction members a
  else (a.addPlain 1).addBytes members.ranges.length

/-! Alternatives that are all texts become a tree of their bytes. -/

/-- Cuts texts at the empty ones among them: first the texts before an empty one,
in order, and last those after all of them.  A text that ends where nothing
branches off, and another has ended, makes no cut. -/
def cutAtEnds (cuts : List (List (List UInt8))) (current : List (List UInt8)) :
    List (List UInt8) → List (List (List UInt8))
  | [] => (current.reverse :: cuts).reverse
  | [] :: rest =>
      if !cuts.isEmpty && current.isEmpty && cuts.all List.isEmpty then cutAtEnds cuts current rest
      else cutAtEnds (current.reverse :: cuts) [] rest
  | text :: rest => cutAtEnds cuts (text :: current) rest

/-- What follows a first byte in the texts that begin with it. -/
def behindByte (b : UInt8) (texts : List (List UInt8)) : List (List UInt8) :=
  texts.filterMap fun text =>
    match text with
    | c :: rest => if c == b then some rest else none
    | [] => none

/-- Adds the node of some texts and all nodes below it; texts are not longer than
`depth`. -/
def addTextTree : Nat → List (List UInt8) → Automaton → Automaton
  | 0, _, a => a
  | depth + 1, texts, a =>
      if texts.all List.isEmpty then a
      else
        let cuts := cutAtEnds [] [] texts
        let firsts := fun (cut : List (List UInt8)) => (cut.filterMap List.head?).eraseDups
        let a := cuts.foldl (fun a cut =>
          let a := (firsts cut).foldl (fun a b => addTextTree depth (behindByte b cut) a) a
          match (firsts cut).length with
          | 0 => a
          | 1 => a.addPlain 1
          | count => a.addBytes count) a
        a.addChoice ((cuts.filter (!·.isEmpty)).length + cuts.length - 1)

def addTexts (direction : Direction) (texts : List (List UInt8)) (a : Automaton) : Automaton :=
  let texts := if direction == .forward then texts else texts.map List.reverse
  let depth := (texts.map List.length).foldl max 0
  addTextTree (depth + 1) texts (a.addPlain 1)

def textOf? : NormalForm → Option (List UInt8)
  | .literal bytes => some bytes
  | _ => none

/-- Adds the same several times, but no more once a limit is exceeded. -/
def addCopies (limit : Nat) (add : Automaton → Automaton) : Nat → Automaton → Automaton
  | 0, a => a
  | count + 1, a => if limit < a.size then a else addCopies limit add count (add a)

mutual

/-- Adds the states of a form.  Groups that capture mark their ends, but only
along the text. -/
def addForm (direction : Direction) (limit : Nat) : NormalForm → Automaton → Automaton
  | .empty, a => a.addPlain 1
  | .literal bytes, a => a.addPlain bytes.length
  | .oneOf members unicode, a => addSet direction members unicode a
  | .assertion _, a => a.addPlain 1
  | .capture body, a =>
      match direction with
      | .forward => (addForm direction limit body (a.addPlain 1)).addPlain 1
      | .backward => addForm direction limit body a
  | .repeated least most _ body, a =>
      let copies := addCopies limit (addForm direction limit body)
      match least, most with
      | 0, some 1 => (addForm direction limit body a.addFork).addPlain 1
      | 0, none =>
          if body.consumes then addForm direction limit body a.addFork
          else (addForm direction limit body a).addFork.addFork.addPlain 1
      | least, none => (copies least a).addFork
      | least, some most =>
          if least == most then copies least a
          else
            let required := if least == 0 then a.addPlain 1 else copies least a
            addCopies limit (fun a => addForm direction limit body a.addFork) (most - least)
              (required.addPlain 1)
  | .sequence parts, a =>
      match direction with
      | .forward => addForward limit parts a
      | .backward => addBackward limit parts a
  | .choice branches, a =>
      match branches.mapM textOf? with
      | some texts => addTexts direction texts a
      | none => addBranches direction limit branches a

def addForward (limit : Nat) : List NormalForm → Automaton → Automaton
  | [], a => a
  | part :: rest, a => addForward limit rest (addForm .forward limit part a)

/-- Against the text the last part comes first. -/
def addBackward (limit : Nat) : List NormalForm → Automaton → Automaton
  | [], a => a
  | part :: rest, a => addForm .backward limit part (addBackward limit rest a)

/-- Adds alternatives.  The choice between them and its end are made behind the
first two. -/
def addBranches (direction : Direction) (limit : Nat) : List NormalForm → Automaton → Automaton
  | [], a => a
  | [branch], a => addForm direction limit branch a
  | first :: second :: rest, a =>
      let a := addForm direction limit second (addForm direction limit first a)
      addAll direction limit rest ((a.addChoice (rest.length + 2)).addPlain 1)

def addAll (direction : Direction) (limit : Nat) : List NormalForm → Automaton → Automaton
  | [], a => a
  | form :: rest, a => addAll direction limit rest (addForm direction limit form a)

end

mutual

/-- Whether all matches start at the start of the text; for the other direction,
whether they end at its end. -/
def isAnchored (direction : Direction) : NormalForm → Bool
  | .assertion a =>
      match direction with
      | .forward => a == .textStart
      | .backward => a == .textEnd
  | .repeated least _ _ body => 0 < least && isAnchored direction body
  | .capture body => isAnchored direction body
  | .sequence parts =>
      match direction with
      | .forward => startsAnchored parts
      | .backward => endsAnchored parts
  | .choice branches => allAnchored direction branches
  | _ => false

/-- An anchor counts behind parts that match only the empty text. -/
def startsAnchored : List NormalForm → Bool
  | [] => false
  | part :: rest =>
      isAnchored .forward part || (part.matchesOnlyEmpty && startsAnchored rest)

def endsAnchored : List NormalForm → Bool
  | [] => false
  | part :: rest =>
      endsAnchored rest || (NormalForm.allMatchOnlyEmpty rest && isAnchored .backward part)

def allAnchored (direction : Direction) : List NormalForm → Bool
  | [] => true
  | form :: rest => isAnchored direction form && allAnchored direction rest

end

/-- Adds one of the forms that an automaton is made for: its ends are marked along
the text, and its match is. -/
def addWhole (direction : Direction) (limit : Nat) (form : NormalForm) (a : Automaton) :
    Automaton :=
  (addForm direction limit (.capture form) a).addPlain 1

/-- The automaton of several forms, or as much of it as exceeds a limit.  Unless
all forms are anchored it skips what stands before a match. -/
def automatonOf (direction : Direction) (limit : Nat) (forms : List NormalForm) : Automaton :=
  let start : Automaton :=
    if forms.all (isAnchored direction) then { states := 1 }
    else (({} : Automaton).addFork.addPlain 1).addBytes 1
  let add := addWhole direction limit
  match forms with
  | first :: second :: rest =>
      let a := ((add second (add first start)).addChoice forms.length).addPlain 1
      rest.foldl (fun a form => if limit < a.size then a else add form a) a
  | forms => forms.foldl (fun a form => add form a) start

/-- Whether the automata of some forms are small enough in both directions. -/
def fits (limit : Nat) (forms : List NormalForm) : Bool :=
  (automatonOf .forward limit forms).size ≤ limit &&
    (automatonOf .backward limit forms).size ≤ limit

end WorkflowAudit.Regex
