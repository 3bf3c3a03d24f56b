import WorkflowAudit.Yaml.Lexer
import WorkflowAudit.Yaml.Outline

/-!
# Documents without aliases

Every anchor takes the slot that equals the number of different anchor names
before it, and an alias stands for the node that holds the slot of its name in
the end.  Aliases are replaced by their nodes as long as collections nest at
most 128 deep and the replacements stay below a hundred for each written event.
-/

namespace WorkflowAudit.Yaml

/-- A tree of values.  Tags are kept as they were written out. -/
inductive Node where
  | scalar (tag : Option Tag) (style : Style) (text : String)
  | sequence (tag : Option Tag) (items : List Node)
  | mapping (tag : Option Tag) (entries : List (Node × Node))
  deriving Repr, Inhabited

mutual

/-- Trees are compared part by part. -/
def Node.decEq (left right : Node) : Decidable (left = right) :=
  match left, right with
  | .scalar tag style text, .scalar tag' style' text' =>
      decidable_of_iff (tag = tag' ∧ style = style' ∧ text = text') (by simp)
  | .sequence tag items, .sequence tag' items' =>
      have := Node.decEqItems items items'
      decidable_of_iff (tag = tag' ∧ items = items') (by simp)
  | .mapping tag entries, .mapping tag' entries' =>
      have := Node.decEqEntries entries entries'
      decidable_of_iff (tag = tag' ∧ entries = entries') (by simp)
  | .scalar .., .sequence .. | .scalar .., .mapping .. | .sequence .., .scalar ..
  | .sequence .., .mapping .. | .mapping .., .scalar .. | .mapping .., .sequence .. =>
      isFalse nofun

def Node.decEqItems (left right : List Node) : Decidable (left = right) :=
  match left, right with
  | [], [] => isTrue rfl
  | item :: rest, item' :: rest' =>
      have := Node.decEq item item'
      have := Node.decEqItems rest rest'
      decidable_of_iff (item = item' ∧ rest = rest') (by simp)
  | [], _ :: _ | _ :: _, [] => isFalse nofun

def Node.decEqEntries (left right : List (Node × Node)) : Decidable (left = right) :=
  match left, right with
  | [], [] => isTrue rfl
  | (key, value) :: rest, (key', value') :: rest' =>
      have := Node.decEq key key'
      have := Node.decEq value value'
      have := Node.decEqEntries rest rest'
      decidable_of_iff ((key = key' ∧ value = value') ∧ rest = rest') (by simp)
  | [], _ :: _ | _ :: _, [] => isFalse nofun

end

instance : DecidableEq Node := Node.decEq

/-! Anchors and their slots -/

/-- The anchors met so far. -/
structure Anchors where
  /-- The slot that each name has now. -/
  slots : List (String × Nat) := []
  /-- The anchored node that holds each slot, by the order of anchors. -/
  holders : List (Nat × Nat) := []
  /-- The number of anchors. -/
  count : Nat := 0
  deriving Repr

namespace Anchors

/-- Gives a new anchor its slot and takes the slot over. -/
def define (anchors : Anchors) (name : String) : Anchors :=
  let slot := anchors.slots.length
  { slots := (name, slot) :: anchors.slots.filter (·.1 ≠ name)
    holders := (slot, anchors.count) :: anchors.holders
    count := anchors.count + 1 }

def defineAll (anchors : Anchors) (properties : Properties) : Anchors :=
  match properties.anchor with
  | some name => anchors.define name
  | none => anchors

end Anchors

namespace Outline

mutual

/-- Replaces the names of aliases by slots, in the order of the text. -/
def bindSlots (anchors : Anchors) : Outline String → Except Problem (Outline Nat × Anchors)
  | .alias name =>
      match anchors.slots.lookup name with
      | some slot => .ok (.alias slot, anchors)
      | none => .error (.unknownAlias name)
  | .scalar properties style text =>
      .ok (.scalar properties style text, anchors.defineAll properties)
  | .sequence properties items => do
      let (items, anchors) ← bindItems (anchors.defineAll properties) items
      return (.sequence properties items, anchors)
  | .mapping properties entries => do
      let (entries, anchors) ← bindEntries (anchors.defineAll properties) entries
      return (.mapping properties entries, anchors)

def bindItems (anchors : Anchors) :
    List (Outline String) → Except Problem (List (Outline Nat) × Anchors)
  | [] => .ok ([], anchors)
  | item :: rest => do
      let (item, anchors) ← bindSlots anchors item
      let (items, anchors) ← bindItems anchors rest
      return (item :: items, anchors)

def bindEntries (anchors : Anchors) : List (Outline String × Outline String) →
    Except Problem (List (Outline Nat × Outline Nat) × Anchors)
  | [] => .ok ([], anchors)
  | (key, value) :: rest => do
      let (key, anchors) ← bindSlots anchors key
      let (value, anchors) ← bindSlots anchors value
      let (entries, anchors) ← bindEntries anchors rest
      return ((key, value) :: entries, anchors)

end

/-- A node in front of the anchored nodes below it, where it is anchored. -/
def withAnchored (properties : Properties) (node : Outline Nat)
    (below : List (Outline Nat)) : List (Outline Nat) :=
  if properties.anchor.isSome then node :: below else below

mutual

/-- The anchored nodes of a tree in the order of their anchors. -/
def anchored : Outline Nat → List (Outline Nat)
  | .alias _ => []
  | .scalar properties style text => withAnchored properties (.scalar properties style text) []
  | .sequence properties items =>
      withAnchored properties (.sequence properties items) (anchoredItems items)
  | .mapping properties entries =>
      withAnchored properties (.mapping properties entries) (anchoredEntries entries)

def anchoredItems : List (Outline Nat) → List (Outline Nat)
  | [] => []
  | item :: rest => anchored item ++ anchoredItems rest

def anchoredEntries : List (Outline Nat × Outline Nat) → List (Outline Nat)
  | [] => []
  | (key, value) :: rest => anchored key ++ anchored value ++ anchoredEntries rest

end

end Outline

/-! Replacing aliases -/

/-- The greatest depth of nested collections. -/
def maxDepth : Nat := 128

/-- What replacing aliases looks up: the anchored nodes, the slots they hold,
and how many replacements there may be. -/
structure Targets where
  nodes : Array (Outline Nat)
  holders : List (Nat × Nat)
  limit : Nat

namespace Targets

/-- Counts the replacements made so far. -/
abbrev Replacing (α : Type) := StateT Nat (Except Problem) α

/-- The node that an alias stands for, or the node itself. -/
def follow (targets : Targets) : Outline Nat → Replacing (Outline Nat)
  | .alias slot => do
      let count ← get
      if targets.limit ≤ count then throw .aliasLimit
      set (count + 1)
      match (targets.holders.lookup slot).bind (targets.nodes[·]?) with
      | some node => return node
      | none => throw (.unknownAlias (toString slot))
  | node => return node

/-- Replaces the aliases of a tree that nests at most `depth` collections. -/
def replace (targets : Targets) : Nat → Outline Nat → Replacing Node
  | depth, outline => do
      let node ← targets.follow outline
      match depth, node with
      | _, .scalar properties style text => return .scalar properties.tag style text
      | _, .alias _ => throw .aliasLimit
      | 0, _ => throw .depthLimit
      | depth + 1, .sequence properties items =>
          return .sequence properties.tag (← items.mapM (replace targets depth))
      | depth + 1, .mapping properties entries =>
          return .mapping properties.tag (← entries.mapM fun (key, value) => do
            return (← replace targets depth key, ← replace targets depth value))

end Targets

namespace Node

def ofOutline (outline : Outline String) : Except Problem Node := do
  let (bound, anchors) ← outline.bindSlots {}
  let targets : Targets := {
    nodes := bound.anchored.toArray
    holders := anchors.holders
    limit := 100 * outline.events }
  return (← (targets.replace maxDepth bound).run 0).1

/-- Reads the one document of a text; `none` for a text without content. -/
def parse? (text : String) : Except Problem (Option Node) := do
  let tokens ← tokenize text
  match ← Outline.ofTokens tokens with
  | none => return none
  | some outline => return some (← ofOutline outline)

end Node

end WorkflowAudit.Yaml
