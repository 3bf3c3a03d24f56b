import WorkflowAudit.Yaml.Problem
import WorkflowAudit.Yaml.Token

/-!
# The tree of a document as it is written

An outline keeps anchors and aliases where they stand.  Each node is read by
recursive descent over the tokens; the fuel counts nested readers and is never
used up, because every second reader consumes a token.
-/

namespace WorkflowAudit.Yaml

/-- What may stand in front of a node. -/
structure Properties where
  anchor : Option String := none
  tag : Option Tag := none
  deriving DecidableEq, Repr

/-- A written tree whose aliases name their targets by a `τ`. -/
inductive Outline (τ : Type) where
  | alias (target : τ)
  | scalar (properties : Properties) (style : Style) (text : String)
  | sequence (properties : Properties) (items : List (Outline τ))
  | mapping (properties : Properties) (entries : List (Outline τ × Outline τ))
  deriving Repr

namespace Outline

/-- A node that is left out. -/
def empty {τ : Type} : Outline τ := .scalar {} .plain ""

mutual

/-- The number of events of a tree: one for a leaf, two more for a collection. -/
def events {τ : Type} : Outline τ → Nat
  | .alias _ => 1
  | .scalar .. => 1
  | .sequence _ items => 2 + eventsOfItems items
  | .mapping _ entries => 2 + eventsOfEntries entries

def eventsOfItems {τ : Type} : List (Outline τ) → Nat
  | [] => 0
  | item :: rest => events item + eventsOfItems rest

def eventsOfEntries {τ : Type} : List (Outline τ × Outline τ) → Nat
  | [] => 0
  | (key, value) :: rest => events key + events value + eventsOfEntries rest

end

/-! Reading tokens -/

/-- The tag handles in force, with what they stand for. -/
abbrev Handles := List (String × Tag)

def resolveTag (handles : Handles) (handle : String) (suffix : Tag) : Except Problem Tag :=
  if handle.isEmpty then .ok suffix
  else match handles.lookup handle with
    | some lead => .ok (lead ++ suffix)
    | none => .error (.undefinedHandle handle)

/-- Reads an anchor and a tag, in either order. -/
def readProperties (handles : Handles) (tokens : List Token) :
    Except Problem (Properties × List Token) :=
  match tokens with
  | .anchor name :: .tag handle suffix :: rest =>
      (resolveTag handles handle suffix).map fun tag => (⟨some name, some tag⟩, rest)
  | .tag handle suffix :: .anchor name :: rest =>
      (resolveTag handles handle suffix).map fun tag => (⟨some name, some tag⟩, rest)
  | .anchor name :: rest => .ok (⟨some name, none⟩, rest)
  | .tag handle suffix :: rest =>
      (resolveTag handles handle suffix).map fun tag => (⟨none, some tag⟩, rest)
  | rest => .ok ({}, rest)

/-- Whether the next token is one of `stops`, so that a node is left out. -/
def nextIsAny (stops : List Token) (tokens : List Token) : Bool :=
  tokens.head?.any (stops.contains ·)

/-- Tokens before which the key or value of a block mapping is left out. -/
def blockStops : List Token := [.key, .value, .blockEnd]

mutual

/-- Reads a node.  Block collections are read only where `block`, and a
sequence that is not indented only as a key or value of a block mapping. -/
def readNode (handles : Handles) :
    Nat → (block unindented : Bool) → List Token →
      Except Problem (Outline String × List Token)
  | 0, _, _, _ => .error .depthLimit
  | fuel + 1, block, unindented, tokens =>
      match tokens with
      | .alias name :: rest => .ok (.alias name, rest)
      | _ => do
          let (properties, tokens) ← readProperties handles tokens
          match tokens, block with
          | .scalar style text :: rest, _ => return (.scalar properties style text, rest)
          | .flowSequenceStart :: rest, _ =>
              let (items, rest) ← readFlowItems handles fuel true rest
              return (.sequence properties items, rest)
          | .flowMappingStart :: rest, _ =>
              let (entries, rest) ← readFlowEntries handles fuel true rest
              return (.mapping properties entries, rest)
          | .blockSequenceStart :: rest, true =>
              let (items, rest) ← readBlockItems handles fuel rest
              return (.sequence properties items, rest)
          | .blockMappingStart :: rest, true =>
              let (entries, rest) ← readBlockEntries handles fuel rest
              return (.mapping properties entries, rest)
          | _, _ =>
              if unindented && nextIsAny [.blockEntry] tokens then
                let (items, rest) ← readUnindentedItems handles fuel tokens
                return (.sequence properties items, rest)
              else if properties == {} then throw (.unexpectedToken "node content")
              else return (.scalar properties .plain "", tokens)

/-- Reads a node unless one of `stops` comes next. -/
def readNodeUnless (handles : Handles) : Nat → (stops : List Token) →
    (block unindented : Bool) → List Token → Except Problem (Outline String × List Token)
  | 0, _, _, _, _ => .error .depthLimit
  | fuel + 1, stops, block, unindented, tokens =>
      if nextIsAny stops tokens then .ok (.empty, tokens)
      else readNode handles fuel block unindented tokens

def readBlockItems (handles : Handles) :
    Nat → List Token → Except Problem (List (Outline String) × List Token)
  | 0, _ => .error .depthLimit
  | fuel + 1, tokens =>
      match tokens with
      | .blockEntry :: rest => do
          let (item, rest) ← readNodeUnless handles fuel [.blockEntry, .blockEnd] true false rest
          let (items, rest) ← readBlockItems handles fuel rest
          return (item :: items, rest)
      | .blockEnd :: rest => .ok ([], rest)
      | _ => .error (.unexpectedToken "'-' indicator")

def readUnindentedItems (handles : Handles) :
    Nat → List Token → Except Problem (List (Outline String) × List Token)
  | 0, _ => .error .depthLimit
  | fuel + 1, tokens =>
      match tokens with
      | .blockEntry :: rest => do
          let (item, rest) ←
            readNodeUnless handles fuel (.blockEntry :: blockStops) true false rest
          let (items, rest) ← readUnindentedItems handles fuel rest
          return (item :: items, rest)
      | _ => .ok ([], tokens)

def readBlockEntries (handles : Handles) :
    Nat → List Token → Except Problem (List (Outline String × Outline String) × List Token)
  | 0, _ => .error .depthLimit
  | fuel + 1, tokens =>
      match tokens with
      | .blockEnd :: rest => .ok ([], rest)
      | .key :: rest => do
          let (key, rest) ← readNodeUnless handles fuel blockStops true true rest
          let (value, rest) ← readBlockValue handles fuel rest
          let (entries, rest) ← readBlockEntries handles fuel rest
          return ((key, value) :: entries, rest)
      | _ => .error (.unexpectedToken "key")

/-- Reads the value of a block mapping's entry, which may be left out. -/
def readBlockValue (handles : Handles) :
    Nat → List Token → Except Problem (Outline String × List Token)
  | 0, _ => .error .depthLimit
  | fuel + 1, tokens =>
      match tokens with
      | .value :: rest => readNodeUnless handles fuel blockStops true true rest
      | _ => .ok (.empty, tokens)

/-- Reads the items of a bracketed sequence.  A key indicator makes an item a
mapping of one entry. -/
def readFlowItems (handles : Handles) :
    Nat → (first : Bool) → List Token → Except Problem (List (Outline String) × List Token)
  | 0, _, _ => .error .depthLimit
  | fuel + 1, first, tokens =>
      match tokens with
      | .flowSequenceEnd :: rest => .ok ([], rest)
      | _ => do
          let tokens ← match first, tokens with
            | true, _ => pure tokens
            | false, .flowEntry :: rest => pure rest
            | false, _ => throw (.unexpectedToken "',' or ']'")
          match tokens with
          | .flowSequenceEnd :: rest => return ([], rest)
          | .key :: rest =>
              let (key, rest) ← readFlowItemKey handles fuel rest
              let (value, rest) ← readFlowValue handles fuel [.flowEntry, .flowSequenceEnd] rest
              let (items, rest) ← readFlowItems handles fuel false rest
              return (.mapping {} [(key, value)] :: items, rest)
          | _ =>
              let (item, rest) ← readNode handles fuel false false tokens
              let (items, rest) ← readFlowItems handles fuel false rest
              return (item :: items, rest)

/-- Reads the key of such an item.  Where the key is left out, the token that
follows the indicator is consumed with it. -/
def readFlowItemKey (handles : Handles) :
    Nat → List Token → Except Problem (Outline String × List Token)
  | 0, _ => .error .depthLimit
  | fuel + 1, tokens =>
      if nextIsAny [.value, .flowEntry, .flowSequenceEnd] tokens then .ok (.empty, tokens.tail)
      else readNode handles fuel false false tokens

/-- Reads the value of an entry inside brackets, which may be left out. -/
def readFlowValue (handles : Handles) :
    Nat → (stops : List Token) → List Token → Except Problem (Outline String × List Token)
  | 0, _, _ => .error .depthLimit
  | fuel + 1, stops, tokens =>
      match tokens with
      | .value :: rest => readNodeUnless handles fuel stops false false rest
      | _ => .ok (.empty, tokens)

def readFlowEntries (handles : Handles) :
    Nat → (first : Bool) → List Token →
      Except Problem (List (Outline String × Outline String) × List Token)
  | 0, _, _ => .error .depthLimit
  | fuel + 1, first, tokens =>
      match tokens with
      | .flowMappingEnd :: rest => .ok ([], rest)
      | _ => do
          let tokens ← match first, tokens with
            | true, _ => pure tokens
            | false, .flowEntry :: rest => pure rest
            | false, _ => throw (.unexpectedToken "',' or a closing brace")
          match tokens with
          | .flowMappingEnd :: rest => return ([], rest)
          | .key :: rest =>
              let stops := [.flowEntry, .flowMappingEnd]
              let (key, rest) ← readNodeUnless handles fuel (.value :: stops) false false rest
              let (value, rest) ← readFlowValue handles fuel stops rest
              let (entries, rest) ← readFlowEntries handles fuel false rest
              return ((key, value) :: entries, rest)
          | _ =>
              let (key, rest) ← readNode handles fuel false false tokens
              let (entries, rest) ← readFlowEntries handles fuel false rest
              return ((key, .empty) :: entries, rest)

end

/-! Documents -/

/-- Handles that need no directive. -/
def standardHandles : Handles :=
  [("!", Tag.ofText "!"), ("!!", Tag.ofText "tag:yaml.org,2002:")]

/-- Reads the directives of a document, which must name a known version and
define no handle twice. -/
def readDirectives (versioned : Bool) (handles : Handles) :
    List Token → Except Problem (Handles × List Token)
  | .versionDirective major minor :: rest =>
      if versioned then .error .repeatedDirective
      else if major = 1 && (minor = 1 || minor = 2) then readDirectives true handles rest
      else .error .unsupportedVersion
  | .tagDirective handle lead :: rest =>
      if (handles.lookup handle).isSome then .error .repeatedDirective
      else readDirectives versioned (handles ++ [(handle, lead)]) rest
  | rest => .ok (handles, rest)

/-- Tokens before which the content of a marked document is left out. -/
def endsContent : List Token → Bool
  | [] => true
  | .versionDirective .. :: _ => true
  | .tagDirective .. :: _ => true
  | .documentStart :: _ => true
  | .documentEnd :: _ => true
  | _ => false

/-- Reads the content of the first document. -/
def readDocument (tokens : List Token) : Except Problem (Outline String × List Token) := do
  let fuel := 2 * tokens.length + 2
  match tokens with
  | .versionDirective .. :: _ | .tagDirective .. :: _ | .documentStart :: _ =>
      let (handles, rest) ← readDirectives false [] tokens
      match rest with
      | .documentStart :: rest =>
          if endsContent rest then return (.empty, rest)
          readNode (handles ++ standardHandles) fuel true false rest
      | _ => throw (.unexpectedToken "document start")
  | _ => readNode standardHandles fuel true false tokens

/-- The tree of a text with at most one document; `none` where there is none. -/
def ofTokens (tokens : List Token) : Except Problem (Option (Outline String)) :=
  if tokens.isEmpty then .ok none
  else do
    let (root, rest) ← readDocument tokens
    if rest.all (· == .documentEnd) then return some root
    throw .severalDocuments

end Outline

end WorkflowAudit.Yaml
