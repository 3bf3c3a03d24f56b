import WorkflowAudit.Policy.Validation
import WorkflowAudit.Yaml.Record

/-!
# Reading policies

A policy document is a record with a list of rules.  Fields that it does not
know are refused, so that a misspelt one is never ignored.  The fields of a
check depend on its category.
-/

namespace WorkflowAudit

open Yaml

/-- The actions that count as producing artifacts unless a rule lists others. -/
def standardArtifactActions : List String := ["actions/upload-artifact"]

namespace AllowedMatch

def ofValue (value : Value) : Except Problem AllowedMatch := do
  let fields ← value.fields ["pattern", "rationale"]
  return {
    pattern := ← fields.require "pattern" Value.text
    rationale := ← fields.require "rationale" Value.text }

end AllowedMatch

namespace PatternSpec

def ofValue (value : Value) : Except Problem PatternSpec := do
  let fields ← value.fields ["id", "pattern", "message", "allow"]
  return {
    id := ← fields.require "id" Value.text
    pattern := ← fields.require "pattern" Value.text
    message := ← fields.getOr "message" none (Value.optional Value.text)
    allow := ← fields.getOr "allow" [] (Value.listOf AllowedMatch.ofValue) }

end PatternSpec

namespace Check

/-- The fields of a check, without the category. -/
def fieldNames : Category → List String
  | .permissions => ["top_level", "job_level", "hardening_step"]
  | .shaPinning => ["verify"]
  | .allowlist => ["allowed"]
  | .unsafePattern => ["patterns"]
  | .inlineScript => ["max_lines", "patterns"]
  | .highRiskTrigger => ["triggers", "allowed", "safeguards"]
  | .artifactPolicy => ["required_paths", "artifact_actions", "applies_to"]
  | .dockerPinning => []

def ofFields (category : Category) (fields : Fields Value) : Except Problem Check := do
  let texts := Value.listOf Value.text
  let patterns := Value.listOf PatternSpec.ofValue
  match category with
  | .permissions =>
      return .permissions (← fields.getOr "top_level" true Value.flag)
        (← fields.getOr "job_level" true Value.flag)
        (← fields.getOr "hardening_step" none (Value.optional Value.text))
  | .shaPinning => return .shaPinning (← fields.getOr "verify" true Value.flag)
  | .allowlist => return .allowlist (← fields.require "allowed" texts)
  | .unsafePattern => return .unsafePattern (← fields.require "patterns" patterns)
  | .inlineScript =>
      return .inlineScript (← fields.getOr "max_lines" none (Value.optional Value.word64))
        (← fields.getOr "patterns" [] patterns)
  | .highRiskTrigger =>
      return .highRiskTrigger (← fields.require "triggers" texts)
        (← fields.getOr "allowed" [] texts) (← fields.getOr "safeguards" [] texts)
  | .artifactPolicy =>
      return .artifactPolicy (← fields.require "required_paths" texts)
        (← fields.getOr "artifact_actions" standardArtifactActions texts)
        (← fields.getOr "applies_to" [] texts)
  | .dockerPinning => return .dockerPinning

/-- A category is named by what is written, whatever tag stands in front. -/
def readCategory (node : Node) : Except Problem Category := do
  let name ← node.text
  match Category.ofName? name with
  | some category => return category
  | none => throw (.unknownName name)

/-- The category of a check that is written as a mapping, and its other entries. -/
def splitCategory (category : Option Category) (others : List (Value × Value)) :
    List (Node × Node) → Except Problem (Category × List (Value × Value))
  | [] =>
      match category with
      | some category => .ok (category, others)
      | none => .error (.missingField "category")
  | (key, value) :: rest => do
      match ← Value.ofPlainNode key with
      | .string "category" =>
          if category.isSome then throw (.repeatedField "category")
          splitCategory (some (← readCategory value)) others rest
      | key => splitCategory category (others ++ [(key, ← Value.ofPlainNode value)]) rest

/-- Reads a check: a mapping with a category, or a sequence that starts with
one.  A check without fields of its own ignores the other entries. -/
def ofNode (node : Node) : Except Problem Check := do
  match node with
  | .mapping tag entries =>
      if (localTag? tag).isSome then throw (.wrongShape "a check")
      let (category, others) ← splitCategory none [] entries
      if category = .dockerPinning then return .dockerPinning
      ofFields category (← Value.entryFields (fieldNames category) others)
  | .sequence tag (category :: others) =>
      if (localTag? tag).isSome then throw (.wrongShape "a check")
      let category ← readCategory category
      ofFields category (← Value.positional (fieldNames category) (← plainItems others))
  | _ => throw (.wrongShape "a check")

end Check

def Rule.ofNode (node : Node) : Except Problem Rule := do
  let fields ← node.fields ["id", "mode", "description", "check"]
  return {
    id := ← fields.require "id" Node.text
    mode := ← fields.getOr "mode" .enforced (Node.named Enforcement.ofName?)
    description := ← fields.getOr "description" none (Node.optional Node.text)
    check := ← fields.require "check" Check.ofNode }

/-- Reads the rules of a document; one without content has none. -/
def Policy.rulesOf (source : String) : Except Problem (List Rule) := do
  match ← Node.parse? source with
  | none => return []
  | some node =>
      let fields ← node.fields ["rules"]
      fields.getOr "rules" [] fun rules => do (← rules.items).mapM Rule.ofNode

end WorkflowAudit
