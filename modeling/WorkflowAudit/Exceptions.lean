import WorkflowAudit.Json.Basic
import WorkflowAudit.Text.Blank
import WorkflowAudit.Violation.Basic
import WorkflowAudit.Yaml.Record

/-!
# Documented exceptions

An exception waives the violations of one category in one document, or in one
job, step or rule of it, and says why.
-/

namespace WorkflowAudit

open Yaml

structure Exemption where
  category : Category
  path : String
  job : Option String := none
  step : Option Nat := none
  rule : Option String := none
  rationale : String
  deriving DecidableEq, Repr

namespace Exemption

/-- Whether the exception covers a violation.  What it leaves open fits any. -/
def covers (e : Exemption) (v : Violation) : Bool :=
  e.category == v.category && e.path == v.location.path &&
    e.job.all (fun job => v.location.job == some job) &&
    e.step.all (fun step => v.location.step == some step) &&
    e.rule.all (· == v.ruleId)

def ofNode (node : Node) : Except Problem Exemption := do
  let fields ← node.fields ["category", "path", "job", "step", "rule", "rationale"]
  return {
    category := ← fields.require "category" (Node.named Category.ofName?)
    path := ← fields.require "path" Node.text
    job := ← fields.getOr "job" none (Node.optional Node.text)
    step := ← fields.getOr "step" none (Node.optional Node.word64)
    rule := ← fields.getOr "rule" none (Node.optional Node.text)
    rationale := ← fields.require "rationale" Node.text }

/-- Absent parts are left out. -/
def toJson (e : Exemption) : Json :=
  .obj ([("category", .str e.category.name), ("path", .str e.path)] ++
    (e.job.toList.map fun job => ("job", Json.str job)) ++
    (e.step.toList.map fun step => ("step", Json.ofNat step)) ++
    (e.rule.toList.map fun rule => ("rule", Json.str rule)) ++
    [("rationale", .str e.rationale)])

end Exemption

/-- What is wrong with the exceptions of a document, by position. -/
inductive ExceptionFault where
  | missingRationale (index : Nat)
  | missingPath (index : Nat)
  deriving DecidableEq, Repr

def ExceptionFault.message : ExceptionFault → String
  | .missingRationale index => s!"exception {index} has no rationale"
  | .missingPath index => s!"exception {index} has no path"

/-- Exceptions in the order in which they are tried. -/
structure ExceptionSet where
  exceptions : List Exemption := []
  deriving DecidableEq, Repr

namespace ExceptionSet

/-- The first exception that covers a violation. -/
def find? (set : ExceptionSet) (v : Violation) : Option Exemption :=
  set.exceptions.find? (·.covers v)

/-- The first fault of exceptions that are numbered from `index`. -/
def faultFrom? (index : Nat) : List Exemption → Option ExceptionFault
  | [] => none
  | e :: rest =>
      if Text.isBlankString e.rationale then some (.missingRationale index)
      else if Text.isBlankString e.path then some (.missingPath index)
      else faultFrom? (index + 1) rest

def fault? (set : ExceptionSet) : Option ExceptionFault := faultFrom? 0 set.exceptions

/-- Reads the exceptions of a document; one without content has none. -/
def ofText (source : String) : Except Problem ExceptionSet := do
  match ← Node.parse? source with
  | none => return {}
  | some node =>
      let fields ← node.fields ["exceptions"]
      return ⟨← fields.getOr "exceptions" [] fun items => do
        (← items.items).mapM Exemption.ofNode⟩

def toJson (set : ExceptionSet) : Json :=
  .obj [("exceptions", .arr (set.exceptions.map Exemption.toJson))]

end ExceptionSet

end WorkflowAudit
