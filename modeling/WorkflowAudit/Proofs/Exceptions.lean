import WorkflowAudit.Exceptions
import WorkflowAudit.Proofs.Yaml.Records

/-!
# The readers of exceptions

An exceptions document is a list of records of one kind, described by what their reader
accepts.
-/

namespace WorkflowAudit

open Yaml

def Exemption.fieldNames : List String := ["category", "path", "job", "step", "rule", "rationale"]

theorem Exemption.ofNode_eq_ok_iff {node : Node} {e : Exemption} :
    Exemption.ofNode node = .ok e ↔ ∃ fields, node.fields Exemption.fieldNames = .ok fields ∧
      fields.require "category" (Node.named Category.ofName?) = .ok e.category ∧
      fields.require "path" Node.text = .ok e.path ∧
      fields.getOr "job" none (Node.optional Node.text) = .ok e.job ∧
      fields.getOr "step" none (Node.optional Node.word64) = .ok e.step ∧
      fields.getOr "rule" none (Node.optional Node.text) = .ok e.rule ∧
      fields.require "rationale" Node.text = .ok e.rationale := by
  obtain ⟨category, path, job, step, rule, rationale⟩ := e
  simp only [Exemption.ofNode, Exemption.fieldNames, bind_eq_ok_iff, pure_eq_ok, Except.ok.injEq,
    Exemption.mk.injEq]
  constructor
  · rintro ⟨fields, hfields, _, hcategory, _, hpath, _, hjob, _, hstep, _, hrule, _, hrationale,
      rfl, rfl, rfl, rfl, rfl, rfl⟩
    exact ⟨fields, hfields, hcategory, hpath, hjob, hstep, hrule, hrationale⟩
  · rintro ⟨fields, hfields, hcategory, hpath, hjob, hstep, hrule, hrationale⟩
    exact ⟨fields, hfields, _, hcategory, _, hpath, _, hjob, _, hstep, _, hrule, _, hrationale,
      rfl, rfl, rfl, rfl, rfl, rfl⟩

namespace ExceptionSet

def fieldNames : List String := ["exceptions"]

/-- The exceptions of a document with content. -/
def ofNode (document : Node) : Except Problem ExceptionSet := do
  let fields ← document.fields fieldNames
  return ⟨← fields.getOr "exceptions" [] fun items => do
    (← items.items).mapM Exemption.ofNode⟩

theorem ofText_eq_ofNode {source : String} {document : Node}
    (hparse : Node.parse? source = .ok (some document)) : ofText source = ofNode document := by
  rw [ofText, hparse]
  rfl

end ExceptionSet

end WorkflowAudit
