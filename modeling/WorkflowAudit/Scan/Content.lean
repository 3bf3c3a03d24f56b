import WorkflowAudit.Definition.Basic
import WorkflowAudit.Scan.Preparation
import WorkflowAudit.Text.Blank
import WorkflowAudit.Text.Pieces

/-!
# Forbidden content of steps

A forbidden pattern is reported once for each text in which it has a match that
no allowed match covers.  A pattern that was rejected matches nothing and covers
nothing.
-/

namespace WorkflowAudit

open Pattern Text

/-- The compiled allowed matches of a specification. -/
def PatternLibrary.allowed (library : PatternLibrary) (spec : PatternSpec) :
    List CompiledPattern :=
  spec.allow.filterMap fun allow => library.compiled? (wholeMatch allow.pattern)

/-- The first match of a specification in a text that no allowed match covers. -/
def PatternLibrary.firstUncovered? (library : PatternLibrary) (spec : PatternSpec)
    (text : String) : Option String :=
  match library.compiled? spec.pattern with
  | none => none
  | some pattern =>
      let allowed := library.allowed spec
      (pattern.findAll text).find? fun hit => !allowed.any fun allow => allow.isMatch hit

/-- How a match is reported. -/
def PatternSpec.describe (spec : PatternSpec) (field hit : String) : String :=
  let message := spec.message.getD "forbidden pattern"
  s!"{message} ({spec.id}) in '{field}': {trimString hit}"

/-- The findings of forbidden patterns in one field of a step. -/
def fieldFindings (rule : Rule) (library : PatternLibrary) (code : String)
    (patterns : List PatternSpec) (location : Location) (field value : String) :
    List Violation :=
  patterns.filterMap fun spec =>
    (library.firstUncovered? spec value).map fun hit =>
      rule.violation code (spec.describe field hit) location

/-- Forbidden patterns in any field of any step. -/
def patternFindings (rule : Rule) (library : PatternLibrary) (patterns : List PatternSpec)
    (d : Definition) : List Violation :=
  d.steps.flatMap fun (job, step) =>
    let location := Location.atStep d.path job.id step.index
    step.fields.flatMap fun (field, value) =>
      fieldFindings rule library "unsafe_pattern_match" patterns location field value

/-- The number of lines of a script that are not blank. -/
def scriptLength (script : String) : Nat :=
  ((lines script.toList).filter fun line => !line.all isBlank).length

def lengthFinding (rule : Rule) (maxLines : Option Nat) (location : Location)
    (script : String) : Option Violation :=
  match maxLines with
  | none => none
  | some most =>
      if scriptLength script ≤ most then none
      else some (rule.violation "inline_script_too_long"
        s!"inline script has {scriptLength script} lines (max {most})" location)

/-- Inline scripts that are too long, and forbidden patterns in them. -/
def scriptFindings (rule : Rule) (library : PatternLibrary) (maxLines : Option Nat)
    (patterns : List PatternSpec) (d : Definition) : List Violation :=
  d.steps.flatMap fun (job, step) =>
    match step.run with
    | none => []
    | some script =>
        let location := Location.atStep d.path job.id step.index
        (lengthFinding rule maxLines location script).toList ++
          fieldFindings rule library "inline_script_pattern_match" patterns location "run" script

end WorkflowAudit
