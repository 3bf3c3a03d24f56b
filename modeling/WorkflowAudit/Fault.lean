import WorkflowAudit.Definition.Reading
import WorkflowAudit.Exceptions
import WorkflowAudit.Policy.Reading

/-!
# Faults that end a run

A run ends early where a document cannot be read or a configuration is
invalid.  Findings about the scanned documents are never reported this way.
-/

namespace WorkflowAudit

inductive ConfigurationFault where
  | unreadable (problem : Yaml.Problem)
  | policy (fault : PolicyFault)
  | exceptions (fault : ExceptionFault)
  deriving DecidableEq, Repr

def ConfigurationFault.message : ConfigurationFault → String
  | .unreadable problem => problem.message
  | .policy fault => fault.message
  | .exceptions fault => fault.message

inductive Fault where
  /-- A file or directory that cannot be read or written, in the system's words. -/
  | file (path detail : String)
  | definition (path : String) (fault : DefinitionFault)
  | configuration (origin : String) (fault : ConfigurationFault)
  deriving DecidableEq, Repr

def Fault.message : Fault → String
  | .file path detail => s!"failed to read {path}: {detail}"
  | .definition path fault => s!"failed to parse {path}: {fault.message}"
  | .configuration origin fault => s!"invalid configuration {origin}: {fault.message}"

/-- Reads and validates a policy document. -/
def Policy.parse (source origin : String) : Except Fault Policy :=
  match Policy.rulesOf source with
  | .error problem => .error (.configuration origin (.unreadable problem))
  | .ok rules =>
      let policy : Policy := ⟨rules, origin⟩
      match policy.fault? with
      | some fault => .error (.configuration origin (.policy fault))
      | none => .ok policy

/-- Reads and validates an exceptions document. -/
def ExceptionSet.parse (source origin : String) : Except Fault ExceptionSet :=
  match ExceptionSet.ofText source with
  | .error problem => .error (.configuration origin (.unreadable problem))
  | .ok set =>
      match set.fault? with
      | some fault => .error (.configuration origin (.exceptions fault))
      | none => .ok set

/-- Reads a definition of the given kind. -/
def Definition.load (kind : DefinitionKind) (path source : String) : Except Fault Definition :=
  (Definition.parse kind path source).mapError (.definition path)

end WorkflowAudit
