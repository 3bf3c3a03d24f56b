import WorkflowAudit.Regex.Literals
import WorkflowAudit.Regex.Matching
import WorkflowAudit.Regex.Reader
import WorkflowAudit.Regex.Size

/-!
# From text to program

A text is compiled when it is an expression of bounded depth, and its automata are
small enough or not needed.  Only then is its program laid out.
-/

namespace WorkflowAudit.Regex

/-- The greatest size of an automaton, in bytes. -/
def maxSize : Nat := Nat.pow 2 20

def compile (text : String) : Except Fault Program := do
  let regex ← parse text
  let form := NormalForm.ofRegex regex
  if fits maxSize [form] || form.isLiteralSearch then return Program.ofRegex regex
  else throw .tooLarge

end WorkflowAudit.Regex
