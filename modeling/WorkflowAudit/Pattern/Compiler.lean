import WorkflowAudit.Pattern.Screen
import WorkflowAudit.Regex.Compiled

/-!
# Compiling patterns

A pattern reaches a matcher engine only after it has passed the safety screen.
The engine is a parameter of compilation; the standard one runs the program of a
regular expression.
-/

namespace WorkflowAudit.Pattern

/-- What an engine makes of a pattern. -/
structure Matcher where
  isMatch : String → Bool
  /-- All matches that do not overlap, from left to right. -/
  findAll : String → List String

structure Engine where
  build : String → Except PatternError Matcher

namespace Engine

def matcherOf (program : Regex.Program) : Matcher where
  isMatch text := program.isMatch text.toList
  findAll text := (program.findAll text.toList).map String.ofList

/-- Regular expressions, matched in time linear in the text. -/
def standard : Engine where
  build pattern :=
    match Regex.compile pattern with
    | .ok program => .ok (matcherOf program)
    | .error fault => .error (.refused pattern fault.message)

end Engine

/-- A pattern that has passed the screen, and its matcher. -/
structure CompiledPattern where
  source : String
  matcher : Matcher

namespace CompiledPattern

def isMatch (pattern : CompiledPattern) (text : String) : Bool := pattern.matcher.isMatch text

def findAll (pattern : CompiledPattern) (text : String) : List String :=
  pattern.matcher.findAll text

end CompiledPattern

/-- Screens a pattern, and has an engine build it if the screen finds no fault. -/
def compile (engine : Engine) (pattern : String) : Except PatternError CompiledPattern :=
  match checkSafety pattern with
  | .error e => .error e
  | .ok () =>
      match engine.build pattern with
      | .error e => .error e
      | .ok matcher => .ok ⟨pattern, matcher⟩

end WorkflowAudit.Pattern
