import WorkflowAudit.Regex.Basic

/-!
# Why a text is no expression
-/

namespace WorkflowAudit.Regex

inductive Fault where
  | missingOperand
  | badRepetition
  | unclosedGroup
  | unopenedGroup
  | badGroupName
  | repeatedGroupName
  | badFlags
  | lookAround
  | badEscape
  | unclosedClass
  | badClassRange
  | unknownProperty
  /-- Without Unicode the expression could match a part of a character. -/
  | needsUnicode
  | tooDeep
  | tooLarge
  deriving DecidableEq, Repr

def Fault.message : Fault → String
  | .missingOperand => "repetition operator missing expression"
  | .badRepetition => "malformed repetition"
  | .unclosedGroup => "unclosed group"
  | .unopenedGroup => "unopened group"
  | .badGroupName => "malformed group name"
  | .repeatedGroupName => "duplicate group name"
  | .badFlags => "malformed flags"
  | .lookAround => "look-around is not supported"
  | .badEscape => "unrecognized escape sequence"
  | .unclosedClass => "unclosed character class"
  | .badClassRange => "invalid character class range"
  | .unknownProperty => "unknown character property"
  | .needsUnicode => "pattern can match parts of characters"
  | .tooDeep => "expression is nested too deeply"
  | .tooLarge => "compiled expression exceeds its size limit"

end WorkflowAudit.Regex
