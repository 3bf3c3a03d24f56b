/-!
# Tokens of a YAML text

The end of the token list stands for the end of the text.  Block collections
have tokens for their start and end although the text marks them by
indentation only.
-/

namespace WorkflowAudit.Yaml

/-- How a scalar is written.  Only plain scalars stand for other things than
texts. -/
inductive Style where
  | plain
  | quoted
  | literal
  | folded
  deriving DecidableEq, Repr

/-- A tag is a string of octets, because its escapes need not spell characters. -/
abbrev Tag := List UInt8

def Tag.ofText (text : String) : Tag := text.toUTF8.toList

inductive Token where
  | versionDirective (major minor : Nat)
  | tagDirective (handle : String) (lead : Tag)
  | documentStart
  | documentEnd
  | blockSequenceStart
  | blockMappingStart
  | blockEnd
  | flowSequenceStart
  | flowSequenceEnd
  | flowMappingStart
  | flowMappingEnd
  | blockEntry
  | flowEntry
  | key
  | value
  | alias (name : String)
  | anchor (name : String)
  | tag (handle : String) (suffix : Tag)
  | scalar (style : Style) (text : String)
  deriving DecidableEq, Repr

end WorkflowAudit.Yaml
