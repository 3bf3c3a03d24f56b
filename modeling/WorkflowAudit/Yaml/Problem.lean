/-!
# What can be wrong with a YAML document

Every refusal of a document has one of these causes: the text is not well
formed, the tree has keys or aliases it may not have, or a value does not have
the shape that its reader asks for.
-/

namespace WorkflowAudit.Yaml

inductive Problem where
  | forbiddenCharacter
  | strayCharacter (c : Char)
  | badDirective
  | badAnchor
  | badTag
  | badEscape
  | badBlockHeader
  | unclosedQuote
  | documentMarkInQuote
  | tabIndent
  | colonInFlow
  | missingColon
  | misplacedEntry
  | misplacedKey
  | misplacedValue
  | unexpectedToken (expected : String)
  | undefinedHandle (handle : String)
  | repeatedDirective
  | unsupportedVersion
  | severalDocuments
  | unknownAlias (name : String)
  | aliasLimit
  | depthLimit
  | repeatedKey
  | invalidScalar (expected text : String)
  | wrongShape (expected : String)
  | unknownField (name : String)
  | missingField (name : String)
  | repeatedField (name : String)
  | unknownName (name : String)
  deriving DecidableEq, Repr

def Problem.message : Problem → String
  | .forbiddenCharacter => "control characters are not allowed"
  | .strayCharacter c => s!"found character '{c}' that cannot start any token"
  | .badDirective => "malformed directive"
  | .badAnchor => "malformed anchor or alias"
  | .badTag => "malformed tag"
  | .badEscape => "malformed escape sequence"
  | .badBlockHeader => "malformed header of a block scalar"
  | .unclosedQuote => "found end of text inside a quoted scalar"
  | .documentMarkInQuote => "found a document marker inside a quoted scalar"
  | .tabIndent => "found a tab where indentation is expected"
  | .colonInFlow => "found unexpected ':'"
  | .missingColon => "could not find expected ':'"
  | .misplacedEntry => "block sequence entries are not allowed in this context"
  | .misplacedKey => "mapping keys are not allowed in this context"
  | .misplacedValue => "mapping values are not allowed in this context"
  | .unexpectedToken expected => s!"did not find expected {expected}"
  | .undefinedHandle handle => s!"undefined tag handle {handle}"
  | .repeatedDirective => "found duplicate directive"
  | .unsupportedVersion => "found incompatible document version"
  | .severalDocuments => "more than one document"
  | .unknownAlias name => s!"unknown anchor {name}"
  | .aliasLimit => "repetition limit exceeded"
  | .depthLimit => "recursion limit exceeded"
  | .repeatedKey => "duplicate entry in a mapping"
  | .invalidScalar expected text => s!"invalid value '{text}', expected {expected}"
  | .wrongShape expected => s!"invalid type, expected {expected}"
  | .unknownField name => s!"unknown field '{name}'"
  | .missingField name => s!"missing field '{name}'"
  | .repeatedField name => s!"duplicate field '{name}'"
  | .unknownName name => s!"unknown variant '{name}'"

end WorkflowAudit.Yaml
