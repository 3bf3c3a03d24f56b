import WorkflowAudit.Glob.Reader
import WorkflowAudit.Glob.Set
import WorkflowAudit.Pattern.Compiler
import WorkflowAudit.Policy.Basic

/-!
# Preparing a policy

The patterns and globs of a policy are compiled once, before any definition is
looked at.  A bad one never ends a scan: it is left out, and reported as a
violation located at the policy.
-/

namespace WorkflowAudit

open Pattern

/-- The pattern that matches a text exactly where `pattern` matches all of it. -/
def wholeMatch (pattern : String) : String := s!"^(?:{pattern})$"

/-- The patterns that a specification needs: its own, and those of its allowed
matches. -/
def PatternSpec.patterns (spec : PatternSpec) : List String :=
  spec.pattern :: spec.allow.map fun allow => wholeMatch allow.pattern

def Check.patternSpecs : Check → List PatternSpec
  | .unsafePattern patterns => patterns
  | .inlineScript _ patterns => patterns
  | _ => []

/-- Compiled patterns by their texts, in the order of first use. -/
structure PatternLibrary where
  entries : List (String × Except PatternError CompiledPattern) := []
  /-- The patterns that the engine was asked to build, in order. -/
  built : List String := []

namespace PatternLibrary

def get? (library : PatternLibrary) (pattern : String) :
    Option (Except PatternError CompiledPattern) :=
  library.entries.lookup pattern

/-- The compiled form of a pattern that the engine accepted. -/
def compiled? (library : PatternLibrary) (pattern : String) : Option CompiledPattern :=
  match library.get? pattern with
  | some (.ok compiled) => some compiled
  | _ => none

/-- Compiles a pattern unless the library has it.  The engine is asked only for
patterns that pass the screen. -/
def insert (engine : Engine) (library : PatternLibrary) (pattern : String) : PatternLibrary :=
  match library.get? pattern with
  | some _ => library
  | none =>
      { entries := library.entries ++ [(pattern, compile engine pattern)]
        built := library.built ++ if (checkSafety pattern).isOk then [pattern] else [] }

def ofPatterns (engine : Engine) (patterns : List String) : PatternLibrary :=
  patterns.foldl (insert engine) {}

end PatternLibrary

/-- The name of the field in which a check keeps globs. -/
def Check.globField? : Check → Option String
  | .allowlist _ => some "allowed"
  | .highRiskTrigger .. => some "allowed"
  | .artifactPolicy .. => some "applies_to"
  | _ => none

/-- The globs of a check, with the name of their field. -/
def Check.globs? : Check → Option (String × List String)
  | .allowlist allowed => some ("allowed", allowed)
  | .highRiskTrigger _ allowed _ => some ("allowed", allowed)
  | .artifactPolicy _ _ appliesTo =>
      if appliesTo.isEmpty then none else some ("applies_to", appliesTo)
  | _ => none

/-- The globs among some entries; those that cannot be read are left out. -/
def readableGlobs (entries : List String) : List Glob :=
  entries.filterMap fun entry => (Glob.parse entry).toOption

/-- The globs of a check as a set, without those that cannot be read. -/
def Check.globSet? (check : Check) : Option (Except GlobSet.Fault GlobSet) :=
  check.globs?.map fun (_, entries) => GlobSet.build (readableGlobs entries)

/-- The sets of globs of a policy, each under the id of its rule and the name of its
field, the last one in front. -/
structure GlobTable where
  entries : List ((String × String) × GlobSet) := []

namespace GlobTable

/-- The set that was put last under the id of a rule and the name of a field. -/
def get? (table : GlobTable) (id field : String) : Option GlobSet :=
  table.entries.lookup (id, field)

def insert (table : GlobTable) (id field : String) (set : GlobSet) : GlobTable :=
  ⟨((id, field), set) :: table.entries⟩

/-- Adds the globs of a rule, unless its check has none or no set of them can be built. -/
def addRule (table : GlobTable) (rule : Rule) : GlobTable :=
  match rule.check.globs?, rule.check.globSet? with
  | some (field, _), some (.ok set) => table.insert rule.id field set
  | _, _ => table

def ofRules (rules : List Rule) : GlobTable := rules.foldl addRule {}

/-- The set that a rule reads: whatever stands under its id and its field. -/
def ofRule? (table : GlobTable) (rule : Rule) : Option GlobSet :=
  rule.check.globField?.bind (table.get? rule.id)

end GlobTable

/-- A policy with its patterns compiled and its globs put together. -/
structure PreparedPolicy where
  rules : List Rule
  patterns : PatternLibrary
  globs : GlobTable

namespace Rule

/-- What the rejected patterns of a rule are reported as. -/
def patternProblems (library : PatternLibrary) (location : Location) (rule : Rule) :
    List Violation :=
  rule.check.patternSpecs.flatMap fun spec =>
    spec.patterns.filterMap fun pattern =>
      match library.get? pattern with
      | some (.error e) =>
          some (rule.violation e.code s!"pattern '{spec.id}' rejected: {e.message}" location)
      | _ => none

/-- What a glob that cannot be read is reported as. -/
def globProblem? (field : String) (location : Location) (rule : Rule) (entry : String) :
    Option Violation :=
  match Glob.parse entry with
  | .ok _ => none
  | .error fault =>
      let reason := s!"error parsing glob '{entry}': {fault.message}"
      some (rule.violation "invalid_allowlist_entry"
        s!"{field} entry '{entry}' is not a valid glob: {reason}" location)

/-- What the globs of a rule are reported as: those that cannot be read, and last
the set of the others. -/
def globProblems (location : Location) (rule : Rule) : List Violation :=
  match rule.check.globs?, rule.check.globSet? with
  | some (field, entries), some built =>
      let setProblem := match built with
        | .ok _ => []
        | .error fault => [rule.violation "invalid_allowlist_entry"
            s!"{field} could not be built: {fault.message}" location]
      entries.filterMap (rule.globProblem? field location) ++ setProblem
  | _, _ => []

end Rule

namespace Policy

/-- Where problems of the policy itself are located. -/
def location (policy : Policy) : Location :=
  Location.file (if policy.source.isEmpty then "<policy>" else policy.source)

def patternLibrary (engine : Engine) (policy : Policy) : PatternLibrary :=
  PatternLibrary.ofPatterns engine
    (policy.rules.flatMap fun rule => rule.check.patternSpecs.flatMap PatternSpec.patterns)

def prepare (engine : Engine) (policy : Policy) : PreparedPolicy where
  rules := policy.rules
  patterns := policy.patternLibrary engine
  globs := GlobTable.ofRules policy.rules

/-- The violations that the policy itself gives rise to, in the order of rules. -/
def problems (policy : Policy) (library : PatternLibrary) : List Violation :=
  policy.rules.flatMap fun rule =>
    rule.patternProblems library policy.location ++ rule.globProblems policy.location

end Policy

end WorkflowAudit
