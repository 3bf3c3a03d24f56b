import WorkflowAudit.CommandLine.Arguments

/-!
# Commands

There are three commands: an audit of a repository, the verification of one
reference, and the version.  Options that are not given are taken from the
environment where a variable stands for them, under the same rules for values.
-/

namespace WorkflowAudit.CommandLine

open Text

/-- Settings of the verifier that override the environment. -/
structure VerifyOptions where
  mode : Option ExecutionMode := none
  apiUrl : Option String := none
  timeoutSeconds : Option Nat := none
  disabled : Bool := false
  deriving DecidableEq, Repr

namespace VerifyOptions

/-- The environment first, then the options. -/
def settings (options : VerifyOptions) (env : Environment) : VerifierSettings :=
  let base := VerifierSettings.ofEnvironment env
  { base with
    apiUrl := options.apiUrl.getD base.apiUrl
    timeoutSeconds := options.timeoutSeconds.getD base.timeoutSeconds
    enabled := base.enabled && !options.disabled }

def executionMode (options : VerifyOptions) (env : Environment) : ExecutionMode :=
  options.mode.getD (ExecutionMode.ofEnvironment env)

end VerifyOptions

inductive OutputFormat where
  | text
  | json
  deriving DecidableEq, Repr

structure CheckOptions where
  root : String := "."
  policy : Option String := none
  exceptions : Option String := none
  format : OutputFormat := .text
  /-- Where the report is also written. -/
  report : Option String := none
  verify : VerifyOptions := {}
  deriving DecidableEq, Repr

inductive Command where
  | check (options : CheckOptions)
  | verify (reference sha : String) (options : VerifyOptions)
  | version
  deriving DecidableEq, Repr

/-- A mode by its name, in any case. -/
def modeNamed? (name : String) : Option ExecutionMode :=
  ExecutionMode.all.find? fun mode => equalIgnoringCase mode.name name

def formatNamed? (name : String) : Option OutputFormat :=
  [("text", OutputFormat.text), ("json", .json)].lookup name

/-- Any text but the empty one is a path. -/
def path? (value : String) : Option String := if value.isEmpty then none else some value

def verifyRules : CommandRules where
  options := [("--mode", fun value => (modeNamed? value).isSome), ("--api-url", fun _ => true),
    ("--timeout", fun value => (word64? value).isSome)]
  flags := ["--no-verify"]
  operands := 2

def checkRules : CommandRules where
  options :=
    ["--root", "--policy", "--exceptions", "--report"].map (·, fun value => (path? value).isSome) ++
      ("--format", fun value => (formatNamed? value).isSome) :: verifyRules.options
  flags := verifyRules.flags
  operands := 0

def versionRules : CommandRules where
  options := []
  flags := []
  operands := 0

/-- The value of an option, or of the variable that stands for it. -/
def optionValue {α : Type} (env : Environment) (arguments : Arguments) (name : String)
    (fallback : Option String) (read? : String → Option α) : Except Stop (Option α) :=
  let given := match arguments.options.lookup name with
    | some value => some value
    | none => fallback.bind env.get?
  match given with
  | none => .ok none
  | some value =>
      match read? value with
      | some result => .ok (some result)
      | none => .error (.usage (.badValue name value))

def verifyOptions (env : Environment) (arguments : Arguments) : Except Stop VerifyOptions := do
  return {
    mode := ← optionValue env arguments "--mode" (some "PIPEGUARD_MODE") modeNamed?
    apiUrl := ← optionValue env arguments "--api-url" (some "PIPEGUARD_API_URL") some
    timeoutSeconds :=
      ← optionValue env arguments "--timeout" (some "PIPEGUARD_VERIFY_TIMEOUT") word64?
    disabled := arguments.flags.contains "--no-verify" }

def checkOptions (env : Environment) (arguments : Arguments) : Except Stop CheckOptions := do
  return {
    root := (← optionValue env arguments "--root" none path?).getD "."
    policy := ← optionValue env arguments "--policy" none path?
    exceptions := ← optionValue env arguments "--exceptions" none path?
    format := (← optionValue env arguments "--format" none formatNamed?).getD .text
    report := ← optionValue env arguments "--report" none path?
    verify := ← verifyOptions env arguments }

/-- Reads a command from all arguments of the process. -/
def Command.parse (env : Environment) (arguments : List String) : Except Stop Command := do
  let (name, rest) ← readCommandName arguments
  match name with
  | "check" => return .check (← checkOptions env (← Arguments.read checkRules {} rest))
  | "verify" =>
      let parsed ← Arguments.read verifyRules {} rest
      let options ← verifyOptions env parsed
      match parsed.operands with
      | [reference, sha] => return .verify reference sha options
      | _ => throw (.usage .missingOperands)
  | "version" =>
      let _ ← Arguments.read versionRules {} rest
      return .version
  | "help" =>
      match rest with
      | [] => throw (.early .help)
      | [topic] =>
          if ["check", "verify", "version", "help"].contains topic then throw (.early .help)
          else throw (.usage (.unknownCommand topic))
      | _ :: extra :: _ => throw (.usage (.unknownCommand extra))
  | _ => throw (.usage (.unknownCommand name))

end WorkflowAudit.CommandLine
