import WorkflowAudit.Verification.Settings

/-!
# Arguments

Arguments are cut into options, flags and operands by the rules of a command:
which long options take a value and what values, which flags stand alone, and
how many operands there are.  An option may stand once, before or behind
operands, with its value in the next argument or behind an equals sign.
Everything behind two hyphens is an operand.  The first fault from the left
decides, unless help has been asked for in front of it.
-/

namespace WorkflowAudit.CommandLine

/-- Why arguments are refused. -/
inductive UsageFault where
  | missingCommand
  | unknownCommand (name : String)
  | unknownOption (name : String)
  | repeatedOption (name : String)
  | missingValue (option : String)
  | unwantedValue (option : String)
  | badValue (option value : String)
  | unwantedOperand (operand : String)
  | missingOperands
  deriving DecidableEq, Repr

def UsageFault.message : UsageFault → String
  | .missingCommand => "a command is required"
  | .unknownCommand name => s!"unrecognized command '{name}'"
  | .unknownOption name => s!"unexpected argument '{name}'"
  | .repeatedOption name => s!"'{name}' cannot be used multiple times"
  | .missingValue option => s!"'{option}' requires a value"
  | .unwantedValue option => s!"'{option}' takes no value"
  | .badValue option value => s!"invalid value '{value}' for '{option}'"
  | .unwantedOperand operand => s!"unexpected argument '{operand}'"
  | .missingOperands => "required operands are missing"

/-- What asks for help or for the version ends the reading of arguments. -/
inductive Early where
  | help
  | version
  deriving DecidableEq, Repr

/-- How the reading of arguments ends before all are read. -/
inductive Stop where
  | early (early : Early)
  | usage (fault : UsageFault)
  deriving DecidableEq, Repr

/-- What a command accepts. -/
structure CommandRules where
  /-- The options that take a value, with the test of their values. -/
  options : List (String × (String → Bool))
  flags : List String
  operands : Nat

/-- The arguments of a command, in their order. -/
structure Arguments where
  options : List (String × String) := []
  flags : List String := []
  operands : List String := []
  deriving DecidableEq, Repr

/-- Whether an argument begins like an option.  A single hyphen does not. -/
def looksLikeOption (argument : String) : Bool :=
  argument.startsWith "-" && argument != "-"

/-- The name and the value of a long option. -/
def splitOption (argument : String) : String × Option String :=
  let chars := argument.toList
  let name := chars.takeWhile (· != '=')
  match chars.drop name.length with
  | [] => (argument, none)
  | _ :: value => (String.ofList name, some (String.ofList value))

/-- Short flags in one argument: `v` can be repeated, `h` asks for help, and `V`
for the version where that is allowed. -/
def readShortFlags (allowVersion : Bool) (argument : String) : List Char → Except Stop Unit
  | [] => .ok ()
  | 'v' :: rest => readShortFlags allowVersion argument rest
  | 'h' :: _ => .error (.early .help)
  | 'V' :: _ =>
      .error (if allowVersion then .early .version else .usage (.unknownOption argument))
  | _ :: _ => .error (.usage (.unknownOption argument))

namespace Arguments

def addOperand (rules : CommandRules) (parsed : Arguments) (operand : String) :
    Except Stop Arguments :=
  if parsed.operands.length < rules.operands then
    .ok { parsed with operands := parsed.operands ++ [operand] }
  else .error (.usage (.unwantedOperand operand))

def addOperands (rules : CommandRules) (parsed : Arguments) :
    List String → Except Stop Arguments
  | [] => .ok parsed
  | operand :: rest =>
      match parsed.addOperand rules operand with
      | .error stop => .error stop
      | .ok parsed => parsed.addOperands rules rest

def addFlag (parsed : Arguments) (name : String) (value : Option String) :
    Except Stop Arguments :=
  if value.isSome then .error (.usage (.unwantedValue name))
  else if parsed.flags.contains name then .error (.usage (.repeatedOption name))
  else .ok { parsed with flags := name :: parsed.flags }

def addOption (parsed : Arguments) (name : String) (accepts : String → Bool) (value : String) :
    Except Stop Arguments :=
  if (parsed.options.lookup name).isSome then .error (.usage (.repeatedOption name))
  else if !accepts value then .error (.usage (.badValue name value))
  else .ok { parsed with options := parsed.options ++ [(name, value)] }

/-- Reads the arguments behind the name of a command. -/
def read (rules : CommandRules) (parsed : Arguments) : List String → Except Stop Arguments
  | [] => .ok parsed
  | argument :: rest =>
      if argument == "--" then parsed.addOperands rules rest
      else if argument.startsWith "--" then
        let (name, value?) := splitOption argument
        match rules.options.lookup name with
        | some accepts =>
            match value?, rest with
            | some value, rest =>
                match parsed.addOption name accepts value with
                | .error stop => .error stop
                | .ok parsed => parsed.read rules rest
            | none, [] => .error (.usage (.missingValue name))
            | none, value :: rest =>
                if looksLikeOption value then .error (.usage (.missingValue name))
                else match parsed.addOption name accepts value with
                  | .error stop => .error stop
                  | .ok parsed => parsed.read rules rest
        | none =>
            if rules.flags.contains name then
              match parsed.addFlag name value? with
              | .error stop => .error stop
              | .ok parsed => parsed.read rules rest
            else if argument == "--verbose" then parsed.read rules rest
            else if argument == "--help" then .error (.early .help)
            else .error (.usage (.unknownOption argument))
      else if looksLikeOption argument then
        match readShortFlags false argument (argument.toList.drop 1) with
        | .error stop => .error stop
        | .ok () => parsed.read rules rest
      else match parsed.addOperand rules argument with
        | .error stop => .error stop
        | .ok parsed => parsed.read rules rest

end Arguments

/-- Reads what stands before the name of a command: the name, and the arguments
behind it. -/
def readCommandName : List String → Except Stop (String × List String)
  | [] => .error (.usage .missingCommand)
  | argument :: rest =>
      if argument == "--verbose" then readCommandName rest
      else if argument == "--help" then .error (.early .help)
      else if argument == "--version" then .error (.early .version)
      else if argument.startsWith "--" then .error (.usage (.unknownOption argument))
      else if looksLikeOption argument then
        match readShortFlags true argument (argument.toList.drop 1) with
        | .error stop => .error stop
        | .ok () => readCommandName rest
      else .ok (argument, rest)

end WorkflowAudit.CommandLine
