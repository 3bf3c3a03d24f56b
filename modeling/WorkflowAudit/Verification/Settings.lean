import WorkflowAudit.Text.Ascii
import WorkflowAudit.Verification.Verdict

/-!
# Settings of the verifier

Settings come from the environment of a process, which is given here as a
finite list of variables.  Credentials are read from it and never written.
-/

namespace WorkflowAudit

open Text

/-- The variables of a process environment. -/
structure Environment where
  bindings : List (String × String)
  deriving Repr

def Environment.get? (env : Environment) (name : String) : Option String :=
  env.bindings.lookup name

/-- The first non-empty access token of the environment. -/
def Environment.token? (env : Environment) : Option String :=
  (["PIPEGUARD_GITHUB_TOKEN", "GITHUB_TOKEN", "GH_TOKEN"].filterMap env.get?).find?
    fun token => !token.isEmpty

/-- The mode that the environment asks for: the mode variable wins where it
holds a mode, and otherwise an automated run is strict. -/
def ExecutionMode.ofEnvironment (env : Environment) : ExecutionMode :=
  match (env.get? "PIPEGUARD_MODE").bind ExecutionMode.parse? with
  | some mode => mode
  | none =>
      let automated := ["CI", "GITHUB_ACTIONS"].any fun name =>
        match env.get? name with
        | some value => value == "1" || equalIgnoringCase value "true"
        | none => false
      if automated then .strict else .tolerant

structure VerifierSettings where
  apiUrl : String := "https://api.github.com"
  token : Option String := none
  enabled : Bool := true
  timeoutSeconds : Nat := 10
  deriving DecidableEq, Repr

namespace VerifierSettings

def ofEnvironment (env : Environment) : VerifierSettings where
  apiUrl := (env.get? "PIPEGUARD_API_URL").getD "https://api.github.com"
  token := env.token?
  enabled :=
    match env.get? "PIPEGUARD_VERIFY_REFS" with
    | some value => !(value == "0" || equalIgnoringCase value "false")
    | none => true
  timeoutSeconds := ((env.get? "PIPEGUARD_VERIFY_TIMEOUT").bind word64?).getD 10

/-- The service address without trailing slashes. -/
def baseUrl (settings : VerifierSettings) : String :=
  String.ofList (trimEndWith (· == '/') settings.apiUrl.toList)

end VerifierSettings

/-- How requests are authenticated. -/
inductive Credentials where
  | token (secret : String)
  | none
  deriving DecidableEq, Repr

namespace Credentials

def ofEnvironment (env : Environment) : Credentials :=
  match env.token? with
  | some secret => .token secret
  | Option.none => .none

/-- A token of the settings wins over the environment. -/
def resolve (settings : VerifierSettings) (env : Environment) : Credentials :=
  match settings.token with
  | some secret => .token secret
  | Option.none => ofEnvironment env

def secret? : Credentials → Option String
  | .token secret => some secret
  | .none => Option.none

def isAuthenticated : Credentials → Bool
  | .token _ => true
  | .none => false

/-- A description for logs that never shows the token. -/
def describe : Credentials → String
  | .token _ => "TokenProvider::Static(***)"
  | .none => "TokenProvider::None"

end Credentials

/-- The version of the tool, as reports and requests state it. -/
def toolVersion : String := "0.4.0"

/-- How the tool introduces itself to the lookup service. -/
def userAgent : String := "pipeguard/" ++ toolVersion

end WorkflowAudit
