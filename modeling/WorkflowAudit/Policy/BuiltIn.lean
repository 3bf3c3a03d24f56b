import WorkflowAudit.Policy.Basic

/-!
# The built-in policy

It applies where a repository brings no policy of its own.
-/

namespace WorkflowAudit.Policy

/-- Text of an event that anyone can write must not reach a script. -/
def untrustedText : List PatternSpec :=
  [{ id := "event-text-field"
     pattern := "\\$\\\x7b\\\x7b\\s*github\\.event\\." ++
       "(issue|pull_request|comment|review|review_comment|discussion)\\." ++
       "(title|body)\\s*\\\x7d\\\x7d"
     message := some "untrusted event text interpolated into a step" },
   { id := "head-ref"
     pattern := "\\$\\\x7b\\\x7b\\s*github\\.head_ref\\s*\\\x7d\\\x7d"
     message := some "branch name interpolated into a step" },
   { id := "commit-message"
     pattern := "\\$\\\x7b\\\x7b\\s*github\\.event\\.head_commit\\.message\\s*\\\x7d\\\x7d"
     message := some "commit message interpolated into a step" }]

def riskyScripts : List PatternSpec :=
  [{ id := "pipe-to-shell"
     pattern := "(curl|wget)\\s[^|\\n]*\\|\\s*(sudo\\s+)?(ba)?sh"
     message := some "downloaded script piped into a shell" },
   { id := "echo-secret"
     pattern := "echo\\s[^\\n]*\\$\\\x7b\\\x7b\\s*secrets\\."
     message := some "secret echoed to the log" }]

def builtIn : Policy where
  source := "<builtin>"
  rules :=
    [{ id := "explicit-permissions"
       description := some "Workflows and jobs declare their token permissions."
       check := .permissions true true none },
     { id := "pin-remote-actions"
       description := some
         "Remote actions are pinned to a full commit SHA that exists upstream."
       check := .shaPinning true },
     { id := "untrusted-interpolation"
       description := some
         "Attacker-controlled event fields are never interpolated into scripts."
       check := .unsafePattern untrustedText },
     { id := "inline-script-hygiene"
       mode := .advisory
       description := some
         "Long or risky inline scripts belong in versioned script files."
       check := .inlineScript (some 60) riskyScripts },
     { id := "guarded-privileged-triggers"
       description := some "Privileged triggers run behind an approval environment."
       check := .highRiskTrigger ["pull_request_target", "workflow_run"] [] ["environment"] },
     { id := "pin-container-images"
       mode := .advisory
       description := some "Job containers and services are pinned by digest."
       check := .dockerPinning }]

end WorkflowAudit.Policy
