import WorkflowAudit.CommandLine.Response

/-!
# The program

The process reads what a command can ask for from the file system and from the
environment, lets the command answer, and carries the answer out.

Some of it is left out.  The process has no network: its client can always be built,
and every request of it fails like one that reaches no host.  It writes no log, so
the verbosity flag is read and changes nothing; its help is one line.  What the
system says of a file or a directory, and what a reader of documents or an engine of
expressions says of its input, are words of their own; when they are said is part of
the library.
-/

namespace WorkflowAudit.Program

open CommandLine

/-- The variables that settings are taken from. -/
def variableNames : List String :=
  ["CI", "GITHUB_ACTIONS", "PIPEGUARD_MODE", "PIPEGUARD_API_URL", "PIPEGUARD_VERIFY_REFS",
    "PIPEGUARD_VERIFY_TIMEOUT", "PIPEGUARD_GITHUB_TOKEN", "GITHUB_TOKEN", "GH_TOKEN"]

def environment : IO Environment := do
  let values ← variableNames.filterMapM fun name => do
    return (← IO.getEnv name).map (name, ·)
  return ⟨values⟩

/-- Reads a file, or a directory with all that is below it. -/
partial def load (path : String) : IO (Option Tree) := do
  let place := (← IO.currentDir) / path
  if ← place.isDir then
    match ← place.readDir.toBaseIO with
    | .error e => return some (.closed (toString e))
    | .ok found =>
        let entries ← found.toList.filterMapM fun entry => do
          return (← load (joinPath path entry.fileName)).map (entry.fileName, ·)
        return some (.directory entries)
  else if ← place.pathExists then
    try return some (.file (.text (← IO.FS.readFile place)))
    catch e => return some (.file (.unreadable (toString e)))
  else return none

/-- The view of all paths that a command can ask for. -/
def viewFor (command : Command) : IO FileView := do
  let found ← command.paths.filterMapM fun path => do
    return (← load path).map (path, ·)
  return fun path => found.lookup path

/-- Writes the file that a response leaves to be written. -/
def finish (response : Response) : IO Response := do
  match response.pendingFile with
  | none => return response
  | some (path, text) =>
      try
        IO.FS.writeFile ((← IO.currentDir) / path) text
        return response
      catch e => return response.writeFailed path (toString e)

/-- Answers the arguments of the process, and gives its exit status. -/
def run (arguments : List String) : IO UInt32 := do
  let env ← environment
  let view ← match Command.parse env arguments with
    | .ok command => viewFor command
    | .error (.usage fault) => do
        IO.eprintln s!"error: {fault.message}"
        pure fun _ => none
    | .error (.early _) => pure fun _ => none
  let response := respond Pattern.Engine.standard Connector.offline () view env arguments
  IO.print response.output
  let response ← finish response
  if let some message := response.fatal then IO.eprintln s!"fatal: {message}"
  return response.exitCode.toUInt32

end WorkflowAudit.Program

def main (arguments : List String) : IO UInt32 := WorkflowAudit.Program.run arguments
