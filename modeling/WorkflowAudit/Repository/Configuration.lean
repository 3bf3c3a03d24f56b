import WorkflowAudit.Policy.BuiltIn
import WorkflowAudit.Repository.Discovery

/-!
# Configuration of a repository

A policy and exceptions are read from the files that the caller names, else from
files that the repository keeps under fixed names.  Without any of them the
built-in policy applies, with no exceptions.
-/

namespace WorkflowAudit

def policyCandidates : List String := [".github/pipeguard.yml", ".github/pipeguard.yaml"]

def exceptionCandidates : List String :=
  [".github/pipeguard-exceptions.yml", ".github/pipeguard-exceptions.yaml"]

/-- The text of the file at a path. -/
def textAt (view : FileView) (path : String) : Except Fault String :=
  match view path with
  | none => .error (.file path "no such file")
  | some (.directory _) | some (.closed _) => .error (.file path "is a directory")
  | some (.file (.unreadable detail)) => .error (.file path detail)
  | some (.file (.text source)) => .ok source

/-- The path that is given, or the first candidate that is a file. -/
def configurationPath? (view : FileView) (root : String) (explicit : Option String)
    (candidates : List String) : Option String :=
  match explicit with
  | some path => some path
  | none => (candidates.map (joinPath root)).find? fun path => (view path).any Tree.isFile

def resolvePolicy (view : FileView) (root : String) (explicit : Option String) :
    Except Fault Policy :=
  match configurationPath? view root explicit policyCandidates with
  | none => .ok Policy.builtIn
  | some path =>
      match textAt view path with
      | .error fault => .error fault
      | .ok source => Policy.parse source path

def resolveExceptions (view : FileView) (root : String) (explicit : Option String) :
    Except Fault ExceptionSet :=
  match configurationPath? view root explicit exceptionCandidates with
  | none => .ok {}
  | some path =>
      match textAt view path with
      | .error fault => .error fault
      | .ok source => ExceptionSet.parse source path

end WorkflowAudit
