import WorkflowAudit.Fault
import WorkflowAudit.Repository.Tree

/-!
# Finding definitions

Workflows are the YAML files directly in the workflow directory.  Step bundles
are files of fixed names, at the root of a repository and anywhere below the
action directory.  Both lists are sorted by path.  Directories are listed one after
the other, each before those in it and these by name; the first that cannot be
listed ends the search.
-/

namespace WorkflowAudit

open Text

def workflowDirectory : String := ".github/workflows"

def actionDirectory : String := ".github/actions"

def bundleNames : List String := ["action.yml", "action.yaml"]

/-- A document, by its path below the root of the repository. -/
structure FoundFile where
  path : String
  content : FileContent
  deriving DecidableEq, Repr

structure Discovered where
  pipelines : List FoundFile := []
  bundles : List FoundFile := []
  deriving DecidableEq, Repr

def Discovered.isEmpty (d : Discovered) : Bool := d.pipelines.isEmpty && d.bundles.isEmpty

/-- The text behind the last dot of a name, unless that dot is its first
character. -/
def fileExtension? (name : String) : Option String :=
  match splitFirst? '.' name.toList.reverse with
  | some (backwards, _ :: _) => some (String.ofList backwards.reverse)
  | _ => none

def hasYamlExtension (name : String) : Bool :=
  fileExtension? name == some "yml" || fileExtension? name == some "yaml"

/-- The entry of a directory, if it is a file. -/
def foundFile? (path : String) : Tree → Option FoundFile
  | .file content => some ⟨path, content⟩
  | .directory _ | .closed _ => none

/-- What a search comes upon: a document, or a directory that cannot be listed. -/
abbrev Encounter := Except Fault FoundFile

/-- The YAML files directly in the workflow directory. -/
def workflowEncounters (root : String) : Tree → List Encounter
  | .file _ => []
  | .closed detail => [.error (.file (joinPath root workflowDirectory) detail)]
  | .directory entries => entries.filterMap fun (name, entry) =>
      if hasYamlExtension name then
        (foundFile? (joinPath workflowDirectory name) entry).map .ok
      else none

/-- What is kept under names, by ascending names. -/
def byName {α : Type} (items : List (String × α)) : List α :=
  (items.mergeSort fun left right => decide (left.1 ≤ right.1)).map Prod.snd

mutual

/-- The bundle files in one entry of the directory at `path`. -/
def bundleEncounters (root path name : String) : Tree → List Encounter
  | .file content => if bundleNames.contains name then [.ok ⟨joinPath path name, content⟩] else []
  | .closed detail => [.error (.file (joinPath root (joinPath path name)) detail)]
  | .directory entries => (byName (encountersIn root (joinPath path name) entries)).flatten

/-- The bundle files at any depth below the directory at `path`, under the names of its
entries. -/
def encountersIn (root path : String) : List (String × Tree) → List (String × List Encounter)
  | [] => []
  | (name, entry) :: rest =>
      (name, bundleEncounters root path name entry) :: encountersIn root path rest

end

/-- The bundle files at any depth below the action directory. -/
def actionEncounters (root : String) : Tree → List Encounter
  | .file _ => []
  | .closed detail => [.error (.file (joinPath root actionDirectory) detail)]
  | .directory entries => (byName (encountersIn root actionDirectory entries)).flatten

/-- The documents of a search, unless it ends at a directory that cannot be listed. -/
def documents : List Encounter → Except Fault (List FoundFile)
  | [] => .ok []
  | .error fault :: _ => .error fault
  | .ok file :: rest => (documents rest).map (file :: ·)

def sortFiles (files : List FoundFile) : List FoundFile :=
  files.mergeSort fun left right => decide (left.path ≤ right.path)

/-- Finds the definitions of the repository at `root`, or the first directory that cannot
be listed.  A directory that does not exist has no files. -/
def discover (view : FileView) (root : String) : Except Fault Discovered := do
  let pipelines ← documents <|
    (view (joinPath root workflowDirectory)).elim [] (workflowEncounters root)
  let atRoot := bundleNames.filterMap fun name =>
    (view (joinPath root name)).bind (foundFile? name)
  let below ← documents <|
    (view (joinPath root actionDirectory)).elim [] (actionEncounters root)
  return ⟨sortFiles pipelines, sortFiles (atRoot ++ below)⟩

/-- Reads a document.  Where it cannot be read, it is named by its path from
where the tool runs. -/
def FoundFile.load (kind : DefinitionKind) (root : String) (file : FoundFile) :
    Except Fault Definition :=
  match file.content with
  | .unreadable detail => .error (.file (joinPath root file.path) detail)
  | .text source => Definition.load kind file.path source

/-- Reads documents up to the first one with a fault. -/
def loadDefinitions (kind : DefinitionKind) (root : String) :
    List FoundFile → Except Fault (List Definition)
  | [] => .ok []
  | file :: rest =>
      match file.load kind root with
      | .error fault => .error fault
      | .ok definition => (loadDefinitions kind root rest).map (definition :: ·)

end WorkflowAudit
