import WorkflowAudit.Text.Pieces

/-!
# Trees of files

A tree is a file or a directory with named entries, or a directory that cannot be
listed.  Paths are walked segment by segment: empty segments and single dots stay
in a directory, double dots go back to the directory around it, and nothing can be
walked out of a file or through a directory that is closed.
-/

namespace WorkflowAudit

open Text

inductive FileContent where
  | text (value : String)
  /-- A file that cannot be read as text, in the system's words. -/
  | unreadable (detail : String)
  deriving DecidableEq, Repr

inductive Tree where
  | file (content : FileContent)
  | directory (entries : List (String × Tree))
  /-- A directory whose entries cannot be listed, in the system's words. -/
  | closed (detail : String)
  deriving Repr, Inhabited

/-- What stands at a path, if anything does. -/
abbrev FileView := String → Option Tree

/-- The segments of a path. -/
def segments (path : String) : List String :=
  (splitOn '/' path.toList).map String.ofList

/-- A path below a directory.  An absolute path replaces the directory. -/
def joinPath (directory path : String) : String :=
  if path.startsWith "/" || directory.isEmpty then path
  else if directory.endsWith "/" then directory ++ path
  else directory ++ "/" ++ path

namespace Tree

def isFile : Tree → Bool
  | .file _ => true
  | .directory _ | .closed _ => false

def isDirectory (tree : Tree) : Bool := !tree.isFile

def entries : Tree → List (String × Tree)
  | .file _ | .closed _ => []
  | .directory entries => entries

def empty : Tree := .directory []

/-- Walks segments from a directory.  `above` holds the directories that were
left behind, innermost first, with the names of the entries that were taken. -/
def walk (above : List (String × Tree)) (here : Tree) :
    List String → Option (List (String × Tree) × Tree)
  | [] => some (above, here)
  | name :: rest =>
      match here with
      | .file _ | .closed _ => none
      | .directory entries =>
          if name == "" || name == "." then walk above here rest
          else if name == ".." then
            match above with
            | [] => none
            | (_, parent) :: above => walk above parent rest
          else match entries.lookup name with
            | none => none
            | some next => walk ((name, here) :: above) next rest

/-- The device that reads as an empty text, whatever was written to it. -/
def nullDevice : String := "/dev/null"

/-- What stands at a relative path; of the absolute ones only the null device is known. -/
def find? (tree : Tree) (path : String) : Option Tree :=
  if path == nullDevice then some (.file (.text ""))
  else if path.startsWith "/" then none
  else (walk [] tree (segments path)).map Prod.snd

/-- Replaces an entry, or adds it behind the others. -/
def setEntry (name : String) (value : Tree) : List (String × Tree) → List (String × Tree)
  | [] => [(name, value)]
  | (other, old) :: rest =>
      if other == name then (name, value) :: rest else (other, old) :: setEntry name value rest

/-- Puts a tree at the end of some names; missing directories are made. -/
def insert (tree : Tree) (names : List String) (value : Tree) : Tree :=
  match names with
  | [] => value
  | name :: rest =>
      let below := (tree.entries.lookup name).getD empty
      .directory (setEntry name (below.insert rest value) tree.entries)

/-- A new entry has a name of 1 to 255 bytes, none of them zero, that is not a way
to stay or to go back. -/
def isEntryName (name : String) : Bool :=
  !(["", ".", ".."].contains name) && name.utf8ByteSize ≤ 255 && !name.contains '\x00'

/-- Writes a file into a directory that exists; `none` where that is impossible.
The null device takes everything and keeps nothing. -/
def write? (tree : Tree) (path text : String) : Option Tree :=
  let names := segments path
  let name := names.getLastD ""
  if path == nullDevice then some tree
  else if path.startsWith "/" || !isEntryName name then none
  else match walk [] tree names.dropLast with
    | some (above, .directory entries) =>
        if (entries.lookup name).any isDirectory then none
        else some (tree.insert ((above.map Prod.fst).reverse ++ [name]) (.file (.text text)))
    | _ => none

end Tree

end WorkflowAudit
