import WorkflowAudit.Text.Blank
import WorkflowAudit.Text.Pieces
import WorkflowAudit.Text.Ascii

/-!
# References carried by steps and jobs

A `uses` value names an action inside the repository, a container image, or a
remote action `owner/repo/subpath@ref`.  Readers accept exactly the grammar
stated with each type and keep every character, so that a reference can be
written back.
-/

namespace WorkflowAudit

open Text

/-- The two leading segments of a remote reference. -/
inductive SlugPart where
  | owner
  | repository
  deriving DecidableEq, Repr

def SlugPart.name : SlugPart → String
  | .owner => "owner"
  | .repository => "repository"

/-- Why a text is no reference. -/
inductive ReferenceFault where
  | empty
  | missing (part : SlugPart)
  /-- A segment that is `.` or `..`. -/
  | dotted (part : SlugPart) (segment : String)
  | foreignCharacter (part : SlugPart)
  | emptySegment
  | emptyImage
  | emptyImageName
  deriving DecidableEq, Repr

def ReferenceFault.reason : ReferenceFault → String
  | .empty => "empty reference"
  | .missing part => "missing " ++ part.name
  | .dotted part segment => s!"{part.name} cannot be '{segment}'"
  | .foreignCharacter part =>
      s!"{part.name} may only contain letters, digits, '-', '_' and '.'"
  | .emptySegment => "empty path segment"
  | .emptyImage => "empty image reference"
  | .emptyImageName => "empty image name"

/-- A refused reference: the text as it was examined, and the fault found. -/
structure InvalidReference where
  reference : String
  fault : ReferenceFault
  deriving DecidableEq, Repr

def InvalidReference.message (e : InvalidReference) : String :=
  s!"invalid reference: {e.reference} - {e.fault.reason}"

/-- Forty hexadecimal digits: a full commit id. -/
def isFullSha (value : String) : Bool :=
  value.toList.length == 40 && value.toList.all isHexDigit

/-- Paths that stay inside the repository, after trimming. -/
def isLocalPath (text : List Char) : Bool :=
  let trimmed := trim text
  (dropLead? ['.', '/'] trimmed).isSome || (dropLead? ['.', '.', '/'] trimmed).isSome ||
    trimmed == ['.']

def isLocalReference (reference : String) : Bool := isLocalPath reference.toList

def imageScheme : List Char := "docker://".toList

/-- A remote reference `owner/repo[/subpath]@ref`.  The ref is empty when the
text has no `@`. -/
structure RemoteReference where
  owner : String
  repo : String
  subpath : Option String
  gitRef : String
  deriving DecidableEq, Repr

namespace RemoteReference

def isSegmentChar (c : Char) : Bool :=
  isDecimalDigit c || isAsciiLetter c || c == '-' || c == '_' || c == '.'

/-- The fault of a leading segment, if it has one. -/
def segmentFault? (part : SlugPart) (segment : List Char) : Option ReferenceFault :=
  if segment.isEmpty then some (.missing part)
  else if segment == ['.'] || segment == ['.', '.'] then
    some (.dotted part (String.ofList segment))
  else if segment.all isSegmentChar then none
  else some (.foreignCharacter part)

/-- Reads the part before the `@` segment by segment. -/
def ofPath (path gitRef : List Char) : Except ReferenceFault RemoteReference :=
  match splitOn '/' path with
  | [] => .error (.missing .owner)
  | owner :: segments =>
      match segmentFault? .owner owner with
      | some fault => .error fault
      | none =>
          let repo := segments.headD []
          match segmentFault? .repository repo with
          | some fault => .error fault
          | none =>
              let rest := segments.tail
              if rest.any List.isEmpty then .error .emptySegment
              else .ok {
                owner := String.ofList owner
                repo := String.ofList repo
                subpath := if rest.isEmpty then none
                  else some (String.ofList (joinWith ['/'] rest))
                gitRef := String.ofList gitRef }

/-- Reads a trimmed text; its first `@` separates path and ref. -/
def ofChars (text : List Char) : Except ReferenceFault RemoteReference :=
  match splitFirst? '@' text with
  | some (path, gitRef) => ofPath path gitRef
  | none => ofPath text []

def parse (reference : String) : Except InvalidReference RemoteReference :=
  let text := trim reference.toList
  (ofChars text).mapError fun fault => ⟨String.ofList text, fault⟩

/-- The normalized `owner/repo`. -/
def slug (r : RemoteReference) : String := r.owner ++ "/" ++ r.repo

/-- The reference without its `@` part. -/
def path (r : RemoteReference) : String :=
  match r.subpath with
  | some sub => r.slug ++ "/" ++ sub
  | none => r.slug

def isPinned (r : RemoteReference) : Bool := isFullSha r.gitRef

def display (r : RemoteReference) : String :=
  if r.gitRef.isEmpty then r.path else r.path ++ "@" ++ r.gitRef

end RemoteReference

/-- Reduces a reference to its `owner/repo`. -/
def normalizeRepo (reference : String) : Except InvalidReference String :=
  (RemoteReference.parse reference).map RemoteReference.slug

/-- A container image `name[:tag][@digest]`. -/
structure ImageReference where
  name : String
  tag : Option String
  digest : Option String
  deriving DecidableEq, Repr

namespace ImageReference

/-- Splits a tag off.  A colon before the last slash belongs to a registry
port, so only the last colon after it counts. -/
def splitTag (text : List Char) : List Char × Option (List Char) :=
  let backwards := text.reverse
  let lastSegment := backwards.takeWhile (· ≠ '/')
  match splitFirst? ':' lastSegment with
  | none => (text, none)
  | some (tag, _) => (text.take (text.length - tag.length - 1), some tag.reverse)

def ofChars (text : List Char) : Except ReferenceFault ImageReference :=
  if text.isEmpty then .error .emptyImage
  else
    let (body, digest) := match splitFirst? '@' text with
      | some (body, digest) => (body, some digest)
      | none => (text, none)
    let (name, tag) := splitTag body
    if name.isEmpty then .error .emptyImageName
    else .ok ⟨String.ofList name, tag.map String.ofList, digest.map String.ofList⟩

/-- Reads an image reference; one leading `docker://` is dropped. -/
def parse (image : String) : Except InvalidReference ImageReference :=
  let text := dropLead imageScheme (trim image.toList)
  (ofChars text).mapError fun fault => ⟨String.ofList text, fault⟩

/-- Pinned by content: `sha256:` and 64 hexadecimal digits. -/
def isPinned (r : ImageReference) : Bool :=
  match r.digest with
  | none => false
  | some digest =>
      match dropLead? "sha256:".toList digest.toList with
      | none => false
      | some hex => hex.length == 64 && hex.all isHexDigit

def display (r : ImageReference) : String :=
  let tagged := match r.tag with
    | some tag => r.name ++ ":" ++ tag
    | none => r.name
  match r.digest with
  | some digest => tagged ++ "@" ++ digest
  | none => tagged

end ImageReference

/-- What a `uses` value points at. -/
inductive StepReference where
  /-- A path inside the scanned repository. -/
  | inside (path : String)
  | image (image : ImageReference)
  | remote (remote : RemoteReference)
  deriving DecidableEq, Repr

namespace StepReference

def parse (reference : String) : Except InvalidReference StepReference :=
  let text := trim reference.toList
  if text.isEmpty then .error ⟨"", .empty⟩
  else if isLocalPath text then .ok (.inside (String.ofList text))
  else match dropLead? imageScheme text with
    | some rest => (ImageReference.parse (String.ofList rest)).map .image
    | none => (RemoteReference.parse (String.ofList text)).map .remote

def isLocal : StepReference → Bool
  | .inside _ => true
  | _ => false

def remote? : StepReference → Option RemoteReference
  | .remote r => some r
  | _ => none

end StepReference

end WorkflowAudit
