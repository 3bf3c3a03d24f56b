/-!
# Cutting texts into pieces

Texts are cut at a separator, at line ends, or after a given beginning.  Every
function here walks the text once from the left.
-/

namespace WorkflowAudit.Text

/-- The parts before and after the first `separator`; `none` without one. -/
def splitFirst? (separator : Char) : List Char → Option (List Char × List Char)
  | [] => none
  | c :: rest =>
      if c = separator then some ([], rest)
      else (splitFirst? separator rest).map fun (before, after) => (c :: before, after)

/-- The pieces between separators.  There is always at least one piece. -/
def splitOn (separator : Char) : List Char → List (List Char)
  | [] => [[]]
  | c :: rest =>
      if c = separator then [] :: splitOn separator rest
      else match splitOn separator rest with
        | [] => [[c]]
        | piece :: pieces => (c :: piece) :: pieces

/-- Joins pieces with a separator between neighbours. -/
def joinWith (separator : List Char) : List (List Char) → List Char
  | [] => []
  | [piece] => piece
  | piece :: pieces => piece ++ separator ++ joinWith separator pieces

/-- What follows `lead` in a text that begins with it. -/
def dropLead? : List Char → List Char → Option (List Char)
  | [], text => some text
  | _ :: _, [] => none
  | l :: lead, c :: text => if l = c then dropLead? lead text else none

/-- Drops `lead` where the text begins with it. -/
def dropLead (lead text : List Char) : List Char :=
  (dropLead? lead text).getD text

/-- Whether `part` occurs in a text. -/
def occursIn (part : List Char) : List Char → Bool
  | [] => part.isEmpty
  | c :: rest => (dropLead? part (c :: rest)).isSome || occursIn part rest

/-- The lines of a text.  A line ends with a line feed, optionally preceded by
a carriage return; neither belongs to the line, and the end of the text starts
no line of its own. -/
def lines : List Char → List (List Char)
  | [] => []
  | '\n' :: rest => [] :: lines rest
  | '\r' :: '\n' :: rest => [] :: lines rest
  | c :: rest =>
      match lines rest with
      | [] => [[c]]
      | line :: others => if rest.isEmpty then [[c]] else (c :: line) :: others

end WorkflowAudit.Text
