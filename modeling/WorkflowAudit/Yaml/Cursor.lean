/-!
# Positions in a text

A cursor is the rest of a text together with how far it has been read.  The
index counts the octets of UTF-8.  Lines and columns count from zero, and a
column counts every character, tabs included, as one.
-/

namespace WorkflowAudit.Yaml

def isSpaceOrTab (c : Char) : Bool := c == ' ' || c == '\t'

/-- The five line breaks; a carriage return and a line feed form one. -/
def isBreak (c : Char) : Bool :=
  c == '\n' || c == '\r' || c == '\u0085' || c == '\u2028' || c == '\u2029'

/-- Whether a text ends here or goes on with a blank or a line break. -/
def startsBlank (text : List Char) : Bool :=
  text.head?.all fun c => isSpaceOrTab c || isBreak c

/-- How many octets a text has in UTF-8. -/
def octetCount (text : List Char) : Nat :=
  text.foldl (fun count c => count + c.utf8Size) 0

structure Cursor where
  rest : List Char
  index : Nat := 0
  line : Nat := 0
  column : Nat := 0
  deriving Repr

namespace Cursor

def peek (c : Cursor) : Option Char := c.rest.head?

def sees (c : Cursor) (x : Char) : Bool := c.rest.head? == some x

/-- Moves over `count` characters of one line. -/
def step (c : Cursor) (count : Nat) : Cursor :=
  { c with
    rest := c.rest.drop count
    index := c.index + octetCount (c.rest.take count)
    column := c.column + count }

/-- The characters up to the first one that `accepts` refuses. -/
def run (c : Cursor) (accepts : Char → Bool) : List Char := c.rest.takeWhile accepts

/-- Moves over the run of what `accepts`, which must not hold of line breaks. -/
def skipWhile (c : Cursor) (accepts : Char → Bool) : Cursor := c.step (c.run accepts).length

def newLine (c : Cursor) (rest : List Char) (width : Nat) : Cursor where
  rest := rest
  index := c.index + width
  line := c.line + 1
  column := 0

/-- The line break at the cursor as it enters a scalar, and the cursor after
it.  Line and paragraph separators stand for themselves. -/
def lineBreak? (c : Cursor) : Option (Char × Cursor) :=
  match c.rest with
  | [] => none
  | '\r' :: '\n' :: rest => some ('\n', c.newLine rest 2)
  | x :: rest =>
      if x == '\u2028' || x == '\u2029' then some (x, c.newLine rest x.utf8Size)
      else if isBreak x then some ('\n', c.newLine rest x.utf8Size)
      else none

/-- A `---` or `...` at the start of a line. -/
def seesMark (c : Cursor) (mark : Char) : Bool :=
  c.column == 0 && c.rest.take 3 == [mark, mark, mark] && startsBlank (c.rest.drop 3)

def seesDocumentMark (c : Cursor) : Bool := c.seesMark '-' || c.seesMark '.'

theorem length_step_le (c : Cursor) (count : Nat) :
    (c.step count).rest.length ≤ c.rest.length := by
  simp [step]

theorem length_step_lt {c : Cursor} {count : Nat} (hcount : 0 < count) (hrest : c.rest ≠ []) :
    (c.step count).rest.length < c.rest.length := by
  have := List.length_pos_iff.mpr hrest
  simp only [step, List.length_drop]
  omega

theorem length_skipWhile_le (c : Cursor) (accepts : Char → Bool) :
    (c.skipWhile accepts).rest.length ≤ c.rest.length :=
  c.length_step_le _

theorem length_lineBreak_lt {c next : Cursor} {x : Char} (h : c.lineBreak? = some (x, next)) :
    next.rest.length < c.rest.length := by
  unfold lineBreak? at h
  split at h
  · contradiction
  · rename_i rest heq
    cases h
    simp only [newLine, heq, List.length_cons]
    omega
  · rename_i y rest _ heq
    rw [heq]
    split at h
    · cases h
      simp [newLine]
    · split at h
      · cases h
        simp [newLine]
      · contradiction

end Cursor

end WorkflowAudit.Yaml
