import WorkflowAudit.Text.Ascii
import WorkflowAudit.Yaml.Cursor
import WorkflowAudit.Yaml.Problem

/-!
# Reading the text of a scalar

A plain or quoted scalar may go on over several lines: one line break between
two of its lines becomes a space, and of several the first is dropped.  A block
scalar keeps its line breaks or folds them the same way, and its header says
what happens to those at its end.  Each reader starts at the first character of
a scalar and returns its text and the cursor after it.
-/

namespace WorkflowAudit.Yaml

open Text

/-- Line breaks between two lines of text, as they enter the scalar. -/
def foldBreaks : List Char → List Char
  | ['\n'] => [' ']
  | '\n' :: others => others
  | breaks => breaks

/-- What stands between two texts of a scalar. -/
structure Gap where
  /-- The blanks before the first line break. -/
  blanks : List Char := []
  breaks : List Char := []
  /-- The least column of a tab that follows a line break. -/
  tabColumn : Option Nat := none
  deriving Repr

namespace Gap

/-- A gap with no line break is kept as it is. -/
def text (gap : Gap) : List Char :=
  if gap.breaks.isEmpty then gap.blanks else foldBreaks gap.breaks

def addBlank (gap : Gap) (blank : Char) (column : Nat) : Gap :=
  if gap.breaks.isEmpty then { gap with blanks := gap.blanks ++ [blank] }
  else if blank == '\t' then
    { gap with tabColumn := some (min column (gap.tabColumn.getD column)) }
  else gap

/-- Reads blanks and line breaks. -/
def readFrom (gap : Gap) (c : Cursor) : Gap × Cursor :=
  match _hbreak : c.lineBreak? with
  | some (x, next) => readFrom { gap with breaks := gap.breaks ++ [x] } next
  | none =>
      match _hrest : c.rest with
      | [] => (gap, c)
      | x :: _ =>
          if isSpaceOrTab x then readFrom (gap.addBlank x c.column) (c.step 1)
          else (gap, c)
termination_by c.rest.length
decreasing_by
  · exact Cursor.length_lineBreak_lt _hbreak
  · exact Cursor.length_step_lt (by omega) (by simp [_hrest])

end Gap

/-! Plain scalars -/

/-- Characters that end a plain scalar inside brackets. -/
def isFlowIndicator (c : Char) : Bool :=
  c == ',' || c == '[' || c == ']' || c == '\x7b' || c == '\x7d'

/-- The characters of a plain scalar up to the next blank or indicator. -/
def plainRun (flow : Bool) : List Char → Except Problem (List Char)
  | [] => .ok []
  | c :: rest =>
      if isSpaceOrTab c || isBreak c then .ok []
      else if flow && c == ':' && rest.head?.any (fun x => isFlowIndicator x || x == '?') then
        .error .colonInFlow
      else if c == ':' && startsBlank rest then .ok []
      else if flow && isFlowIndicator c then .ok []
      else (plainRun flow rest).map (c :: ·)

/-- A scalar that has been read. -/
structure ScalarText where
  text : List Char
  /-- Whether the cursor has moved to another line behind the text. -/
  crossedLine : Bool := false
  after : Cursor
  deriving Repr

/-- Reads on behind `text` and a gap.  Outside brackets a line that is indented
by less than `least` ends the scalar. -/
def readPlain (flow : Bool) (least : Nat) (text : List Char) (gap : Gap) (c : Cursor) :
    Except Problem ScalarText :=
  let done : ScalarText := ⟨text, !gap.breaks.isEmpty, c⟩
  if c.seesDocumentMark || c.sees '#' then .ok done
  else match plainRun flow c.rest with
    | .error problem => .error problem
    | .ok run =>
        if run.isEmpty then .ok done
        else
          let text := text ++ gap.text ++ run
          let next := c.step run.length
          if !(startsBlank next.rest) || next.rest.isEmpty then .ok ⟨text, false, next⟩
          else
            let (gap, after) := Gap.readFrom {} next
            if gap.tabColumn.any (· < least) then .error .tabIndent
            else if !flow && after.column < least then .ok ⟨text, !gap.breaks.isEmpty, after⟩
            else if _hafter : after.rest.length < c.rest.length then
              readPlain flow least text gap after
            else .ok ⟨text, false, after⟩
termination_by c.rest.length

/-! Quoted scalars -/

/-- What a one-letter escape stands for. -/
def simpleEscape? (c : Char) : Option Char :=
  [('0', '\x00'), ('a', '\x07'), ('b', '\x08'), ('t', '\t'), ('\t', '\t'), ('n', '\n'),
    ('v', '\x0b'), ('f', '\x0c'), ('r', '\r'), ('e', '\x1b'), (' ', ' '), ('"', '"'),
    ('/', '/'), ('\\', '\\'), ('N', '\u0085'), ('_', '\u00a0'), ('L', '\u2028'),
    ('P', '\u2029')].lookup c

/-- The number of digits of an escape that gives a code point. -/
def escapeDigits? (c : Char) : Option Nat :=
  if c = 'x' then some 2 else if c = 'u' then some 4 else if c = 'U' then some 8 else none

/-- The escape after a backslash: the character, and the length of the escape. -/
def readEscape (rest : List Char) : Except Problem (Char × Nat) :=
  match rest with
  | [] => .error .badEscape
  | kind :: digits =>
      match simpleEscape? kind, escapeDigits? kind with
      | some c, _ => .ok (c, 1)
      | none, none => .error .badEscape
      | none, some count =>
          match natOfDigits? 16 (digits.take count) with
          | some code =>
              if digits.length < count then .error .badEscape
              else if h : code.isValidChar then .ok (Char.ofNatAux code h, count + 1)
              else .error .badEscape
          | none => .error .badEscape

/-- Reads on behind `text` up to the closing quote.  A backslash at a line end
inside double quotes drops the break. -/
def readQuoted (quote : Char) (text : List Char) (c : Cursor) : Except Problem ScalarText :=
  if c.seesDocumentMark then .error .documentMarkInQuote
  else match _hrest : c.rest with
    | [] => .error .unclosedQuote
    | x :: rest =>
        if isSpaceOrTab x || isBreak x then
          let (gap, after) := Gap.readFrom {} c
          if _hafter : after.rest.length < c.rest.length then
            readQuoted quote (text ++ gap.text) after
          else .error .unclosedQuote
        else if x == quote then
          if quote == '\'' && rest.head? == some '\'' then
            readQuoted quote (text ++ ['\'']) (c.step 2)
          else .ok ⟨text, false, c.step 1⟩
        else if quote == '"' && x == '\\' then
          match _hbreak : (c.step 1).lineBreak? with
          | some (_, next) =>
              -- the dropped break keeps the blanks behind it out of the text
              let (gap, after) := Gap.readFrom { breaks := ['\n'] } next
              if _hafter : after.rest.length < c.rest.length then
                readQuoted quote (text ++ gap.breaks.tail) after
              else .error .unclosedQuote
          | none =>
              match readEscape rest with
              | .error problem => .error problem
              | .ok (value, length) => readQuoted quote (text ++ [value]) (c.step (length + 1))
        else
          let run := c.run fun x =>
            !(isSpaceOrTab x || isBreak x || x == quote || (quote == '"' && x == '\\'))
          readQuoted quote (text ++ x :: run.tail) (c.step (run.tail.length + 1))
termination_by c.rest.length
decreasing_by
  · exact _hafter
  · exact Cursor.length_step_lt (by omega) (by simp [_hrest])
  · exact _hafter
  · exact Cursor.length_step_lt (by omega) (by simp [_hrest])
  · exact Cursor.length_step_lt (by omega) (by simp [_hrest])

/-! Block scalars -/

/-- What becomes of the line breaks at the end of a block scalar. -/
inductive Chomping where
  | strip
  | clip
  | keep
  deriving DecidableEq, Repr

structure BlockHeader where
  chomping : Chomping := .clip
  /-- The stated indentation, relative to the enclosing collection. -/
  increment : Option Nat := none
  deriving Repr

def chomping? : List Char → Option (Chomping × List Char)
  | '-' :: rest => some (.strip, rest)
  | '+' :: rest => some (.keep, rest)
  | _ => none

/-- Reads the marks of a header, in either order: the header, and its length. -/
def readBlockHeader (rest : List Char) : Except Problem (BlockHeader × Nat) :=
  let (first, afterFirst) := match chomping? rest with
    | some (chomping, rest) => (some chomping, rest)
    | none => (none, rest)
  match afterFirst with
  | digit :: afterDigit =>
      if !isDecimalDigit digit then
        .ok (⟨first.getD .clip, none⟩, rest.length - afterFirst.length)
      else if digit == '0' then .error .badBlockHeader
      else
        let increment := some (digit.toNat - '0'.toNat)
        match first, chomping? afterDigit with
        | none, some (chomping, tail) => .ok (⟨chomping, increment⟩, rest.length - tail.length)
        | _, _ => .ok (⟨first.getD .clip, increment⟩, rest.length - afterDigit.length)
  | [] => .ok (⟨first.getD .clip, none⟩, rest.length)

/-- Blank lines of a block scalar: their breaks, the widest indentation seen,
and the cursor before the first character of content. -/
structure BlockGap where
  breaks : List Char := []
  widest : Nat := 0
  after : Cursor
  deriving Repr

/-- Reads blank lines, eating indentation up to `limit` columns or, while the
indentation is not known, all of it. -/
def readBlockGap (limit : Option Nat) (breaks : List Char) (widest : Nat) (c : Cursor) :
    Except Problem BlockGap :=
  let spaces := (c.run (· == ' ')).length
  let indented := c.step (match limit with
    | some limit => min spaces (limit - c.column)
    | none => spaces)
  let widest := max widest indented.column
  if limit.all (indented.column < ·) && indented.sees '\t' then .error .tabIndent
  else match _hbreak : indented.lineBreak? with
    | none => .ok ⟨breaks, widest, indented⟩
    | some (x, next) => readBlockGap limit (breaks ++ [x]) widest next
termination_by c.rest.length
decreasing_by
  exact Nat.lt_of_lt_of_le (Cursor.length_lineBreak_lt _hbreak) (Cursor.length_step_le _ _)

/-- The text of a block scalar so far. -/
structure BlockText where
  text : List Char := []
  /-- The break that ended the last line. -/
  lastBreak : List Char := []
  /-- The breaks of the blank lines after it. -/
  blankLines : List Char := []
  /-- Whether the last line started with a blank. -/
  startedBlank : Bool := false
  deriving Repr

/-- The text with the breaks before a further line.  Folding leaves alone the
breaks around a line that starts with a blank. -/
def BlockText.joined (b : BlockText) (folded startsBlank : Bool) : List Char :=
  if folded && b.lastBreak == ['\n'] && !b.startedBlank && !startsBlank then
    b.text ++ (if b.blankLines.isEmpty then [' '] else b.blankLines)
  else b.text ++ b.lastBreak ++ b.blankLines

def BlockText.chomped (b : BlockText) : Chomping → List Char
  | .strip => b.text
  | .clip => b.text ++ b.lastBreak
  | .keep => b.text ++ b.lastBreak ++ b.blankLines

/-- Reads the lines that are indented by `indent` columns. -/
def readBlockLines (folded : Bool) (indent : Nat) (b : BlockText) (c : Cursor) :
    Except Problem (BlockText × Cursor) :=
  if c.column != indent || c.rest.isEmpty then .ok (b, c)
  else
    let line := c.run (!isBreak ·)
    let startsBlank := line.head?.any isSpaceOrTab
    let text := b.joined folded startsBlank ++ line
    let lineEnd := c.step line.length
    match _hbreak : lineEnd.lineBreak? with
    | none => .ok (⟨text, [], [], startsBlank⟩, lineEnd)
    | some (x, next) =>
        match readBlockGap (some indent) [] 0 next with
        | .error problem => .error problem
        | .ok gap =>
            if _hgap : gap.after.rest.length < c.rest.length then
              readBlockLines folded indent ⟨text, [x], gap.breaks, startsBlank⟩ gap.after
            else .ok (⟨text, [x], gap.breaks, startsBlank⟩, gap.after)
termination_by c.rest.length

/-- Reads a block scalar behind its `|` or `>`.  The first line of content sets
the indentation where the header does not, but `least` columns are needed. -/
def readBlock (folded : Bool) (parent : Option Nat) (c : Cursor) : Except Problem ScalarText := do
  let (header, length) ← readBlockHeader c.rest
  let c := (c.step length).skipWhile isSpaceOrTab
  let c := if c.sees '#' then c.skipWhile (!isBreak ·) else c
  if !c.rest.isEmpty && c.lineBreak?.isNone then
    throw .badBlockHeader
  let c := (c.lineBreak?.map Prod.snd).getD c
  let stated := header.increment.map (· + parent.getD 0)
  let gap ← readBlockGap stated [] 0 c
  let least := max 1 ((parent.map (· + 1)).getD 0)
  let indent := stated.getD (max gap.widest least)
  let (block, after) ← readBlockLines folded indent { blankLines := gap.breaks } gap.after
  return ⟨block.chomped header.chomping, true, after⟩

end WorkflowAudit.Yaml
