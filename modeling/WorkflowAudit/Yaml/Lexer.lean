import WorkflowAudit.Yaml.Scalar
import WorkflowAudit.Yaml.Token

/-!
# Cutting a YAML text into tokens

Whether a scalar is a key is known only at the colon behind it, so the lexer
remembers at each bracket level the last place where a key could start and
inserts the key token there afterwards.  Outside brackets the columns of the
open collections decide where blocks end.
-/

namespace WorkflowAudit.Yaml

open Text

/-- Whether a text may hold this character at all. -/
def isAllowed (c : Char) : Bool :=
  let code := c.toNat
  code == 0x09 || code == 0x0A || code == 0x0D || (0x20 ≤ code && code ≤ 0x7E) ||
    code == 0x85 || (0xA0 ≤ code && code ≤ 0xFFFD) || 0x10000 ≤ code

/-- Characters of anchors and tag handles. -/
def isWordChar (c : Char) : Bool :=
  isDecimalDigit c || isAsciiLetter c || c == '_' || c == '-'

/-- Characters of tags; flow indicators only where `flowAllowed`. -/
def isTagChar (flowAllowed : Bool) (c : Char) : Bool :=
  isWordChar c || ";/?:@&=+$.!~*'()%".toList.contains c ||
    (flowAllowed && (c == ',' || c == '[' || c == ']'))

/-- The place where a key may have started. -/
structure PendingKey where
  /-- The text has no other reading here than a key. -/
  required : Bool
  /-- The number of tokens before it. -/
  number : Nat
  index : Nat
  line : Nat
  column : Nat
  deriving Repr

/-- What the lexer knows between two tokens. -/
structure Lexer where
  cursor : Cursor
  /-- The tokens so far, last one first, and their number. -/
  tokens : List Token := []
  count : Nat := 0
  /-- The columns of the open block collections, innermost first. -/
  columns : List Nat := []
  keyAllowed : Bool := true
  /-- The pending key at this bracket level and at those around it. -/
  pending : Option PendingKey := none
  outer : List (Option PendingKey) := []
  deriving Repr

namespace Lexer

def inFlow (s : Lexer) : Bool := !s.outer.isEmpty

def emit (s : Lexer) (token : Token) : Lexer :=
  { s with tokens := token :: s.tokens, count := s.count + 1 }

/-- Inserts tokens, last one first, behind the first `number` tokens. -/
def insertAt (s : Lexer) (number : Nat) (tokens : List Token) : Lexer :=
  let later := s.count - number
  { s with
    tokens := s.tokens.take later ++ tokens ++ s.tokens.drop later
    count := s.count + tokens.length }

/-- The least column that content of the innermost block may have. -/
def leastColumn (s : Lexer) : Nat := (s.columns.head?.map (· + 1)).getD 0

/-- Ends the block collections whose column `ends` holds of. -/
def endBlocks (s : Lexer) (ends : Nat → Bool) : Lexer :=
  if s.inFlow then s
  else
    let ended := s.columns.takeWhile ends
    { s with
      columns := s.columns.drop ended.length
      tokens := List.replicate ended.length .blockEnd ++ s.tokens
      count := s.count + ended.length }

/-- Opens a block collection at a column unless one is open there. -/
def openBlock (s : Lexer) (column number : Nat) (token : Token) : Lexer :=
  if s.inFlow || column < s.leastColumn then s
  else { s.insertAt number [token] with columns := column :: s.columns }

/-- Gives up the pending key of this level, which is a fault if it is required. -/
def dropPending (s : Lexer) : Except Problem Lexer :=
  if s.pending.any PendingKey.required then .error .missingColon
  else .ok { s with pending := none }

/-- Notes that a key may start at the cursor. -/
def savePending (s : Lexer) : Except Problem Lexer := do
  if !s.keyAllowed then return s
  let s ← s.dropPending
  let required := !s.inFlow && s.columns.head? == some s.cursor.column
  return { s with pending := some {
    required := required
    number := s.count
    index := s.cursor.index
    line := s.cursor.line
    column := s.cursor.column } }

/-- A key lies on one line and within 1024 octets. -/
def isStale (c : Cursor) (pending : PendingKey) : Bool :=
  pending.line < c.line || pending.index + 1024 < c.index

def refreshPending (c : Cursor) : Option PendingKey → Except Problem (Option PendingKey)
  | none => .ok none
  | some pending =>
      if !isStale c pending then .ok (some pending)
      else if pending.required then .error .missingColon
      else .ok none

def dropStale (s : Lexer) : Except Problem Lexer := do
  let outer ← s.outer.reverse.mapM (refreshPending s.cursor)
  let pending ← refreshPending s.cursor s.pending
  return { s with outer := outer.reverse, pending := pending }

def moveTo (s : Lexer) (c : Cursor) : Lexer := { s with cursor := c }

def allowKey (s : Lexer) (allowed : Bool) : Lexer := { s with keyAllowed := allowed }

/-- Emits a token of `width` characters. -/
def take (s : Lexer) (width : Nat) (token : Token) : Lexer :=
  (s.emit token).moveTo (s.cursor.step width)

end Lexer

/-! Between tokens -/

/-- A byte order mark may start a line, of which it takes a column. -/
def skipByteOrderMark (c : Cursor) : Cursor :=
  if c.column == 0 && c.sees '\ufeff' then c.step 1 else c

def skipComment (c : Cursor) : Cursor :=
  if c.sees '#' then c.skipWhile (!isBreak ·) else c

/-- Moves over blanks and a comment.  A tab is a blank only where it cannot be
indentation. -/
def skipBlanks (tabs : Bool) (c : Cursor) : Cursor :=
  skipComment ((skipByteOrderMark c).skipWhile fun x => x == ' ' || (tabs && x == '\t'))

theorem length_skipByteOrderMark_le (c : Cursor) :
    (skipByteOrderMark c).rest.length ≤ c.rest.length := by
  unfold skipByteOrderMark
  split
  · exact c.length_step_le 1
  · exact Nat.le_refl _

theorem length_skipComment_le (c : Cursor) : (skipComment c).rest.length ≤ c.rest.length := by
  unfold skipComment
  split
  · exact c.length_skipWhile_le _
  · exact Nat.le_refl _

theorem length_skipBlanks_le (tabs : Bool) (c : Cursor) :
    (skipBlanks tabs c).rest.length ≤ c.rest.length :=
  Nat.le_trans (length_skipComment_le _)
    (Nat.le_trans (Cursor.length_skipWhile_le _ _) (length_skipByteOrderMark_le c))

/-- Moves to the next token.  Outside brackets a new line may start a key. -/
def skipToToken (flow keyAllowed : Bool) (c : Cursor) : Bool × Cursor :=
  let next := skipBlanks (flow || !keyAllowed) c
  match _hbreak : next.lineBreak? with
  | some (_, next) => skipToToken flow (keyAllowed || !flow) next
  | none => (keyAllowed, next)
termination_by c.rest.length
decreasing_by
  exact Nat.lt_of_lt_of_le (Cursor.length_lineBreak_lt _hbreak) (length_skipBlanks_le _ _)

/-! Directives, anchors and tags -/

/-- Two hexadecimal digits behind a percent sign. -/
def readOctet (rest : List Char) : Except Problem UInt8 :=
  match rest with
  | '%' :: high :: low :: _ =>
      match natOfDigits? 16 [high, low] with
      | some octet => .ok octet.toUInt8
      | none => .error .badTag
  | _ => .error .badTag

/-- Octets that have the form of one character: a lead and as many others as it
announces.  Whether there is such a character is not asked. -/
def readEscapedOctets (rest : List Char) : Except Problem (List UInt8) := do
  let lead ← readOctet rest
  let others ←
    if lead < 0x80 then pure 0
    else if lead / 0x20 == 6 then pure 1
    else if lead / 0x10 == 14 then pure 2
    else if lead / 0x08 == 30 then pure 3
    else throw .badTag
  let octets ← (List.range others).mapM fun place => do
    let octet ← readOctet (rest.drop (3 * (place + 1)))
    if octet / 0x40 == 2 then return octet else throw .badTag
  return lead :: octets

/-- Undoes the escapes of a tag. -/
def unescapeTag : List Char → Except Problem Tag
  | [] => .ok []
  | '%' :: rest => do
      let octets ← readEscapedOctets ('%' :: rest)
      let tail ← unescapeTag (rest.drop (3 * octets.length - 1))
      return octets ++ tail
  | c :: rest => (unescapeTag rest).map (c.toNat.toUInt8 :: ·)
termination_by text => text.length
decreasing_by
  · simp only [List.length_drop, List.length_cons]
    omega
  · simp

/-- A handle such as `!`, `!!` or `!name!`; a word without the second mark is
only the beginning of a tag. -/
def handleLength (rest : List Char) : Nat :=
  match rest with
  | '!' :: rest =>
      let word := (rest.takeWhile isWordChar).length
      if rest[word]? == some '!' then word + 2 else word + 1
  | _ => 0

/-- A tag ends in front of its first zero octet. -/
def untilZero (tag : Tag) : Tag := tag.takeWhile (· != 0)

/-- Reads a tag: its token, and its length. -/
def readTag (flow : Bool) (rest : List Char) : Except Problem (Token × Nat) := do
  let (token, length) ← match rest with
    | '!' :: '<' :: verbatim => do
        let run := verbatim.takeWhile (isTagChar true)
        if run.isEmpty || verbatim[run.length]? != some '>' then throw .badTag
        let suffix ← unescapeTag run
        pure (Token.tag "" (untilZero suffix), run.length + 3)
    | _ => do
        let handle := rest.take (handleLength rest)
        let isHandle := 2 ≤ handle.length && handle.getLast? == some '!'
        let run := (rest.drop handle.length).takeWhile (isTagChar false)
        let tail ← unescapeTag run
        let length := handle.length + run.length
        if isHandle then
          if run.isEmpty then throw .badTag
          pure (Token.tag (String.ofList handle) (untilZero tail), length)
        else
          let suffix := untilZero (handle.tail.map (·.toNat.toUInt8) ++ tail)
          if suffix.isEmpty then pure (Token.tag "" (Tag.ofText "!"), length)
          else pure (Token.tag "!" suffix, length)
  let after := rest.drop length
  if startsBlank after || (flow && after.head? == some ',') then return (token, length)
  throw .badTag

/-- Reads the name behind `&` or `*`. -/
def readAnchor (rest : List Char) : Except Problem String :=
  let name := rest.takeWhile isWordChar
  let after := rest.drop name.length
  if !name.isEmpty && (startsBlank after || after.head?.any ("?:,]\x7d%@`".toList.contains ·)) then
    .ok (String.ofList name)
  else .error .badAnchor

/-- Reads a number of a version. -/
def readVersionNumber (rest : List Char) : Except Problem (Nat × List Char) :=
  let digits := rest.takeWhile isDecimalDigit
  match natOfDigits? 10 digits with
  | some value =>
      if digits.length ≤ 9 then .ok (value, rest.drop digits.length) else .error .badDirective
  | none => .error .badDirective

/-- Reads a directive behind its percent sign: the token, and what follows. -/
def readDirective (rest : List Char) : Except Problem (Token × List Char) := do
  let name := rest.takeWhile isWordChar
  let after := rest.drop name.length
  if !startsBlank after then throw .badDirective
  let value := after.dropWhile isSpaceOrTab
  if name == "YAML".toList then
    let (major, after) ← readVersionNumber value
    match after with
    | '.' :: after =>
        let (minor, after) ← readVersionNumber after
        return (.versionDirective major minor, after)
    | _ => throw .badDirective
  else if name == "TAG".toList then
    let handle := value.take (handleLength value)
    let after := value.drop handle.length
    if handle.isEmpty || !(handle == ['!'] || handle.getLast? == some '!') ||
        !after.head?.any isSpaceOrTab then
      throw .badDirective
    let lead := after.dropWhile isSpaceOrTab
    let run := lead.takeWhile (isTagChar true)
    if run.isEmpty || !startsBlank (lead.drop run.length) then throw .badDirective
    let text ← unescapeTag run
    return (.tagDirective (String.ofList handle) (untilZero text), lead.drop run.length)
  else throw .badDirective

/-! Tokens -/

namespace Lexer

def readDirectiveLine (s : Lexer) : Except Problem Lexer := do
  let s ← (s.endBlocks fun _ => true).dropPending
  let (token, after) ← readDirective s.cursor.rest.tail
  let c := s.cursor.step (s.cursor.rest.length - after.length)
  let c := skipComment (c.skipWhile isSpaceOrTab)
  if !c.rest.isEmpty && c.lineBreak?.isNone then
    throw .badDirective
  return ((s.emit token).allowKey false).moveTo ((c.lineBreak?.map Prod.snd).getD c)

def readDocumentMark (s : Lexer) (token : Token) : Except Problem Lexer := do
  let s ← (s.endBlocks fun _ => true).dropPending
  return (s.take 3 token).allowKey false

def openFlow (s : Lexer) (token : Token) : Except Problem Lexer := do
  let s ← s.savePending
  return ({ s with outer := s.pending :: s.outer, pending := none }.take 1 token).allowKey true

/-- A closing bracket; outside brackets it is left to the reader of the tokens. -/
def closeFlow (s : Lexer) (token : Token) : Except Problem Lexer := do
  let s ← s.dropPending
  let s := match s.outer with
    | [] => s
    | pending :: outer => { s with outer := outer, pending := pending }
  return (s.take 1 token).allowKey false

def readFlowEntry (s : Lexer) : Except Problem Lexer := do
  let s ← s.dropPending
  return (s.take 1 .flowEntry).allowKey true

def readBlockEntry (s : Lexer) : Except Problem Lexer := do
  if !s.inFlow && !s.keyAllowed then throw .misplacedEntry
  let s ← (s.openBlock s.cursor.column s.count .blockSequenceStart).dropPending
  return (s.take 1 .blockEntry).allowKey true

def readKey (s : Lexer) : Except Problem Lexer := do
  if !s.inFlow && !s.keyAllowed then throw .misplacedKey
  let s ← (s.openBlock s.cursor.column s.count .blockMappingStart).dropPending
  return (s.take 1 .key).allowKey !s.inFlow

/-- A colon makes a pending key a key; without one it stands for itself. -/
def readValue (s : Lexer) : Except Problem Lexer :=
  match s.pending with
  | some key =>
      let s := (s.insertAt key.number [.key]).openBlock key.column key.number .blockMappingStart
      .ok (({ s with pending := none }.take 1 .value).allowKey false)
  | none =>
      if !s.inFlow && !s.keyAllowed then .error .misplacedValue
      else
        let s := s.openBlock s.cursor.column s.count .blockMappingStart
        .ok ((s.take 1 .value).allowKey !s.inFlow)

def readAnchorToken (s : Lexer) (token : String → Token) : Except Problem Lexer := do
  let s ← s.savePending
  let name ← readAnchor s.cursor.rest.tail
  return (s.take (name.length + 1) (token name)).allowKey false

def readTagToken (s : Lexer) : Except Problem Lexer := do
  let s ← s.savePending
  let (token, length) ← readTag s.inFlow s.cursor.rest
  return (s.take length token).allowKey false

def readScalarToken (s : Lexer) (style : Style) (scalar : ScalarText) : Lexer :=
  (s.emit (.scalar style (String.ofList scalar.text))).moveTo scalar.after

def readBlockToken (s : Lexer) (folded : Bool) : Except Problem Lexer := do
  let s ← s.dropPending
  let scalar ← readBlock folded s.columns.head? (s.cursor.step 1)
  return (s.readScalarToken (if folded then .folded else .literal) scalar).allowKey true

def readQuotedToken (s : Lexer) (quote : Char) : Except Problem Lexer := do
  let s ← s.savePending
  let scalar ← readQuoted quote [] (s.cursor.step 1)
  return (s.readScalarToken .quoted scalar).allowKey false

def readPlainToken (s : Lexer) : Except Problem Lexer := do
  let s ← s.savePending
  let scalar ← readPlain s.inFlow s.leastColumn [] {} s.cursor
  return (s.readScalarToken .plain scalar).allowKey scalar.crossedLine

/-- Indicators that cannot start a plain scalar. -/
def isIndicator (c : Char) : Bool :=
  "-?:,[]\x7b\x7d#&*!|>'\"%@`".toList.contains c

/-- Reads the token that starts with `x`. -/
def readToken (s : Lexer) (x : Char) (rest : List Char) : Except Problem Lexer :=
  let c := s.cursor
  let beforeBlank := startsBlank rest
  if c.column == 0 && x == '%' then s.readDirectiveLine
  else if c.seesMark '-' then s.readDocumentMark .documentStart
  else if c.seesMark '.' then s.readDocumentMark .documentEnd
  else if x == '[' then s.openFlow .flowSequenceStart
  else if x == '\x7b' then s.openFlow .flowMappingStart
  else if x == ']' then s.closeFlow .flowSequenceEnd
  else if x == '\x7d' then s.closeFlow .flowMappingEnd
  else if x == ',' then s.readFlowEntry
  else if x == '-' && beforeBlank then s.readBlockEntry
  else if x == '?' && (s.inFlow || beforeBlank) then s.readKey
  else if x == ':' && (s.inFlow || beforeBlank) then s.readValue
  else if x == '*' then s.readAnchorToken .alias
  else if x == '&' then s.readAnchorToken .anchor
  else if x == '!' then s.readTagToken
  else if (x == '|' || x == '>') && !s.inFlow then s.readBlockToken (x == '>')
  else if x == '\'' || x == '"' then s.readQuotedToken x
  else if !(isSpaceOrTab x || isIndicator x) ||
      (x == '-' && !rest.head?.any isSpaceOrTab) ||
      (!s.inFlow && (x == '?' || x == ':') && !beforeBlank) then s.readPlainToken
  else .error (.strayCharacter x)

/-- Reads tokens to the end of the text. -/
def run (s : Lexer) : Except Problem (List Token) :=
  let (keyAllowed, c) := skipToToken s.inFlow s.keyAllowed s.cursor
  match ((s.moveTo c).allowKey keyAllowed).dropStale with
  | .error problem => .error problem
  | .ok fresh =>
      match fresh.cursor.rest with
      | [] =>
          match (fresh.endBlocks fun _ => true).dropPending with
          | .error problem => .error problem
          | .ok finished => .ok finished.tokens.reverse
      | x :: rest =>
          match (fresh.endBlocks (c.column < ·)).readToken x rest with
          | .error problem => .error problem
          | .ok next =>
              if _hnext : next.cursor.rest.length < s.cursor.rest.length then next.run
              else .error (.strayCharacter x)
termination_by s.cursor.rest.length

end Lexer

/-- Cuts a text into tokens. -/
def tokenize (text : String) : Except Problem (List Token) :=
  let chars := text.toList
  if chars.all isAllowed then Lexer.run { cursor := { rest := chars } }
  else .error .forbiddenCharacter

end WorkflowAudit.Yaml
