import WorkflowAudit.Regex.Fault
import WorkflowAudit.Unicode.CaseFolding
import WorkflowAudit.Unicode.Property

/-!
# Flags of an expression

Flags are switched on and off in the text, for the rest of a group or for one
group alone.  They decide what a letter, a dot, an anchor or a class stands for.
-/

namespace WorkflowAudit.Regex

/-- The flags in force. -/
structure Flags where
  ignoreCase : Bool := false
  multiLine : Bool := false
  dotAll : Bool := false
  swapGreed : Bool := false
  unicode : Bool := true
  crlf : Bool := false
  verbose : Bool := false
  deriving DecidableEq, Repr

inductive Flag where
  | ignoreCase
  | multiLine
  | dotAll
  | swapGreed
  | unicode
  | crlf
  | verbose
  deriving DecidableEq, Repr

def Flag.ofChar? (c : Char) : Option Flag :=
  [('i', Flag.ignoreCase), ('m', .multiLine), ('s', .dotAll), ('U', .swapGreed),
    ('u', .unicode), ('R', .crlf), ('x', .verbose)].lookup c

namespace Flags

def set (flags : Flags) (flag : Flag) (value : Bool) : Flags :=
  match flag with
  | .ignoreCase => { flags with ignoreCase := value }
  | .multiLine => { flags with multiLine := value }
  | .dotAll => { flags with dotAll := value }
  | .swapGreed => { flags with swapGreed := value }
  | .unicode => { flags with unicode := value }
  | .crlf => { flags with crlf := value }
  | .verbose => { flags with verbose := value }

/-- Applies a list of flags: those behind the minus sign are switched off.  No
flag and no sign may stand twice, and the sign not last. -/
def apply (flags : Flags) (value : Bool) (seen : List Flag) : List Char → Except Fault Flags
  | [] => .ok flags
  | '-' :: rest =>
      if !value || rest.isEmpty then .error .badFlags else apply flags false seen rest
  | c :: rest =>
      match Flag.ofChar? c with
      | none => .error .badFlags
      | some flag =>
          if seen.contains flag then .error .badFlags
          else apply (flags.set flag value) value (flag :: seen) rest

def ascii : CharSet := CharSet.ofRange 0 0x7F

/-- Adds the other cases of the members of a set, where case is ignored. -/
def closeCase (flags : Flags) (set : CharSet) : CharSet :=
  if !flags.ignoreCase then set
  else if flags.unicode then Unicode.foldCase set
  else (Unicode.foldCase set).inter ascii

/-- The complement of a set.  Without Unicode it would hold single bytes of
longer characters. -/
def negate (flags : Flags) (negated : Bool) (set : CharSet) : Except Fault CharSet :=
  if !negated then .ok set
  else if flags.unicode then .ok set.complement
  else .error .needsUnicode

/-- What a letter stands for. -/
def literal (flags : Flags) (c : Char) : Regex :=
  if flags.unicode || c.toNat < 0x80 then
    .chars (flags.closeCase (CharSet.singleton c)) flags.unicode
  else .chars (CharSet.singleton c) true

def dot (flags : Flags) : Except Fault Regex :=
  if !flags.unicode then .error .needsUnicode
  else if flags.dotAll then .ok (.chars CharSet.all true)
  else .ok (.chars (CharSet.ofText (if flags.crlf then "\r\n" else "\n")).complement true)

def lineStart (flags : Flags) : Assertion :=
  if flags.multiLine then .lineStart flags.crlf else .textStart

def lineEnd (flags : Flags) : Assertion :=
  if flags.multiLine then .lineEnd flags.crlf else .textEnd

end Flags

/-- The classes that have an escape of one letter. -/
inductive LetterClass where
  | digit
  | space
  | word
  deriving DecidableEq, Repr

namespace LetterClass

def asciiSet : LetterClass → CharSet
  | .digit => CharSet.ofText "0123456789"
  | .space => CharSet.ofText "\t\n\x0b\x0c\r "
  | .word => CharSet.ofRanges [(0x30, 0x39), (0x41, 0x5A), (0x5F, 0x5F), (0x61, 0x7A)]

def unicodeSet : LetterClass → CharSet
  | .digit => Unicode.decimalDigits
  | .space => Unicode.whiteSpace
  | .word => Unicode.wordChars

def set (cls : LetterClass) (flags : Flags) (negated : Bool) : Except Fault CharSet :=
  flags.negate negated (if flags.unicode then cls.unicodeSet else cls.asciiSet)

end LetterClass

end WorkflowAudit.Regex
