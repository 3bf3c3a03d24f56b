/-!
# Blank characters

A character is blank when it has the Unicode property White_Space.  Trimming
drops blanks at both ends of a text and nothing else.
-/

namespace WorkflowAudit.Text

/-- The Unicode property White_Space: 25 characters, ten of them below U+0100. -/
def isBlank (c : Char) : Bool :=
  let code := c.toNat
  (9 ≤ code && code ≤ 13) || code == 0x20 || code == 0x85 || code == 0xA0 ||
    code == 0x1680 || (0x2000 ≤ code && code ≤ 0x200A) || code == 0x2028 ||
    code == 0x2029 || code == 0x202F || code == 0x205F || code == 0x3000

/-- Drops what `drops` accepts at the end of a text. -/
def trimEndWith (drops : Char → Bool) (text : List Char) : List Char :=
  (text.reverse.dropWhile drops).reverse

/-- Drops blanks at both ends. -/
def trim (text : List Char) : List Char :=
  trimEndWith isBlank (text.dropWhile isBlank)

def trimString (text : String) : String := String.ofList (trim text.toList)

/-- Holds of texts that have no character besides blanks. -/
def isBlankString (text : String) : Bool := text.toList.all isBlank

end WorkflowAudit.Text
