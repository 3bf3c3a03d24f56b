import WorkflowAudit.Decimal.Binary64
import WorkflowAudit.Text.Ascii

/-!
# JSON values and their text

Values keep the entries of an object in a list.  The printer indents by two
spaces, writes every character outside the control range as it is, and leaves
the order of entries to the value.
-/

namespace WorkflowAudit

inductive Json where
  | null
  | bool (value : Bool)
  | int (value : Int)
  /-- A number written with a fraction or an exponent; no reader of this library
  accepts one. -/
  | real (value : Decimal.Binary64)
  | str (value : String)
  | arr (items : List Json)
  | obj (entries : List (String × Json))
  deriving Repr, Inhabited

namespace Json

def ofNat (n : Nat) : Json := .int n

def ofOption (value : Option Json) : Json := value.getD .null

def strings (values : List String) : Json := .arr (values.map .str)

/-- The entry of an object under `key`. -/
def get? (key : String) : Json → Option Json
  | .obj entries => entries.lookup key
  | _ => none

/-- How one character stands inside a quoted text. -/
def escapeChar (c : Char) : List Char :=
  if c = '"' then ['\\', '"']
  else if c = '\\' then ['\\', '\\']
  else if c = '\n' then ['\\', 'n']
  else if c = '\r' then ['\\', 'r']
  else if c = '\t' then ['\\', 't']
  else if c.toNat = 8 then ['\\', 'b']
  else if c.toNat = 12 then ['\\', 'f']
  else if c.toNat < 32 then
    ['\\', 'u', '0', '0', Text.hexDigitOf (c.toNat / 16), Text.hexDigitOf (c.toNat % 16)]
  else [c]

def quote (text : List Char) : List Char :=
  '"' :: text.flatMap escapeChar ++ ['"']

def indent (depth : Nat) : List Char := '\n' :: List.replicate (2 * depth) ' '

/-- Whether `left` comes before `right` in the order of their UTF-8 bytes,
which is the order of their code points. -/
def keyLe (left right : String) : Bool := decide (left ≤ right)

/-- Inserts an entry before the first key that is not smaller. -/
def insertEntry (key : String) (value : Json) : List (String × Json) → List (String × Json)
  | [] => [(key, value)]
  | (other, old) :: rest =>
      if keyLe key other then (key, value) :: (other, old) :: rest
      else (other, old) :: insertEntry key value rest

mutual

/-- The same value with the entries of every object in ascending key order. -/
def sortKeys : Json → Json
  | .arr items => .arr (sortItems items)
  | .obj entries => .obj (sortEntries entries)
  | value => value

def sortItems : List Json → List Json
  | [] => []
  | item :: rest => sortKeys item :: sortItems rest

def sortEntries : List (String × Json) → List (String × Json)
  | [] => []
  | (key, value) :: rest => insertEntry key (sortKeys value) (sortEntries rest)

end

mutual

/-- The text of a value that starts at indentation `depth`. -/
def render (depth : Nat) : Json → List Char
  | .null => "null".toList
  | .bool true => "true".toList
  | .bool false => "false".toList
  | .int value => (toString value).toList
  | .real value => value.text
  | .str value => quote value.toList
  | .arr [] => ['[', ']']
  | .arr (item :: rest) =>
      '[' :: indent (depth + 1) ++ render (depth + 1) item ++ renderItems depth rest ++ [']']
  | .obj [] => ['\x7b', '\x7d']
  | .obj ((key, value) :: rest) =>
      '\x7b' :: indent (depth + 1) ++ quote key.toList ++ [':', ' '] ++
        render (depth + 1) value ++ renderEntries depth rest ++ ['\x7d']

/-- The items after the first one, and the line that closes the list. -/
def renderItems (depth : Nat) : List Json → List Char
  | [] => indent depth
  | item :: rest =>
      ',' :: indent (depth + 1) ++ render (depth + 1) item ++ renderItems depth rest

def renderEntries (depth : Nat) : List (String × Json) → List Char
  | [] => indent depth
  | (key, value) :: rest =>
      ',' :: indent (depth + 1) ++ quote key.toList ++ [':', ' '] ++
        render (depth + 1) value ++ renderEntries depth rest

end

/-- The indented text of a value. -/
def pretty (value : Json) : String := String.ofList (render 0 value)

end Json

end WorkflowAudit
