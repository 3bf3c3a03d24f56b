import WorkflowAudit.Yaml.Node
import WorkflowAudit.Yaml.Number

/-!
# The values of a document

A plain scalar without a tag stands for null, a truth value or a number where
it is spelled like one, and every other scalar for its text.  Mappings keep
their order and have no key twice.  A tag of the document's own makes a value
that is none of the others.
-/

namespace WorkflowAudit.Yaml

open Text

inductive Value where
  | null
  | bool (value : Bool)
  | number (value : Number)
  | string (value : String)
  | sequence (items : List Value)
  | mapping (entries : List (Value × Value))
  | tagged (tag : String) (value : Value)
  deriving Repr, Inhabited

/-! Scalars -/

def null? (text : String) : Bool := ["null", "Null", "NULL", "~"].contains text

def bool? (text : String) : Option Bool :=
  if ["true", "True", "TRUE"].contains text then some true
  else if ["false", "False", "FALSE"].contains text then some false
  else none

/-- The value of an integer's text.  Integers too wide for a word but not for
two are refused; wider ones are read as decimal numbers where they can be. -/
def integerValue? (text : String) : Except Problem (Option Value) :=
  match integer? text.toList with
  | none => .ok none
  | some (negative, magnitude) =>
      match integerFit negative magnitude with
      | .word => .ok (some (.number (.ofSign negative magnitude)))
      | .doubleWord => .error (.invalidScalar "a 64-bit integer" text)
      | .none => .ok none

def realValue? (text : String) : Option Value := (real? text.toList).map .number

/-- The value of a plain scalar. -/
def plainValue (text : String) : Except Problem Value := do
  if text.isEmpty || null? text then return .null
  if let some value := bool? text then return .bool value
  if let some value ← integerValue? text then return value
  if hasIdleZero (splitSign text.toList).2 then return .string text
  return (realValue? text).getD (.string text)

/-- The mark in front of a tag of the document's own, as an octet. -/
def tagMark : UInt8 := 0x21

/-- A tag of the document's own; its name is what follows the mark, and the mark itself
where nothing does, so that a lone mark in front of a scalar is a tag too.  A tag that does
not spell characters counts as none. -/
def localTag? (tag : Option Tag) : Option String :=
  match tag with
  | some (first :: rest) =>
      if first = tagMark then
        String.fromUTF8? ⟨(if rest.isEmpty then [tagMark] else rest).toArray⟩
      else none
  | _ => none

/-- Whether two names are the same tag, with a further mark or without it. -/
def sameTagName (left right : String) : Bool :=
  let bare := fun (name : String) =>
    match name.toList with
    | '!' :: c :: rest => c :: rest
    | chars => chars
  bare left == bare right

/-- The standard types whose tags decide how a scalar is read. -/
inductive StandardTag where
  | bool
  | int
  | float
  | null
  deriving DecidableEq, Repr

def StandardTag.ofTag? (tag : Tag) : Option StandardTag :=
  (String.fromUTF8? ⟨tag.toArray⟩).bind fun text =>
    [("tag:yaml.org,2002:bool", StandardTag.bool), ("tag:yaml.org,2002:int", .int),
      ("tag:yaml.org,2002:float", .float), ("tag:yaml.org,2002:null", .null)].lookup text

/-- The value of a scalar under a standard tag, in whatever style it is written. -/
def StandardTag.value (tag : StandardTag) (text : String) : Except Problem Value :=
  let required := fun (expected : String) (value : Option Value) =>
    match value with
    | some value => .ok value
    | none => .error (.invalidScalar expected text)
  match tag with
  | .bool => required "a boolean" ((bool? text).map .bool)
  | .int => do required "an integer" (← integerValue? text)
  | .float => required "a float" (realValue? text)
  | .null => required "null" (if null? text then some .null else none)

/-- The value of a scalar.  A tag of the document's own is kept in front of it, so that
what was a number or a text without the tag is neither with it.  A tag that is neither
standard nor marked as the document's own makes it a text. -/
def scalarValue (tag : Option Tag) (style : Style) (text : String) :
    Except Problem Value :=
  let untagged := if style = .plain then plainValue text else .ok (.string text)
  match localTag? tag with
  | some name => untagged.map (.tagged name)
  | none =>
      match tag with
      | none => untagged
      | some tag =>
          match StandardTag.ofTag? tag with
          | some standard => standard.value text
          | none => if tag.head? = some tagMark then untagged else .ok (.string text)

/-! Equality, by which keys are told apart -/

mutual

/-- Equality of values.  The order of a mapping's entries does not count. -/
def Value.same : Value → Value → Bool
  | .null, .null => true
  | .bool left, .bool right => left == right
  | .number left, .number right => left.same right
  | .string left, .string right => left == right
  | .sequence left, .sequence right => sameItems left right
  | .mapping left, .mapping right => left.length == right.length && containedIn left right
  | .tagged tag left, .tagged tag' right => sameTagName tag tag' && Value.same left right
  | _, _ => false

def sameItems : List Value → List Value → Bool
  | [], [] => true
  | left :: lefts, right :: rights => Value.same left right && sameItems lefts rights
  | _, _ => false

/-- Whether every entry has an equal one among `others`. -/
def containedIn : List (Value × Value) → List (Value × Value) → Bool
  | [], _ => true
  | (key, value) :: rest, others =>
      others.any (fun (key', value') => Value.same key key' && Value.same value value') &&
        containedIn rest others

end

/-! Trees -/

def withTag (tag : Option Tag) (value : Value) : Value :=
  match localTag? tag with
  | some name => .tagged name value
  | none => value

mutual

/-- The value of a tree. -/
def Value.ofNode : Node → Except Problem Value
  | .scalar tag style text => scalarValue tag style text
  | .sequence tag items => do return withTag tag (.sequence (← valuesOfItems items))
  | .mapping tag entries => do return withTag tag (.mapping (← valuesOfEntries [] entries))

def valuesOfItems : List Node → Except Problem (List Value)
  | [] => .ok []
  | item :: rest => do return (← Value.ofNode item) :: (← valuesOfItems rest)

/-- The entries of a mapping, none of whose keys is among `seen`. -/
def valuesOfEntries (seen : List Value) :
    List (Node × Node) → Except Problem (List (Value × Value))
  | [] => .ok []
  | (key, value) :: rest => do
      let key ← Value.ofNode key
      if seen.any (Value.same key) then throw .repeatedKey
      let value ← Value.ofNode value
      return (key, value) :: (← valuesOfEntries (key :: seen) rest)

end

namespace Value

/-- The value of a text with one document; a text without content is null. -/
def parse (text : String) : Except Problem Value := do
  match ← Node.parse? text with
  | none => return .null
  | some node => ofNode node

/-- The value under a text key of a mapping. -/
def get? (name : String) (entries : List (Value × Value)) : Option Value :=
  match entries with
  | [] => none
  | (.string key, value) :: rest => if key = name then some value else get? name rest
  | _ :: rest => get? name rest

/-- The text of a scalar other than null. -/
def scalar? : Value → Option String
  | .string value => some value
  | .number value => some value.text
  | .bool value => some (if value then "true" else "false")
  | _ => none

end Value

end WorkflowAudit.Yaml
