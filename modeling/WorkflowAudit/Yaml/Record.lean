import WorkflowAudit.Yaml.Value

/-!
# Reading records from documents

A record has a fixed list of fields, each given at most once.  Where the
expected type is known from the start, nodes are read by it: a text is what is
written, whatever it is spelled like, and an empty scalar stands for an empty
record or list.  Where the type depends on a part of the record, nodes become
values first and are read by the types that these have.
-/

namespace WorkflowAudit.Yaml

/-- The fields of a record that are given, under their names. -/
abbrev Fields (α : Type) := List (String × α)

/-- Adds a field, which must be one of `names` and new. -/
def addField {α : Type} (names : List String) (fields : Fields α) (name : String) (value : α) :
    Except Problem (Fields α) :=
  if !names.contains name then .error (.unknownField name)
  else if (fields.lookup name).isSome then .error (.repeatedField name)
  else .ok (fields ++ [(name, value)])

namespace Fields

def require {α β : Type} (fields : Fields α) (name : String) (read : α → Except Problem β) :
    Except Problem β :=
  match fields.lookup name with
  | some value => read value
  | none => .error (.missingField name)

def getOr {α β : Type} (fields : Fields α) (name : String) (default : β)
    (read : α → Except Problem β) : Except Problem β :=
  match fields.lookup name with
  | some value => read value
  | none => .ok default

end Fields

/-- A number without a minus sign that fits a word, in one of the bases that
scalars have. -/
def scalarWord? (text : String) : Option Nat :=
  match integer? text.toList with
  | some (false, value) => if value < Text.wordLimit then some value else none
  | _ => none

namespace Node

def text : Node → Except Problem String
  | .scalar _ _ text => .ok text
  | _ => .error (.wrongShape "a string")

def isEmptyScalar : Node → Bool
  | .scalar _ .plain "" => true
  | _ => false

def items (node : Node) : Except Problem (List Node) :=
  match node with
  | .sequence _ items => .ok items
  | other => if other.isEmptyScalar then .ok [] else .error (.wrongShape "a sequence")

/-- The fields of a record that is written as a mapping. -/
def fields (names : List String) (node : Node) : Except Problem (Fields Node) :=
  match node with
  | .mapping _ entries =>
      entries.foldlM (fun fields (key, value) => do
        addField names fields (← key.text) value) []
  | other => if other.isEmptyScalar then .ok [] else .error (.wrongShape "a mapping")

def nullTag : Tag := Tag.ofText "tag:yaml.org,2002:null"

def intTag : Tag := Tag.ofText "tag:yaml.org,2002:int"

/-- Whether a node stands for an absent value. -/
def isAbsent : Node → Except Problem Bool
  | .scalar none .plain text => .ok (text.isEmpty || null? text)
  | .scalar (some tag) .plain text =>
      if tag ≠ nullTag then .ok false
      else if null? text then .ok true
      else .error (.invalidScalar "null" text)
  | _ => .ok false

def optional {α : Type} (read : Node → Except Problem α) (node : Node) :
    Except Problem (Option α) := do
  if ← node.isAbsent then return none
  return some (← read node)

def word64 : Node → Except Problem Nat
  | .scalar tag style text =>
      match style == .plain || (style == .literal && tag == some intTag), scalarWord? text with
      | true, some value => .ok value
      | _, _ => .error (.invalidScalar "an unsigned integer" text)
  | _ => .error (.wrongShape "an unsigned integer")

/-- Whether a plain scalar is null or empty, under whatever tag. -/
def isUnit : Node → Bool
  | .scalar _ .plain text => text.isEmpty || null? text
  | _ => false

/-- A value of an enumeration: its name as a text, or as a tag on nothing. -/
def named {α : Type} (ofName? : String → Option α) (node : Node) : Except Problem α :=
  let find := fun name =>
    match ofName? name with
    | some value => .ok value
    | none => .error (.unknownName name)
  match node with
  | .scalar tag _ text =>
      match localTag? tag with
      | none => find text
      | some name => if node.isUnit then find name else .error (.wrongShape "a name")
  | _ => .error (.wrongShape "a name")

end Node

/-! Values of a type that is found on the way -/

mutual

/-- The value of a tree that has no tags of its own.  Keys may repeat. -/
def Value.ofPlainNode : Node → Except Problem Value
  | .scalar tag style text =>
      if (localTag? tag).isSome then .error (.wrongShape "a value without a tag")
      else scalarValue tag style text
  | .sequence tag items => do
      if (localTag? tag).isSome then throw (.wrongShape "a value without a tag")
      return .sequence (← plainItems items)
  | .mapping tag entries => do
      if (localTag? tag).isSome then throw (.wrongShape "a value without a tag")
      return .mapping (← plainEntries entries)

def plainItems : List Node → Except Problem (List Value)
  | [] => .ok []
  | item :: rest => do return (← Value.ofPlainNode item) :: (← plainItems rest)

def plainEntries : List (Node × Node) → Except Problem (List (Value × Value))
  | [] => .ok []
  | (key, value) :: rest => do
      return (← Value.ofPlainNode key, ← Value.ofPlainNode value) :: (← plainEntries rest)

end

namespace Value

def text : Value → Except Problem String
  | .string text => .ok text
  | _ => .error (.wrongShape "a string")

def flag : Value → Except Problem Bool
  | .bool value => .ok value
  | _ => .error (.wrongShape "a boolean")

def word64 : Value → Except Problem Nat
  | .number (.natural value) =>
      if value < Text.wordLimit then .ok value else .error (.wrongShape "an unsigned integer")
  | .number (.minus 0) => .ok 0
  | _ => .error (.wrongShape "an unsigned integer")

def optional {α : Type} (read : Value → Except Problem α) : Value → Except Problem (Option α)
  | .null => .ok none
  | value => (read value).map some

def listOf {α : Type} (read : Value → Except Problem α) : Value → Except Problem (List α)
  | .sequence items => items.mapM read
  | _ => .error (.wrongShape "a sequence")

/-- The name of a field: a text, or the position of the field. -/
def fieldName (names : List String) : Value → Except Problem String
  | .string name => .ok name
  | .number (.natural position) =>
      match names[position]? with
      | some name => .ok name
      | none => .error (.unknownField (toString position))
  | _ => .error (.wrongShape "a field name")

/-- Gives the values of a sequence to the fields in order; none may be left over. -/
def positional : List String → List Value → Except Problem (Fields Value)
  | _, [] => .ok []
  | [], _ :: _ => .error (.wrongShape "fewer fields")
  | name :: names, value :: values => do return (name, value) :: (← positional names values)

def entryFields (names : List String) (entries : List (Value × Value)) :
    Except Problem (Fields Value) :=
  entries.foldlM (fun fields (key, value) => do
    addField names fields (← fieldName names key) value) []

/-- The fields of a record that is written as a mapping or as a sequence. -/
def fields (names : List String) : Value → Except Problem (Fields Value)
  | .mapping entries => entryFields names entries
  | .sequence items => positional names items
  | _ => .error (.wrongShape "a mapping")

end Value

end WorkflowAudit.Yaml
