import WorkflowAudit.Json.Basic

/-!
# Reading records and names from JSON

A record is written as an object, whose unknown entries are ignored, or as an
array of its fields in order.  A name is written as a text, or as an object
with that name as its only key and null under it.
-/

namespace WorkflowAudit.Json

/-- What a record may leave out. -/
inductive FieldRule where
  | required
  /-- May be missing from an object, but not from an array. -/
  | nullable
  /-- May be missing from both. -/
  | defaulted
  deriving DecidableEq, Repr

/-- The fields of an object in the order of the rules. -/
def namedFields? (entries : List (String × Json)) :
    List (String × FieldRule) → Option (List (Option Json))
  | [] => some []
  | (name, rule) :: rest =>
      match entries.lookup name with
      | some value => (namedFields? entries rest).map (some value :: ·)
      | none => if rule = .required then none else (namedFields? entries rest).map (none :: ·)

/-- The fields of an array in the order of the rules; none may be left over. -/
def positionalFields? : List Json → List (String × FieldRule) → Option (List (Option Json))
  | [], [] => some []
  | _ :: _, [] => none
  | item :: items, _ :: rest => (positionalFields? items rest).map (some item :: ·)
  | [], (_, rule) :: rest =>
      if rule = .defaulted then (positionalFields? [] rest).map (none :: ·) else none

def fields? (rules : List (String × FieldRule)) : Json → Option (List (Option Json))
  | .obj entries => namedFields? entries rules
  | .arr items => positionalFields? items rules
  | _ => none

def string? : Json → Option String
  | .str value => some value
  | _ => none

def bool? : Json → Option Bool
  | .bool value => some value
  | _ => none

/-- A natural number that fits a word of 64 bits. -/
def word64? : Json → Option Nat
  | .int (.ofNat value) => if value < Text.wordLimit then some value else none
  | _ => none

/-- Null stands for an absent value. -/
def nullable? {α : Type} (read : Json → Option α) : Json → Option (Option α)
  | .null => some none
  | value => (read value).map some

/-- An optional field: missing and null are the same. -/
def optional? {α : Type} (read : Json → Option α) : Option Json → Option (Option α)
  | none => some none
  | some value => nullable? read value

/-- A field with a default for a missing value. -/
def orElse? {α : Type} (read : Json → Option α) (default : α) : Option Json → Option α
  | none => some default
  | some value => read value

/-- A value of an enumeration, by its name. -/
def named? {α : Type} (ofName? : String → Option α) : Json → Option α
  | .str name => ofName? name
  | .obj [(name, .null)] => ofName? name
  | _ => none

end WorkflowAudit.Json
