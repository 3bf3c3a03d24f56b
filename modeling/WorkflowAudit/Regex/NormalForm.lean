import WorkflowAudit.Regex.Basic

/-!
# Normal forms

The automaton of an expression is laid out from its normal form, in which what
matching does not depend on is gone: groups that do not capture, empty parts,
repetitions that happen just once, and sequences or choices within their like.
Neighbouring characters are joined to one row of bytes and alternatives of one
character to one set, and alternatives that begin with the same parts share them.
-/

namespace WorkflowAudit.Regex

inductive NormalForm where
  | empty
  /-- Bytes in a row, at least one. -/
  | literal (bytes : List UInt8)
  /-- One character of a set, or one byte of it; nothing where it is empty. -/
  | oneOf (members : CharSet) (unicode : Bool)
  | assertion (a : Assertion)
  | repeated (least : Nat) (most : Option Nat) (greedy : Bool) (body : NormalForm)
  | capture (body : NormalForm)
  | sequence (parts : List NormalForm)
  /-- Alternatives in the order of preference. -/
  | choice (branches : List NormalForm)
  deriving Repr, Inhabited

namespace NormalForm

/-- The form that matches nothing. -/
def nothing : NormalForm := .oneOf CharSet.empty false

mutual

/-- Whether the empty text is all that a form can match. -/
def matchesOnlyEmpty : NormalForm → Bool
  | .empty => true
  | .literal _ => false
  | .oneOf _ _ => false
  | .assertion _ => true
  | .repeated _ most _ body => most.isSome && matchesOnlyEmpty body
  | .capture body => matchesOnlyEmpty body
  | .sequence parts => allMatchOnlyEmpty parts
  | .choice branches => allMatchOnlyEmpty branches

def allMatchOnlyEmpty : List NormalForm → Bool
  | [] => true
  | form :: rest => matchesOnlyEmpty form && allMatchOnlyEmpty rest

end

mutual

/-- A lower bound of the length of matches; `none` where a part matches nothing. -/
def minLength : NormalForm → Option Nat
  | .empty => some 0
  | .literal bytes => some bytes.length
  | .oneOf members _ => if members.isEmpty then none else some 1
  | .assertion _ => some 0
  | .repeated least _ _ body => (minLength body).map (least * ·)
  | .capture body => minLength body
  | .sequence parts => minLengthSum parts
  | .choice branches => minLengthLeast branches

def minLengthSum : List NormalForm → Option Nat
  | [] => some 0
  | part :: rest =>
      match minLength part, minLengthSum rest with
      | some length, some others => some (length + others)
      | _, _ => none

def minLengthLeast : List NormalForm → Option Nat
  | [] => none
  | [branch] => minLength branch
  | branch :: rest =>
      match minLength branch, minLengthLeast rest with
      | some length, some others => some (min length others)
      | _, _ => none

end

/-- Whether every match takes at least one byte. -/
def consumes (form : NormalForm) : Bool := form.minLength.any (0 < ·)

mutual

/-- Whether two forms are written alike.  A group that captures is like no other. -/
def isLike : NormalForm → NormalForm → Bool
  | .empty, .empty => true
  | .literal left, .literal right => left == right
  | .oneOf left unicode, .oneOf right unicode' => left == right && unicode == unicode'
  | .assertion left, .assertion right => left == right
  | .repeated least most greedy left, .repeated least' most' greedy' right =>
      least == least' && most == most' && greedy == greedy' && isLike left right
  | .sequence left, .sequence right => allLike left right
  | .choice left, .choice right => allLike left right
  | _, _ => false

def allLike : List NormalForm → List NormalForm → Bool
  | [], [] => true
  | left :: lefts, right :: rights => isLike left right && allLike lefts rights
  | _, _ => false

end

mutual

/-- The number of forms within a form, with itself. -/
def weight : NormalForm → Nat
  | .repeated _ _ _ body => weight body + 1
  | .capture body => weight body + 1
  | .sequence parts => totalWeight parts + 1
  | .choice branches => totalWeight branches + 1
  | _ => 1

def totalWeight : List NormalForm → Nat
  | [] => 0
  | form :: rest => weight form + totalWeight rest

end

/-- The bytes of a character, or the byte of a code below 256. -/
def bytesOfCode (unicode : Bool) (code : Nat) : List UInt8 :=
  if unicode then (Char.ofNat code).toString.toUTF8.toList else [code.toUInt8]

/-- A set of just one member is a text. -/
def ofSet (members : CharSet) (unicode : Bool) : NormalForm :=
  match members.ranges with
  | [] => nothing
  | [(low, high)] =>
      if low == high then .literal (bytesOfCode unicode low) else .oneOf members unicode
  | _ => .oneOf members unicode

/-- Repeating what matches only the empty text more than once adds nothing. -/
def ofRepetition (least : Nat) (most : Option Nat) (greedy : Bool) (body : NormalForm) :
    NormalForm :=
  let (least, most) := if body.matchesOnlyEmpty then (min least 1, some (most.elim 1 (min · 1)))
    else (least, most)
  if most == some 0 then .empty
  else if least == 1 && most == some 1 then body
  else .repeated least most greedy body

/-- Joins texts that stand next to each other. -/
def joinLiterals : List NormalForm → List NormalForm
  | [] => []
  | .literal bytes :: rest =>
      match joinLiterals rest with
      | .literal more :: others => .literal (bytes ++ more) :: others
      | others => .literal bytes :: others
  | part :: rest => part :: joinLiterals rest

def ofSequence (parts : List NormalForm) : NormalForm :=
  let flat := parts.flatMap fun part =>
    match part with
    | .empty => []
    | .sequence inner => inner
    | part => [part]
  match joinLiterals flat with
  | [] => .empty
  | [part] => part
  | parts => .sequence parts

/-- The code of a text of one character. -/
def singleChar? : NormalForm → Option Nat
  | .literal bytes =>
      match (String.fromUTF8? ⟨bytes.toArray⟩).map String.toList with
      | some [c] => some c.toNat
      | _ => none
  | _ => none

def singleByte? : NormalForm → Option Nat
  | .literal [b] => some b.toNat
  | _ => none

/-- The members of a form that is a set of characters; bytes are characters where
all of them are below 128. -/
def charsOf? : NormalForm → Option CharSet
  | .oneOf members unicode => if unicode || members.isAscii then some members else none
  | _ => none

/-- The members of a form that is a set of bytes. -/
def bytesOf? : NormalForm → Option CharSet
  | .oneOf members unicode => if !unicode || members.isAscii then some members else none
  | _ => none

/-- The set that alternatives amount to when each is one character. -/
def union? (branches : List NormalForm) : Option NormalForm :=
  let ofCodes := fun (codes : List Nat) => CharSet.ofRanges (codes.map fun code => (code, code))
  if let some codes := branches.mapM singleChar? then some (ofSet (ofCodes codes) true)
  else if let some codes := branches.mapM singleByte? then some (ofSet (ofCodes codes) false)
  else if let some sets := branches.mapM charsOf? then some (ofSet (CharSet.unionAll sets) true)
  else if let some sets := branches.mapM bytesOf? then some (ofSet (CharSet.unionAll sets) false)
  else none

def parts? : NormalForm → Option (List NormalForm)
  | .sequence parts => some parts
  | _ => none

/-- How many parts two sequences have in common at their start. -/
def commonLength : List NormalForm → List NormalForm → Nat
  | left :: lefts, right :: rights =>
      if left.isLike right then commonLength lefts rights + 1 else 0
  | _, _ => 0

/-- The parts that all alternatives begin with, if there are any, and what
follows them in each. -/
def commonStart? (branches : List NormalForm) :
    Option (List NormalForm × List (List NormalForm)) :=
  match branches.mapM parts? with
  | some (first :: others) =>
      let length := others.foldl (fun length parts => min length (commonLength first parts))
        first.length
      if length == 0 then none
      else some (first.take length, (first :: others).map (·.drop length))
  | _ => none

/-- A choice between alternatives.  Each time that they share their start their
weight decreases, so fuel of that weight is enough. -/
def ofChoiceWith : Nat → List NormalForm → NormalForm
  | fuel, branches =>
      let flat := branches.flatMap fun branch =>
        match branch with
        | .choice inner => inner
        | branch => [branch]
      match flat with
      | [] => nothing
      | [branch] => branch
      | branches =>
          match union? branches with
          | some set => set
          | none =>
              match fuel, commonStart? branches with
              | fuel + 1, some (start, rests) =>
                  ofSequence (start ++ [ofChoiceWith fuel (rests.map ofSequence)])
              | _, _ => .choice branches

def ofChoice (branches : List NormalForm) : NormalForm :=
  ofChoiceWith (totalWeight branches) branches

mutual

/-- The normal form of an expression. -/
def ofRegex : Regex → NormalForm
  | .empty => .empty
  | .chars set unicode => ofSet set unicode
  | .assertion a => .assertion a
  | .group captures body => if captures then .capture (ofRegex body) else ofRegex body
  | .repeated least most greedy body => ofRepetition least most greedy (ofRegex body)
  | .sequence parts => ofSequence (ofRegexes parts)
  | .choice branches => ofChoice (ofRegexes branches)

def ofRegexes : List Regex → List NormalForm
  | [] => []
  | regex :: rest => ofRegex regex :: ofRegexes rest

end

end NormalForm

end WorkflowAudit.Regex
