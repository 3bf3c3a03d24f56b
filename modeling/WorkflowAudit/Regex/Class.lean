import WorkflowAudit.Regex.Escape

/-!
# Bracketed classes

A class is read with one frame for each open bracket.  A frame holds the members
since the last set operator and, in front of that operator, the set read before
it; operators of one class are applied from left to right.  Members are given
one by one, as ranges, by escapes, by the names of ASCII classes, or by a class
within the class.  The depth of a class counts what its text nests.
-/

namespace WorkflowAudit.Regex

open Text

inductive ClassOp where
  | intersection
  | difference
  | symmetricDifference
  deriving DecidableEq, Repr

def ClassOp.apply (op : ClassOp) (left right : CharSet) : CharSet :=
  match op with
  | .intersection => left.inter right
  | .difference => left.diff right
  | .symmetricDifference => left.symmDiff right

/-- Reads a set operator: a character that stands twice. -/
def ClassOp.read? (text : List Char) : Option (ClassOp × List Char) :=
  match text with
  | '&' :: '&' :: rest => some (.intersection, rest)
  | '-' :: '-' :: rest => some (.difference, rest)
  | '~' :: '~' :: rest => some (.symmetricDifference, rest)
  | _ => none

/-- A set and how deep its text nests. -/
structure ClassValue where
  set : CharSet := CharSet.empty
  depth : Nat := 0
  deriving Repr

structure ClassFrame where
  negated : Bool
  /-- The operator that waits for its right side, and its left side. -/
  pending : Option (ClassOp × ClassValue) := none
  /-- The members read since that operator, and how many they are. -/
  members : ClassValue := {}
  size : Nat := 0
  deriving Repr

namespace ClassFrame

def add (frame : ClassFrame) (member : ClassValue) : ClassFrame :=
  { frame with
    members := ⟨frame.members.set.union member.set, max frame.members.depth member.depth⟩
    size := frame.size + 1 }

/-- The set that a frame stands for, were it to end here.  Several members nest
one level deeper than a single one. -/
def value (frame : ClassFrame) (flags : Flags) : ClassValue :=
  let depth := if frame.size < 2 then frame.members.depth else frame.members.depth + 1
  match frame.pending with
  | none => ⟨frame.members.set, depth⟩
  | some (op, left) =>
      ⟨op.apply (flags.closeCase left.set) (flags.closeCase frame.members.set),
        max left.depth depth + 1⟩

def operate (frame : ClassFrame) (flags : Flags) (op : ClassOp) : ClassFrame :=
  { negated := frame.negated, pending := some (op, frame.value flags) }

def close (frame : ClassFrame) (flags : Flags) : Except Fault ClassValue :=
  let value := frame.value flags
  match flags.negate frame.negated (flags.closeCase value.set) with
  | .error fault => .error fault
  | .ok set => .ok ⟨set, value.depth + 1⟩

end ClassFrame

/-- Reads hyphens that stand for themselves at the start of a class. -/
def readLeadingHyphens (verbose : Bool) (frame : ClassFrame) (text : List Char) :
    ClassFrame × List Char :=
  match text with
  | '-' :: rest =>
      readLeadingHyphens verbose (frame.add ⟨CharSet.singleton '-', 0⟩) (skipVerbose verbose rest)
  | text => (frame, text)
termination_by text.length
decreasing_by
  have := length_skipVerbose_le verbose rest
  simp only [List.length_cons]
  omega

/-- Reads the start of a class behind its bracket: a sign of negation, hyphens,
and if there are none a closing bracket that stands for itself. -/
def openClass (verbose : Bool) (text : List Char) : ClassFrame × List Char :=
  let (negated, text) := match skipVerbose verbose text with
    | '^' :: rest => (true, skipVerbose verbose rest)
    | text => (false, text)
  match text with
  | ']' :: rest =>
      (ClassFrame.add { negated } ⟨CharSet.singleton ']', 0⟩, skipVerbose verbose rest)
  | text => readLeadingHyphens verbose { negated } text

/-- The classes that are named between colons. -/
def namedClassRanges : List (String × List (Nat × Nat)) :=
  [("alnum", [(0x30, 0x39), (0x41, 0x5A), (0x61, 0x7A)]),
    ("alpha", [(0x41, 0x5A), (0x61, 0x7A)]),
    ("ascii", [(0x00, 0x7F)]),
    ("blank", [(0x09, 0x09), (0x20, 0x20)]),
    ("cntrl", [(0x00, 0x1F), (0x7F, 0x7F)]),
    ("digit", [(0x30, 0x39)]),
    ("graph", [(0x21, 0x7E)]),
    ("lower", [(0x61, 0x7A)]),
    ("print", [(0x20, 0x7E)]),
    ("punct", [(0x21, 0x2F), (0x3A, 0x40), (0x5B, 0x60), (0x7B, 0x7E)]),
    ("space", [(0x09, 0x0D), (0x20, 0x20)]),
    ("upper", [(0x41, 0x5A)]),
    ("word", [(0x30, 0x39), (0x41, 0x5A), (0x5F, 0x5F), (0x61, 0x7A)]),
    ("xdigit", [(0x30, 0x39), (0x41, 0x46), (0x61, 0x66)])]

/-- Reads a named class behind its bracket: the set, whether it is negated, and
the text after it. -/
def namedClass? (text : List Char) : Option (CharSet × Bool × List Char) :=
  match text with
  | ':' :: text =>
      let (negated, text) := match text with
        | '^' :: rest => (true, rest)
        | text => (false, text)
      let name := text.takeWhile (· != ':')
      match text.drop name.length, namedClassRanges.lookup (String.ofList name) with
      | ':' :: ']' :: rest, some ranges => some (CharSet.ofRanges ranges, negated, rest)
      | _, _ => none
  | _ => none

/-- The characters that an escape or a character stands for within a class. -/
def Primitive.members (flags : Flags) : Primitive → Except Fault CharSet
  | .literal c _ =>
      if flags.unicode || c.toNat < 0x80 then .ok (CharSet.singleton c) else .error .needsUnicode
  | .letterClass cls negated => cls.set flags negated
  | .property set negated =>
      match set with
      | none => .error .unknownProperty
      | some set =>
          if flags.unicode then flags.negate negated (flags.closeCase set)
          else .error .needsUnicode
  | .textStart | .textEnd | .word _ => .error .badEscape

/-- The end of a range has to be a single character. -/
def Primitive.rangeEnd (flags : Flags) : Primitive → Except Fault Nat
  | .literal c _ =>
      if flags.unicode || c.toNat < 0x80 then .ok c.toNat else .error .needsUnicode
  | _ => .error .badClassRange

/-- Reads a character or an escape. -/
def readPrimitive (verbose : Bool) (c : Char) (rest : List Char) :
    Except Fault (Primitive × List Char) :=
  if c == '\\' then readEscape verbose rest else .ok (.literal c false, rest)

/-- The next character behind blanks and the sign of one comment, but not behind
the comment's text. -/
def peek (verbose : Bool) (text : List Char) : Option Char :=
  if !verbose then text.head?
  else match text.dropWhile isBlank with
    | '#' :: rest => (rest.dropWhile isBlank).head?
    | text => text.head?

/-- Whether a text begins with the hyphen of a range.  Before a closing bracket
or another hyphen it is none. -/
def startsRange (verbose : Bool) (text : List Char) : Bool :=
  match text with
  | '-' :: rest => peek verbose rest != some ']' && peek verbose rest != some '-'
  | _ => false

/-- The characters from one to another. -/
def rangeMembers (flags : Flags) (low high : Primitive) : Except Fault CharSet := do
  let low ← low.rangeEnd flags
  let high ← high.rangeEnd flags
  if low ≤ high then return CharSet.ofRange low high else throw .badClassRange

/-- Reads one member that starts with `c`, or a range of members. -/
def readMember (flags : Flags) (c : Char) (rest : List Char) :
    Except Fault (CharSet × List Char) :=
  match readPrimitive flags.verbose c rest with
  | .error fault => .error fault
  | .ok (low, rest) =>
      let rest := skipVerbose flags.verbose rest
      if startsRange flags.verbose rest then
        match skipVerbose flags.verbose rest.tail with
        | [] => .error .unclosedClass
        | c :: rest =>
            match readPrimitive flags.verbose c rest with
            | .error fault => .error fault
            | .ok (high, rest) => (rangeMembers flags low high).map (·, rest)
      else (low.members flags).map (·, rest)

/-- A class that is being read, with its innermost frame apart, or one that has
been closed. -/
inductive ClassState where
  | reading (frame : ClassFrame) (outer : List ClassFrame)
  | closed (value : ClassValue)

/-- Closes the innermost bracket, which makes its class a member of the one
around it. -/
def closeClass (flags : Flags) (frame : ClassFrame) (outer : List ClassFrame) :
    Except Fault ClassState :=
  (frame.close flags).map fun value =>
    match outer with
    | [] => .closed value
    | parent :: outer => .reading (parent.add value) outer

/-- Reads one member, operator or bracket, which starts with `c`. -/
def classStep (flags : Flags) (frame : ClassFrame) (outer : List ClassFrame) (c : Char)
    (rest : List Char) : Except Fault (ClassState × List Char) :=
  let withMember := fun (set : CharSet) => ClassState.reading (frame.add ⟨set, 0⟩) outer
  if c == '[' then
    match namedClass? rest with
    | some (set, negated, after) =>
        (flags.negate negated (flags.closeCase set)).map fun set => (withMember set, after)
    | none =>
        let (inner, after) := openClass flags.verbose rest
        .ok (.reading inner (frame :: outer), after)
  else if c == ']' then (closeClass flags frame outer).map (·, rest)
  else match ClassOp.read? (c :: rest) with
    | some (op, after) => .ok (.reading (frame.operate flags op) outer, after)
    | none => (readMember flags c rest).map fun (set, after) => (withMember set, after)

/-! Every step consumes its first character. -/

theorem length_readLeadingHyphens_le (verbose : Bool) (frame : ClassFrame) (text : List Char) :
    (readLeadingHyphens verbose frame text).2.length ≤ text.length := by
  fun_induction readLeadingHyphens verbose frame text with
  | case1 frame rest ih =>
      have := length_skipVerbose_le verbose rest
      simp only [List.length_cons]
      omega
  | case2 => exact Nat.le_refl _

theorem length_openClass_le (verbose : Bool) (text : List Char) :
    (openClass verbose text).2.length ≤ text.length := by
  have hskip := length_skipVerbose_le verbose text
  have hbody : ∀ {negated : Bool} {body : List Char}, body.length ≤ text.length →
      (match body with
        | ']' :: rest =>
            (ClassFrame.add { negated } ⟨CharSet.singleton ']', 0⟩, skipVerbose verbose rest)
        | body => readLeadingHyphens verbose { negated } body).2.length ≤ text.length := by
    intro negated body hle
    split
    · next rest =>
        have := length_skipVerbose_le verbose rest
        simp only [List.length_cons] at hle
        dsimp only
        omega
    · exact Nat.le_trans (length_readLeadingHyphens_le _ _ _) hle
  unfold openClass
  split
  · next heq =>
      split at heq
      · next rest hfirst =>
          cases heq
          have := length_skipVerbose_le verbose rest
          rw [hfirst, List.length_cons] at hskip
          exact hbody (by omega)
      · cases heq
        exact hbody hskip

theorem length_namedClass?_le {text after : List Char} {set : CharSet} {negated : Bool}
    (h : namedClass? text = some (set, negated, after)) : after.length ≤ text.length := by
  unfold namedClass? at h
  split at h
  · next text =>
      have hname : ∀ {body after : List Char} {name : List Char},
          body.drop name.length = ':' :: ']' :: after → after.length ≤ body.length := by
        intro body after name hdrop
        have := congrArg List.length hdrop
        simp only [List.length_drop, List.length_cons] at this
        omega
      split at h
      next negated' body hsign =>
        have hbody : body.length ≤ text.length := by
          split at hsign
          · cases hsign
            exact Nat.le_succ _
          · cases hsign
            exact Nat.le_refl _
        dsimp only at h
        split at h
        · next hdrop _ =>
            cases h
            have := hname hdrop
            simp only [List.length_cons]
            omega
        · cases h
  · cases h

theorem length_opRead?_le {op : ClassOp} {c : Char} {rest after : List Char}
    (h : ClassOp.read? (c :: rest) = some (op, after)) : after.length ≤ rest.length := by
  unfold ClassOp.read? at h
  split at h
  · next heq => cases heq; cases h; exact Nat.le_succ _
  · next heq => cases heq; cases h; exact Nat.le_succ _
  · next heq => cases heq; cases h; exact Nat.le_succ _
  · cases h

theorem length_readPrimitive_le {verbose : Bool} {c : Char} {rest after : List Char}
    {found : Primitive} (h : readPrimitive verbose c rest = .ok (found, after)) :
    after.length ≤ rest.length := by
  unfold readPrimitive at h
  split at h
  · exact length_readEscape_le h
  · cases h
    exact Nat.le_refl _

theorem map_eq_ok {ε α β : Type} {f : α → β} {x : Except ε α} {b : β}
    (h : x.map f = .ok b) : ∃ a, x = .ok a ∧ f a = b := by
  cases x with
  | error e => cases h
  | ok a => cases h; exact ⟨a, rfl, rfl⟩

theorem length_readMember_le {flags : Flags} {c : Char} {rest after : List Char} {set : CharSet}
    (h : readMember flags c rest = .ok (set, after)) : after.length ≤ rest.length := by
  unfold readMember at h
  split at h
  · cases h
  · next low first hlow =>
      have hfirst := length_readPrimitive_le hlow
      have hskip := length_skipVerbose_le flags.verbose first
      dsimp only at h
      split at h
      · have htail := length_skipVerbose_le flags.verbose (skipVerbose flags.verbose first).tail
        rw [List.length_tail] at htail
        split at h
        · cases h
        · next c second hsecond =>
            rw [hsecond, List.length_cons] at htail
            split at h
            · cases h
            · next hhigh =>
                have := length_readPrimitive_le hhigh
                obtain ⟨_, _, heq⟩ := map_eq_ok h
                cases heq
                omega
      · obtain ⟨_, _, heq⟩ := map_eq_ok h
        cases heq
        omega

theorem length_classStep_le {flags : Flags} {frame : ClassFrame} {outer : List ClassFrame}
    {c : Char} {rest after : List Char} {state : ClassState}
    (h : classStep flags frame outer c rest = .ok (state, after)) :
    after.length ≤ rest.length := by
  unfold classStep at h
  dsimp only at h
  split at h
  · split at h
    · next hnamed =>
        obtain ⟨_, _, heq⟩ := map_eq_ok h
        cases heq
        exact length_namedClass?_le hnamed
    · cases h
      exact length_openClass_le _ _
  · split at h
    · obtain ⟨_, _, heq⟩ := map_eq_ok h
      cases heq
      exact Nat.le_refl _
    · split at h
      · next hop =>
          cases h
          exact length_opRead?_le hop
      · obtain ⟨⟨_, _⟩, hmember, heq⟩ := map_eq_ok h
        cases heq
        exact length_readMember_le hmember

/-- Reads on to the end of the class. -/
def readClassFrom (flags : Flags) (frame : ClassFrame) (outer : List ClassFrame)
    (text : List Char) : Except Fault (ClassValue × List Char) :=
  match _htext : skipVerbose flags.verbose text with
  | [] => .error .unclosedClass
  | c :: rest =>
      match _hstep : classStep flags frame outer c rest with
      | .error fault => .error fault
      | .ok (.closed value, after) => .ok (value, after)
      | .ok (.reading frame outer, after) => readClassFrom flags frame outer after
termination_by text.length
decreasing_by
  have hskip := length_skipVerbose_le flags.verbose text
  have hstep := length_classStep_le _hstep
  rw [_htext, List.length_cons] at hskip
  omega

/-- Reads a class behind its opening bracket. -/
def readClass (flags : Flags) (text : List Char) : Except Fault (ClassValue × List Char) :=
  let (frame, rest) := openClass flags.verbose text
  readClassFrom flags frame [] rest

theorem length_readClassFrom_le {flags : Flags} {frame : ClassFrame} {outer : List ClassFrame}
    {text after : List Char} {value : ClassValue}
    (h : readClassFrom flags frame outer text = .ok (value, after)) :
    after.length ≤ text.length := by
  fun_induction readClassFrom flags frame outer text with
  | case1 => cases h
  | case2 => cases h
  | case3 frame outer text c rest htext value' after' hstep =>
      cases h
      have hskip := length_skipVerbose_le flags.verbose text
      have := length_classStep_le hstep
      rw [htext, List.length_cons] at hskip
      omega
  | case4 frame outer text c rest htext frame' outer' after' hstep ih =>
      have hskip := length_skipVerbose_le flags.verbose text
      have := length_classStep_le hstep
      have := ih h
      rw [htext, List.length_cons] at hskip
      omega

theorem length_readClass_le {flags : Flags} {text after : List Char} {value : ClassValue}
    (h : readClass flags text = .ok (value, after)) : after.length ≤ text.length :=
  Nat.le_trans (length_readClassFrom_le h) (length_openClass_le _ _)

end WorkflowAudit.Regex
