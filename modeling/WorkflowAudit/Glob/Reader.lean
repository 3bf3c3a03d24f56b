import WorkflowAudit.Glob.Basic

/-!
# Reading globs

A glob is read once from the left.  Braces open groups of alternatives and can
be nested; a comma separates alternatives inside a group and stands for itself
outside.  Two stars stand for whole names only where separators, or the ends of
the glob, are on both sides of them; elsewhere they are two single stars.
-/

namespace WorkflowAudit.Glob

inductive GlobFault where
  | unclosedClass
  | invalidRange (low high : Char)
  | danglingEscape
  | unclosedGroup
  | unopenedGroup
  deriving DecidableEq, Repr

def GlobFault.message : GlobFault → String
  | .unclosedClass => "unclosed character class; missing ']'"
  | .invalidRange low high => s!"invalid range; '{low}' > '{high}'"
  | .danglingEscape => "dangling '\\'"
  | .unclosedGroup =>
      "unclosed alternate group; missing '\x7d' (maybe escape '\x7b' with '[\x7b]'?)"
  | .unopenedGroup =>
      "unopened alternate group; missing '\x7b' (maybe escape '\x7d' with '[\x7d]'?)"

/-- An open group: its finished alternatives, and what stands before it in the
alternative around it; both newest first. -/
structure OpenGroup where
  branches : List (List Part) := []
  before : List Part
  deriving Repr

structure Reader where
  /-- The parts of the alternative at hand, newest first. -/
  parts : List Part := []
  /-- The open groups, innermost first. -/
  groups : List OpenGroup := []
  /-- The character in front of the rest of the text. -/
  last : Option Char := none
  deriving Repr

/-- Members of a class up to its closing bracket.  `first` holds before the
first member, where brackets and hyphens stand for themselves; `inRange` holds
behind the hyphen of a range, whose first character is the newest member. -/
def readMembers (ranges : List (Char × Char)) (first inRange : Bool) :
    List Char → Except GlobFault (List (Char × Char) × List Char)
  | [] => .error .unclosedClass
  | c :: rest =>
      if c == ']' && !first then
        .ok ((if inRange then ('-', '-') :: ranges else ranges).reverse, rest)
      else if c == '-' && !first && !inRange then readMembers ranges false true rest
      else match inRange, ranges with
        | true, (low, _) :: others =>
            if c < low then .error (.invalidRange low c)
            else readMembers ((low, c) :: others) false false rest
        | _, _ => readMembers ((c, c) :: ranges) false false rest

/-- Reads a class behind its opening bracket. -/
def readClass (text : List Char) : Except GlobFault (Part × List Char) :=
  let (negated, text) := match text with
    | '!' :: rest => (true, rest)
    | '^' :: rest => (true, rest)
    | text => (false, text)
  (readMembers [] true false text).map fun (ranges, rest) => (.byteClass negated ranges, rest)

namespace Reader

def push (s : Reader) (part : Part) (last : Char) : Reader :=
  { s with parts := part :: s.parts, last := some last }

def openGroup (s : Reader) : Reader :=
  { parts := [], groups := { before := s.parts } :: s.groups, last := some '\x7b' }

def closeGroup (s : Reader) : Except GlobFault Reader :=
  match s.groups with
  | [] => .error .unopenedGroup
  | group :: groups =>
      let branches := (s.parts.reverse :: group.branches).reverse
      .ok { parts := .oneOf branches :: group.before, groups, last := some '\x7d' }

def readComma (s : Reader) : Reader :=
  match s.groups with
  | [] => s.push (.literal ',') ','
  | group :: groups =>
      { parts := []
        groups := { group with branches := s.parts.reverse :: group.branches } :: groups
        last := some ',' }

/-- Two stars that are nothing but two stars. -/
def pushTwoStars (s : Reader) : Reader :=
  { s with parts := .anyBytes :: .anyBytes :: s.parts, last := some '*' }

/-- Puts whole names in the place of the separator in front of them. -/
def replaceLast (s : Reader) (part : Part) (last : Char) : Reader :=
  match s.parts with
  | .leadingNames :: _ => { s with last := some last }
  | .trailingNames :: _ => { s with last := some last }
  | _ :: parts => { s with parts := part :: parts, last := some last }
  | [] => s.push part last

/-- Two stars, with `rest` behind them. -/
def readTwoStars (s : Reader) (rest : List Char) : Reader × List Char :=
  if s.parts.isEmpty then
    match rest with
    | [] => (s.push .leadingNames '*', [])
    | '/' :: rest => (s.push .leadingNames '/', rest)
    | rest => (s.pushTwoStars, rest)
  else
    let inGroup := !s.groups.isEmpty
    let separated := s.last == some '/' ||
      (inGroup && (s.last == some ',' || s.last == some '\x7b'))
    match separated, rest with
    | false, rest => (s.pushTwoStars, rest)
    | true, [] => (s.replaceLast .trailingNames '*', [])
    | true, '/' :: rest => (s.replaceLast .namesBetween '/', rest)
    | true, c :: rest =>
        if inGroup && (c == ',' || c == '\x7d') then
          (s.replaceLast .trailingNames '*', c :: rest)
        else (s.pushTwoStars, c :: rest)

/-- Reads one part, or one brace or comma, which starts with `c`. -/
def step (s : Reader) (c : Char) (rest : List Char) : Except GlobFault (Reader × List Char) :=
  if c == '?' then .ok (s.push .anyByte c, rest)
  else if c == '*' then
    match rest with
    | '*' :: rest => .ok (s.readTwoStars rest)
    | rest => .ok (s.push .anyBytes c, rest)
  else if c == '[' then
    (readClass rest).map fun (part, rest) => (s.push part ']', rest)
  else if c == '\x7b' then .ok (s.openGroup, rest)
  else if c == '\x7d' then s.closeGroup.map (·, rest)
  else if c == ',' then .ok (s.readComma, rest)
  else if c == '\\' then
    match rest with
    | [] => .error .danglingEscape
    | d :: rest => .ok (s.push (.literal d) d, rest)
  else .ok (s.push (.literal c) c, rest)

/-! Every step consumes its first character. -/

theorem length_readMembers_le {ranges members : List (Char × Char)} {first inRange : Bool}
    {text after : List Char} (h : readMembers ranges first inRange text = .ok (members, after)) :
    after.length ≤ text.length := by
  induction text generalizing ranges first inRange with
  | nil => cases h
  | cons c rest ih =>
      have hrest : ∀ {after : List Char}, after.length ≤ rest.length →
          after.length ≤ (c :: rest).length := fun hle => Nat.le_trans hle (Nat.le_succ _)
      unfold readMembers at h
      split at h
      · cases h
        exact Nat.le_succ _
      · split at h
        · exact hrest (ih h)
        · split at h
          · split at h
            · cases h
            · exact hrest (ih h)
          · exact hrest (ih h)

theorem length_readClass_le {part : Part} {text after : List Char}
    (h : readClass text = .ok (part, after)) : after.length ≤ text.length := by
  have hmembers : ∀ {negated : Bool} {body : List Char}, body.length ≤ text.length →
      ((readMembers [] true false body).map fun (ranges, rest) =>
        (Part.byteClass negated ranges, rest)) = .ok (part, after) →
      after.length ≤ text.length := by
    intro negated body hle hread
    cases hbody : readMembers [] true false body with
    | error fault => rw [hbody] at hread; cases hread
    | ok members =>
        rw [hbody] at hread
        cases hread
        exact Nat.le_trans (length_readMembers_le hbody) hle
  unfold readClass at h
  split at h
  next negated body hsign =>
    refine hmembers ?_ h
    split at hsign
    · cases hsign
      exact Nat.le_succ _
    · cases hsign
      exact Nat.le_succ _
    · cases hsign
      exact Nat.le_refl _

theorem length_readTwoStars_le (s : Reader) (text : List Char) :
    (s.readTwoStars text).2.length ≤ text.length := by
  unfold readTwoStars
  dsimp only
  repeat' split
  all_goals first
    | exact Nat.le_refl _
    | exact Nat.le_succ _

theorem length_step_le {s next : Reader} {c : Char} {rest after : List Char}
    (h : s.step c rest = .ok (next, after)) : after.length ≤ rest.length := by
  unfold step at h
  split at h
  · cases h
    exact Nat.le_refl _
  split at h
  · split at h
    · next rest =>
        have := length_readTwoStars_le s rest
        rw [Except.ok.inj h] at this
        exact Nat.le_trans this (Nat.le_succ _)
    · cases h
      exact Nat.le_refl _
  split at h
  · cases hclass : readClass rest with
    | error fault => rw [hclass] at h; cases h
    | ok read =>
        rw [hclass] at h
        cases h
        exact length_readClass_le hclass
  split at h
  · cases h
    exact Nat.le_refl _
  split at h
  · cases hclose : s.closeGroup with
    | error fault => rw [hclose] at h; cases h
    | ok closed =>
        rw [hclose] at h
        cases h
        exact Nat.le_refl _
  split at h
  · cases h
    exact Nat.le_refl _
  split at h
  · split at h
    · cases h
    · cases h
      exact Nat.le_succ _
  cases h
  exact Nat.le_refl _

/-- Reads on to the end of the text. -/
def run (s : Reader) (text : List Char) : Except GlobFault Reader :=
  match text with
  | [] => .ok s
  | c :: rest =>
      match _hstep : s.step c rest with
      | .error fault => .error fault
      | .ok (next, after) => next.run after
termination_by text.length
decreasing_by
  have := length_step_le _hstep
  simp only [List.length_cons]
  omega

end Reader

/-- Reads a whole glob. -/
def parse (text : String) : Except GlobFault Glob :=
  match Reader.run {} text.toList with
  | .error fault => .error fault
  | .ok s => if s.groups.isEmpty then .ok ⟨s.parts.reverse⟩ else .error .unclosedGroup

end WorkflowAudit.Glob
