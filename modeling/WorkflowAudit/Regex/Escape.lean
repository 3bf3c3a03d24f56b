import WorkflowAudit.Regex.Flags
import WorkflowAudit.Text.Ascii
import WorkflowAudit.Text.Blank

/-!
# Escapes

Behind a backslash stand classes, anchors, control characters, code points and
characters that would otherwise be operators.  In verbose text blanks and
comments may stand between the characters of an escape.  Every reader returns
what it has read and the text behind it.
-/

namespace WorkflowAudit.Regex

open Text

/-- Drops blanks and comments; a comment runs to the end of its line. -/
def skipInsignificant (inComment : Bool) : List Char → List Char
  | [] => []
  | c :: rest =>
      if inComment then skipInsignificant (c != '\n') rest
      else if isBlank c then skipInsignificant false rest
      else if c == '#' then skipInsignificant true rest
      else c :: rest

/-- Drops what is insignificant in verbose text. -/
def skipVerbose (verbose : Bool) (text : List Char) : List Char :=
  if verbose then skipInsignificant false text else text

/-- What one escape or character stands for, before flags are looked at. -/
inductive Primitive where
  /-- A character; `byte` where two digits gave it as a byte. -/
  | literal (c : Char) (byte : Bool)
  | letterClass (cls : LetterClass) (negated : Bool)
  | property (set : Option CharSet) (negated : Bool)
  | textStart
  | textEnd
  | word (edge : WordEdge)
  deriving Repr

/-- Characters that have a meaning of their own in some place. -/
def isMeta (c : Char) : Bool := "\\.+*?()|[]\x7b\x7d^$#&-~".toList.contains c

/-- Characters that may be escaped and then stand for themselves. -/
def isEscapable (c : Char) : Bool :=
  isMeta c || (c.toNat < 0x80 && !isDecimalDigit c && !isAsciiLetter c && c != '<' && c != '>')

def codePoint? (digits : List Char) : Option Char :=
  (natOfDigits? 16 digits).bind fun code =>
    if h : code.isValidChar then some (Char.ofNatAux code h) else none

/-- Reads exactly `count` hexadecimal digits. -/
def readHexDigits (verbose : Bool) : Nat → List Char → Except Fault (List Char × List Char)
  | 0, text => .ok ([], text)
  | _ + 1, [] => .error .badEscape
  | count + 1, c :: rest => do
      if !isHexDigit c then throw .badEscape
      let (digits, after) ← readHexDigits verbose count (skipVerbose verbose rest)
      return (c :: digits, after)

theorem length_skipInsignificant_le (inComment : Bool) (text : List Char) :
    (skipInsignificant inComment text).length ≤ text.length := by
  induction text generalizing inComment with
  | nil => exact Nat.le_refl _
  | cons c rest ih =>
      have hrest : ∀ b, (skipInsignificant b rest).length ≤ (c :: rest).length := fun b =>
        Nat.le_trans (ih b) (Nat.le_succ _)
      unfold skipInsignificant
      split
      · exact hrest _
      · split
        · exact hrest _
        · split
          · exact hrest _
          · exact Nat.le_refl _

theorem length_skipVerbose_le (verbose : Bool) (text : List Char) :
    (skipVerbose verbose text).length ≤ text.length := by
  unfold skipVerbose
  split
  · exact length_skipInsignificant_le _ _
  · exact Nat.le_refl _

/-- Reads to a closing brace: what stands before it, and what follows. -/
def readBraced (verbose : Bool) (text : List Char) : Except Fault (List Char × List Char) :=
  match _htext : skipVerbose verbose text with
  | [] => .error .badEscape
  | '\x7d' :: rest => .ok ([], rest)
  | c :: rest =>
      match readBraced verbose rest with
      | .ok (inside, after) => .ok (c :: inside, after)
      | .error fault => .error fault
termination_by text.length
decreasing_by
  have h := length_skipVerbose_le verbose text
  rw [_htext] at h
  exact h

/-- Reads the digits of a code point: those in braces, or `count` of them. -/
def readCodeDigits (verbose : Bool) (count : Nat) (text : List Char) :
    Except Fault (List Char × List Char) :=
  match skipVerbose verbose text with
  | '\x7b' :: rest =>
      match readBraced verbose rest with
      | .error fault => .error fault
      | .ok (digits, after) =>
          if digits.all isHexDigit then .ok (digits, skipVerbose verbose after)
          else .error .badEscape
  | text => readHexDigits verbose count text

/-- Reads a code point behind `x`, `u` or `U`.  Two digits without braces give
a byte. -/
def readCodePoint (verbose : Bool) (count : Nat) (text : List Char) :
    Except Fault (Primitive × List Char) :=
  match readCodeDigits verbose count text with
  | .error fault => .error fault
  | .ok (digits, after) =>
      let braced := (skipVerbose verbose text).head? == some '\x7b'
      match codePoint? digits with
      | some c => .ok (.literal c (count == 2 && !braced), after)
      | none => .error .badEscape

/-- The characters that the text between braces names, and whether an operator
in it negates them: a name and a value around `!=` stand for the characters that do not
have the value, around `=` or a colon for those that do. -/
def propertyQuery (name : List Char) : Option CharSet × Bool :=
  let text := String.ofList
  let before := name.takeWhile (· != '!')
  match name.drop before.length with
  | '!' :: '=' :: value => (Unicode.valued? (text before) (text value), true)
  | _ =>
      let colon := name.takeWhile (· != ':')
      let equals := name.takeWhile (· != '=')
      match name.drop colon.length, name.drop equals.length with
      | _ :: value, _ => (Unicode.valued? (text colon) (text value), false)
      | [], _ :: value => (Unicode.valued? (text equals) (text value), false)
      | [], [] => (Unicode.named? (text name), false)

/-- Reads the name of a property behind `p` or `P`: one letter, or braces. -/
def readProperty (verbose negated : Bool) (text : List Char) :
    Except Fault (Primitive × List Char) :=
  match skipVerbose verbose text with
  | [] => .error .badEscape
  | '\\' :: _ => .error .badEscape
  | '\x7b' :: rest =>
      match readBraced verbose rest with
      | .error fault => .error fault
      | .ok (name, after) =>
          let (set, flipped) := propertyQuery name
          .ok (.property set (negated != flipped), after)
  | c :: rest =>
      .ok (.property (Unicode.named? (String.ofList [c])) negated, skipVerbose verbose rest)

def isEdgeNameChar (c : Char) : Bool := isAsciiLetter c || c == '-'

/-- Reads a name, with what is insignificant between its letters. -/
def readEdgeName (verbose : Bool) (text : List Char) : List Char × List Char :=
  match text with
  | [] => ([], [])
  | c :: rest =>
      if isEdgeNameChar c then
        let (name, after) := readEdgeName verbose (skipVerbose verbose rest)
        (c :: name, after)
      else ([], c :: rest)
termination_by text.length
decreasing_by
  have := length_skipVerbose_le verbose rest
  simp only [List.length_cons]
  omega

def wordEdge? (name : List Char) : Option WordEdge :=
  [("start", WordEdge.start), ("end", .finish), ("start-half", .startHalf),
    ("end-half", .finishHalf)].lookup (String.ofList name)

/-- The kind of word boundary behind `\b`: a name in braces, if there is one.
Braces that begin otherwise are left for a repetition. -/
def readWordEdge (verbose : Bool) (text : List Char) : Except Fault (Primitive × List Char) :=
  match text with
  | '\x7b' :: rest =>
      match skipVerbose verbose rest with
      | [] => .error .badEscape
      | c :: inside =>
          if !isEdgeNameChar c then .ok (.word .boundary, text)
          else
            let (name, after) := readEdgeName verbose (c :: inside)
            match after, wordEdge? name with
            | '\x7d' :: after, some edge => .ok (.word edge, after)
            | _, _ => .error .badEscape
  | _ => .ok (.word .boundary, text)

/-- The control characters that have a letter. -/
def controlLetter? (c : Char) : Option Char :=
  [('a', '\x07'), ('f', '\x0c'), ('t', '\t'), ('n', '\n'), ('r', '\r'), ('v', '\x0b')].lookup c

def letterClass? (c : Char) : Option (LetterClass × Bool) :=
  [('d', (LetterClass.digit, false)), ('D', (.digit, true)), ('s', (.space, false)),
    ('S', (.space, true)), ('w', (.word, false)), ('W', (.word, true))].lookup c

/-- Reads the escape behind a backslash. -/
def readEscape (verbose : Bool) (text : List Char) : Except Fault (Primitive × List Char) :=
  match text with
  | [] => .error .badEscape
  | c :: rest =>
      if c == 'x' then readCodePoint verbose 2 rest
      else if c == 'u' then readCodePoint verbose 4 rest
      else if c == 'U' then readCodePoint verbose 8 rest
      else if c == 'p' then readProperty verbose false rest
      else if c == 'P' then readProperty verbose true rest
      else if c == 'b' then readWordEdge verbose rest
      else if c == 'B' then .ok (.word .noBoundary, rest)
      else if c == 'A' then .ok (.textStart, rest)
      else if c == 'z' then .ok (.textEnd, rest)
      else if c == '<' then .ok (.word .start, rest)
      else if c == '>' then .ok (.word .finish, rest)
      else match letterClass? c, controlLetter? c with
        | some (cls, negated), _ => .ok (.letterClass cls negated, rest)
        | none, some control => .ok (.literal control false, rest)
        | none, none =>
            if isEscapable c then .ok (.literal c false, rest) else .error .badEscape

/-! No reader returns more text than it was given. -/

/-- A reading that leaves `bound` characters or fewer, if it succeeds. -/
def LeavesAtMost {α : Type} (bound : Nat) (reading : Except Fault (α × List Char)) : Prop :=
  ∀ found after, reading = .ok (found, after) → after.length ≤ bound

namespace LeavesAtMost

variable {α : Type} {bound : Nat} {reading reading' : Except Fault (α × List Char)}

theorem ok (found : α) {after : List Char} (hafter : after.length ≤ bound) :
    LeavesAtMost bound (.ok (found, after)) := by
  intro found' after' h
  cases h
  exact hafter

theorem error (fault : Fault) :
    LeavesAtMost bound (.error fault : Except Fault (α × List Char)) := nofun

theorem ite {condition : Prop} [Decidable condition] (hthen : LeavesAtMost bound reading)
    (helse : LeavesAtMost bound reading') :
    LeavesAtMost bound (if condition then reading else reading') := by
  split
  · exact hthen
  · exact helse

/-- What a reading found does not matter to what it leaves. -/
theorem map {β : Type} {x : Except Fault α} {f : α → β × List Char}
    (hmap : ∀ a, x = .ok a → (f a).2.length ≤ bound) : LeavesAtMost bound (x.map f) := by
  intro found after h
  cases x with
  | error fault => cases h
  | ok a =>
      have hafter : (f a).2 = after := congrArg Prod.snd (Except.ok.inj h)
      exact hafter ▸ hmap a rfl

end LeavesAtMost

theorem length_readHexDigits_le {verbose : Bool} {count : Nat} {text digits after : List Char}
    (h : readHexDigits verbose count text = .ok (digits, after)) : after.length ≤ text.length := by
  induction count generalizing text digits after with
  | zero => cases h; exact Nat.le_refl _
  | succ count ih =>
      cases text with
      | nil => cases h
      | cons c rest =>
          unfold readHexDigits at h
          split at h
          · cases h
          · cases hrest : readHexDigits verbose count (skipVerbose verbose rest) with
            | error fault => rw [hrest] at h; cases h
            | ok read =>
                rw [hrest] at h
                cases h
                have := ih hrest
                have := length_skipVerbose_le verbose rest
                simp only [List.length_cons]
                omega

theorem length_readBraced_le {verbose : Bool} {text inside after : List Char}
    (h : readBraced verbose text = .ok (inside, after)) : after.length ≤ text.length := by
  fun_induction readBraced verbose text generalizing inside after with
  | case1 => cases h
  | case2 text rest htext =>
      cases h
      have := length_skipVerbose_le verbose text
      rw [htext, List.length_cons] at this
      omega
  | case3 text c rest _ htext inside' after' hread ih =>
      cases h
      have := length_skipVerbose_le verbose text
      rw [htext, List.length_cons] at this
      have := ih hread
      omega
  | case4 => cases h

theorem length_readCodePoint_le {verbose : Bool} {count : Nat} {text after : List Char}
    {found : Primitive} (h : readCodePoint verbose count text = .ok (found, after)) :
    after.length ≤ text.length := by
  have hskip := length_skipVerbose_le verbose text
  have hdigits : ∀ {digits rest : List Char},
      readCodeDigits verbose count text = .ok (digits, rest) → rest.length ≤ text.length := by
    intro digits rest hread
    unfold readCodeDigits at hread
    split at hread
    · next inside hbrace =>
        rw [hbrace, List.length_cons] at hskip
        split at hread
        · cases hread
        · next digits after hbraced =>
            split at hread
            · cases hread
              have := length_readBraced_le hbraced
              have := length_skipVerbose_le verbose after
              omega
            · cases hread
    · have := length_readHexDigits_le hread
      omega
  unfold readCodePoint at h
  split at h
  · cases h
  · next hread =>
      dsimp only at h
      split at h
      · cases h
        exact hdigits hread
      · cases h

theorem length_readProperty_le {verbose negated : Bool} {text after : List Char}
    {found : Primitive} (h : readProperty verbose negated text = .ok (found, after)) :
    after.length ≤ text.length := by
  have hskip := length_skipVerbose_le verbose text
  unfold readProperty at h
  split at h
  · cases h
  · cases h
  · next rest hbrace =>
      rw [hbrace, List.length_cons] at hskip
      split at h
      · cases h
      · next hbraced =>
          cases h
          have := length_readBraced_le hbraced
          omega
  · next c rest _ _ hfirst =>
      rw [hfirst, List.length_cons] at hskip
      cases h
      have := length_skipVerbose_le verbose rest
      omega

theorem length_readEdgeName_le (verbose : Bool) (text : List Char) :
    (readEdgeName verbose text).2.length ≤ text.length := by
  fun_induction readEdgeName verbose text with
  | case1 => exact Nat.le_refl _
  | case2 c rest _ name after hread ih =>
      rw [hread] at ih
      dsimp only at ih
      have := length_skipVerbose_le verbose rest
      simp only [List.length_cons]
      omega
  | case3 => exact Nat.le_refl _

theorem length_readWordEdge_le {verbose : Bool} {text after : List Char} {found : Primitive}
    (h : readWordEdge verbose text = .ok (found, after)) : after.length ≤ text.length := by
  unfold readWordEdge at h
  split at h
  · next rest =>
      have hskip := length_skipVerbose_le verbose rest
      split at h
      · cases h
      · next c inside hinside =>
          split at h
          · cases h
            exact Nat.le_refl _
          · have hname := length_readEdgeName_le verbose (c :: inside)
            dsimp only at h
            split at h
            · next hafter _ =>
                cases h
                rw [hafter] at hname
                rw [hinside] at hskip
                simp only [List.length_cons] at hname hskip ⊢
                omega
            · cases h
  · cases h
    exact Nat.le_refl _

theorem leavesAtMost_readEscape (verbose : Bool) (c : Char) (rest : List Char) :
    LeavesAtMost rest.length (readEscape verbose (c :: rest)) := by
  have hrest : rest.length ≤ rest.length := Nat.le_refl _
  have hcode : ∀ count, LeavesAtMost rest.length (readCodePoint verbose count rest) :=
    fun _ _ _ => length_readCodePoint_le
  have hproperty : ∀ negated, LeavesAtMost rest.length (readProperty verbose negated rest) :=
    fun _ _ _ => length_readProperty_le
  have hedge : LeavesAtMost rest.length (readWordEdge verbose rest) :=
    fun _ _ => length_readWordEdge_le
  unfold readEscape
  refine .ite (hcode 2) <| .ite (hcode 4) <| .ite (hcode 8) <| .ite (hproperty false) <|
    .ite (hproperty true) <| .ite hedge <| .ite (.ok _ hrest) <| .ite (.ok _ hrest) <|
    .ite (.ok _ hrest) <| .ite (.ok _ hrest) <| .ite (.ok _ hrest) ?_
  -- What is left are letters of classes and controls, and characters that mean themselves.
  split
  · exact .ok _ hrest
  · exact .ok _ hrest
  · exact .ite (.ok _ hrest) (.error _)

theorem length_readEscape_le {verbose : Bool} {text after : List Char} {found : Primitive}
    (h : readEscape verbose text = .ok (found, after)) : after.length ≤ text.length := by
  cases text with
  | nil => cases h
  | cons c rest => exact Nat.le_succ_of_le (leavesAtMost_readEscape verbose c rest _ _ h)

end WorkflowAudit.Regex
