import WorkflowAudit.Regex.Class
import WorkflowAudit.Text.Pieces

/-!
# Reading an expression

An expression is read once from the left, with one frame for each open group.
Items of the alternative at hand are collected newest first, and a repetition
operator replaces the newest item.  A setting of flags is an item that cannot be
repeated; it lasts to the end of its group, across alternatives.
-/

namespace WorkflowAudit.Regex

open Text

/-- The greatest depth of groups, repetitions, alternatives, sequences and
classes within each other. -/
def maxDepth : Nat := 250

/-- The greatest bound that a repetition can state. -/
def maxRepeat : Nat := Nat.pow 2 32 - 1

structure Item where
  regex : Regex
  depth : Nat := 0
  /-- Whether a repetition operator can follow. -/
  repeatable : Bool := true
  deriving Repr, Inhabited

/-- What one group has collected: finished alternatives, and the items of the
alternative at hand, both newest first. -/
structure GroupBody where
  branches : List Item := []
  items : List Item := []
  deriving Repr, Inhabited

namespace GroupBody

def push (body : GroupBody) (item : Item) : GroupBody :=
  { body with items := item :: body.items }

/-- The alternative at hand as one item. -/
def branch (body : GroupBody) : Item :=
  let depth := (body.items.map Item.depth).foldl max 0
  let regex := match (body.items.filter Item.repeatable).map Item.regex with
    | [] => Regex.empty
    | [part] => part
    | parts => .sequence parts.reverse
  { regex, depth := if body.items.length < 2 then depth else depth + 1 }

def startBranch (body : GroupBody) : GroupBody :=
  { branches := body.branch :: body.branches }

/-- All alternatives as one item. -/
def close (body : GroupBody) : Item :=
  match body.branches with
  | [] => body.branch
  | branches =>
      let all := body.branch :: branches
      { regex := .choice (all.reverse.map Item.regex)
        depth := (all.map Item.depth).foldl max 0 + 1 }

end GroupBody

/-- An open group: what surrounds it, and the flags to return to. -/
structure OpenGroup where
  captures : Bool
  flags : Flags
  around : GroupBody
  deriving Repr

structure Reader where
  flags : Flags := {}
  body : GroupBody := {}
  /-- The open groups, innermost first. -/
  outer : List OpenGroup := []
  names : List (List Char) := []
  deriving Repr

/-- Digits, with what is insignificant between them. -/
def readDigits (verbose : Bool) (text : List Char) : List Char × List Char :=
  match text with
  | [] => ([], [])
  | c :: rest =>
      if isDecimalDigit c then
        let (digits, after) := readDigits verbose (skipVerbose verbose rest)
        (c :: digits, after)
      else ([], c :: rest)
termination_by text.length
decreasing_by
  have := length_skipVerbose_le verbose rest
  simp only [List.length_cons]
  omega

/-- Reads a bound among blanks; `none` where it is missing or too great. -/
def readBound (verbose : Bool) (text : List Char) : Option Nat × List Char :=
  let (digits, after) := readDigits verbose (text.dropWhile isBlank)
  let bound := (natOfDigits? 10 digits).filter (· ≤ maxRepeat)
  (bound, skipVerbose verbose (after.dropWhile isBlank))

/-- The bounds of a counted repetition: a number, a lower bound with a comma, or
two bounds in order. -/
def readBounds (verbose : Bool) (text : List Char) :
    Except Fault ((Nat × Option Nat) × List Char) :=
  match readBound verbose (skipVerbose verbose text) with
  | (some least, '\x7d' :: after) => .ok ((least, some least), after)
  | (some least, ',' :: rest) =>
      match skipVerbose verbose rest with
      | '\x7d' :: after => .ok ((least, none), after)
      | rest =>
          match readBound verbose rest with
          | (some most, '\x7d' :: after) =>
              if least ≤ most then .ok ((least, some most), after) else .error .badRepetition
          | _ => .error .badRepetition
  | _ => .error .badRepetition

/-- A question mark behind a repetition makes it lazy. -/
def readLazy (text : List Char) : Bool × List Char :=
  match text with
  | '?' :: rest => (true, rest)
  | text => (false, text)

def isNameStart (c : Char) : Bool := c == '_' || Unicode.alphabetic.contains c

def isNameChar (c : Char) : Bool :=
  c == '_' || c == '.' || c == '[' || c == ']' || Unicode.alphanumeric.contains c

def isGroupName : List Char → Bool
  | [] => false
  | c :: rest => isNameStart c && rest.all isNameChar

/-- What opens a group: captures or none, perhaps under a name, or flags for the
group or for the rest of the one around it. -/
inductive Opening where
  | capture
  | named (name : List Char)
  | flagged (flags : List Char)
  | setting (flags : List Char)
  | lookAround
  deriving Repr

/-- Reads a name up to its closing angle. -/
def readName (text : List Char) : Except Fault (Opening × List Char) :=
  match splitFirst? '>' text with
  | some (name, rest) => if isGroupName name then .ok (.named name, rest) else .error .badGroupName
  | none => .error .badGroupName

/-- Reads flags up to a colon or to the end of their group. -/
def readFlags (text : List Char) : Except Fault (Opening × List Char) :=
  let flags := text.takeWhile fun c => c != ':' && c != ')'
  match text.drop flags.length with
  | [] => .error .badFlags
  | last :: rest => .ok (if last == ':' then .flagged flags else .setting flags, rest)

/-- Reads what stands between a parenthesis and the body of its group. -/
def readOpening (verbose : Bool) (text : List Char) : Except Fault (Opening × List Char) :=
  match skipVerbose verbose text with
  | '?' :: '=' :: rest => .ok (.lookAround, rest)
  | '?' :: '!' :: rest => .ok (.lookAround, rest)
  | '?' :: '<' :: '=' :: rest => .ok (.lookAround, rest)
  | '?' :: '<' :: '!' :: rest => .ok (.lookAround, rest)
  | '?' :: '<' :: rest => readName rest
  | '?' :: 'P' :: '<' :: rest => readName rest
  | '?' :: rest => readFlags rest
  | rest => .ok (.capture, rest)

/-- What an escape stands for outside classes. -/
def Primitive.regex (flags : Flags) : Primitive → Except Fault Regex
  | .literal c byte =>
      if byte && !flags.unicode && 0x80 ≤ c.toNat then .error .needsUnicode
      else .ok (flags.literal c)
  | .letterClass cls negated => (cls.set flags negated).map (.chars · flags.unicode)
  | .property set negated => (Primitive.members flags (.property set negated)).map (.chars · true)
  | .textStart => .ok (.assertion .textStart)
  | .textEnd => .ok (.assertion .textEnd)
  | .word edge => .ok (.assertion (.word edge flags.unicode))

namespace Reader

def push (s : Reader) (item : Item) : Reader := { s with body := s.body.push item }

/-- Opens a group within the flags of the one around it. -/
def openGroup (s : Reader) (captures : Bool) (flags : Flags) : Reader :=
  { s with flags, body := {}, outer := ⟨captures, s.flags, s.body⟩ :: s.outer }

def applyOpening (s : Reader) : Opening → Except Fault Reader
  | .capture => .ok (s.openGroup true s.flags)
  | .named name =>
      if s.names.contains name then .error .repeatedGroupName
      else .ok { s.openGroup true s.flags with names := name :: s.names }
  | .flagged flags => (s.flags.apply true [] flags).map (s.openGroup false)
  | .setting flags =>
      if flags.isEmpty then .error .missingOperand
      else (s.flags.apply true [] flags).map fun inner =>
        { s.push { regex := .empty, repeatable := false } with flags := inner }
  | .lookAround => .error .lookAround

def closeGroup (s : Reader) : Except Fault Reader :=
  match s.outer with
  | [] => .error .unopenedGroup
  | opened :: outer =>
      let inner := s.body.close
      let item := { regex := .group opened.captures inner.regex, depth := inner.depth + 1 }
      .ok { s with flags := opened.flags, body := opened.around.push item, outer }

/-- Repeats the newest item. -/
def repeatLast (s : Reader) (least : Nat) (most : Option Nat) (isLazy : Bool) :
    Except Fault Reader :=
  match s.body.items with
  | [] => .error .missingOperand
  | item :: items =>
      if !item.repeatable then .error .missingOperand
      else
        let regex := .repeated least most (isLazy == s.flags.swapGreed) item.regex
        .ok { s with body := { s.body with items := { regex, depth := item.depth + 1 } :: items } }

/-- A repetition that its operator states without numbers. -/
def repeatPlain (s : Reader) (least : Nat) (most : Option Nat) (rest : List Char) :
    Except Fault (Reader × List Char) :=
  let (isLazy, after) := readLazy rest
  (s.repeatLast least most isLazy).map (·, after)

def repeatCounted (s : Reader) (rest : List Char) : Except Fault (Reader × List Char) :=
  match readBounds s.flags.verbose rest with
  | .error fault => .error fault
  | .ok ((least, most), after) =>
      let (isLazy, after) := readLazy (skipVerbose s.flags.verbose after)
      (s.repeatLast least most isLazy).map (·, after)

/-- Reads one item, operator or parenthesis, which starts with `c`. -/
def step (s : Reader) (c : Char) (rest : List Char) : Except Fault (Reader × List Char) :=
  let plain := fun (regex : Regex) => (s.push { regex }, rest)
  if c == '(' then
    match readOpening s.flags.verbose rest with
    | .error fault => .error fault
    | .ok (opening, after) => (s.applyOpening opening).map (·, after)
  else if c == ')' then s.closeGroup.map (·, rest)
  else if c == '|' then .ok ({ s with body := s.body.startBranch }, rest)
  else if c == '[' then
    (readClass s.flags rest).map fun (value, after) =>
      (s.push { regex := .chars value.set s.flags.unicode, depth := value.depth }, after)
  else if c == '?' then s.repeatPlain 0 (some 1) rest
  else if c == '*' then s.repeatPlain 0 none rest
  else if c == '+' then s.repeatPlain 1 none rest
  else if c == '\x7b' then s.repeatCounted rest
  else if c == '\\' then
    match readEscape s.flags.verbose rest with
    | .error fault => .error fault
    | .ok (primitive, after) =>
        (primitive.regex s.flags).map fun regex => (s.push { regex }, after)
  else if c == '.' then s.flags.dot.map plain
  else if c == '^' then .ok (plain (.assertion s.flags.lineStart))
  else if c == '$' then .ok (plain (.assertion s.flags.lineEnd))
  else .ok (plain (s.flags.literal c))

end Reader

/-! Every step consumes its first character. -/

theorem length_dropWhile_le {α : Type} (p : α → Bool) (text : List α) :
    (text.dropWhile p).length ≤ text.length :=
  (List.dropWhile_suffix p).length_le

theorem length_readDigits_le (verbose : Bool) (text : List Char) :
    (readDigits verbose text).2.length ≤ text.length := by
  fun_induction readDigits verbose text with
  | case1 => exact Nat.le_refl _
  | case2 c rest _ digits after hread ih =>
      rw [hread] at ih
      dsimp only at ih
      have := length_skipVerbose_le verbose rest
      simp only [List.length_cons]
      omega
  | case3 => exact Nat.le_refl _

theorem length_readBound_le (verbose : Bool) (text : List Char) :
    (readBound verbose text).2.length ≤ text.length := by
  unfold readBound
  dsimp only
  have hdigits := length_readDigits_le verbose (text.dropWhile isBlank)
  have hblank := length_dropWhile_le isBlank text
  have hafter := length_dropWhile_le isBlank
    (readDigits verbose (text.dropWhile isBlank)).2
  have := length_skipVerbose_le verbose
    ((readDigits verbose (text.dropWhile isBlank)).2.dropWhile isBlank)
  omega

theorem length_readBounds_le {verbose : Bool} {text after : List Char}
    {bounds : Nat × Option Nat} (h : readBounds verbose text = .ok (bounds, after)) :
    after.length ≤ text.length := by
  unfold readBounds at h
  have hskip := length_skipVerbose_le verbose text
  have hfirst := length_readBound_le verbose (skipVerbose verbose text)
  split at h
  · next heq =>
      cases h
      rw [heq, List.length_cons] at hfirst
      omega
  · next rest heq =>
      have hrest := length_skipVerbose_le verbose rest
      rw [heq, List.length_cons] at hfirst
      split at h
      · next hclose =>
          cases h
          rw [hclose, List.length_cons] at hrest
          omega
      · next second _ =>
          have hsecond := length_readBound_le verbose (skipVerbose verbose rest)
          split at h
          · next heq =>
              split at h
              · cases h
                rw [heq, List.length_cons] at hsecond
                omega
              · cases h
          · cases h
  · cases h

theorem length_readLazy_le (text : List Char) : (readLazy text).2.length ≤ text.length := by
  unfold readLazy
  split
  · exact Nat.le_succ _
  · exact Nat.le_refl _

theorem length_of_splitFirst? {separator : Char} {text before after : List Char}
    (h : splitFirst? separator text = some (before, after)) : after.length ≤ text.length := by
  induction text generalizing before with
  | nil => cases h
  | cons c rest ih =>
      unfold splitFirst? at h
      split at h
      · cases h
        exact Nat.le_succ _
      · obtain ⟨⟨_, _⟩, hrest, heq⟩ := Option.map_eq_some_iff.1 h
        cases heq
        exact Nat.le_trans (ih hrest) (Nat.le_succ _)

theorem length_readName_le {text after : List Char} {opening : Opening}
    (h : readName text = .ok (opening, after)) : after.length ≤ text.length := by
  unfold readName at h
  split at h
  · next hsplit =>
      split at h
      · cases h
        exact length_of_splitFirst? hsplit
      · cases h
  · cases h

theorem length_readFlags_le {text after : List Char} {opening : Opening}
    (h : readFlags text = .ok (opening, after)) : after.length ≤ text.length := by
  unfold readFlags at h
  dsimp only at h
  split at h
  · cases h
  · next hdrop =>
      cases h
      have := congrArg List.length hdrop
      simp only [List.length_drop, List.length_cons] at this
      omega

theorem length_readOpening_le {verbose : Bool} {text after : List Char} {opening : Opening}
    (h : readOpening verbose text = .ok (opening, after)) : after.length ≤ text.length := by
  have hskip := length_skipVerbose_le verbose text
  unfold readOpening at h
  split at h
  case h_5 heq =>
    rw [heq] at hskip
    have := length_readName_le h
    simp only [List.length_cons] at hskip
    omega
  case h_6 heq =>
    rw [heq] at hskip
    have := length_readName_le h
    simp only [List.length_cons] at hskip
    omega
  case h_7 heq =>
    rw [heq] at hskip
    have := length_readFlags_le h
    simp only [List.length_cons] at hskip
    omega
  case h_8 =>
    cases h
    exact hskip
  all_goals
    next heq =>
      cases h
      rw [heq] at hskip
      simp only [List.length_cons] at hskip
      omega

theorem length_repeatPlain_le {s next : Reader} {least : Nat} {most : Option Nat}
    {rest after : List Char} (h : s.repeatPlain least most rest = .ok (next, after)) :
    after.length ≤ rest.length := by
  obtain ⟨_, _, heq⟩ := map_eq_ok h
  cases heq
  exact length_readLazy_le rest

theorem length_repeatCounted_le {s next : Reader} {rest after : List Char}
    (h : s.repeatCounted rest = .ok (next, after)) : after.length ≤ rest.length := by
  unfold Reader.repeatCounted at h
  split at h
  · cases h
  · next bounded hbounds =>
      obtain ⟨_, _, heq⟩ := map_eq_ok h
      cases heq
      exact Nat.le_trans (length_readLazy_le _)
        (Nat.le_trans (length_skipVerbose_le s.flags.verbose bounded)
          (length_readBounds_le hbounds))

theorem leavesAtMost_opening (s : Reader) (rest : List Char) :
    LeavesAtMost rest.length (match readOpening s.flags.verbose rest with
      | .error fault => .error fault
      | .ok (opening, after) => (s.applyOpening opening).map (·, after)) := by
  split
  · exact .error _
  · next hopening => exact .map fun _ _ => length_readOpening_le hopening

theorem leavesAtMost_escape (s : Reader) (rest : List Char) :
    LeavesAtMost rest.length (match readEscape s.flags.verbose rest with
      | .error fault => .error fault
      | .ok (primitive, after) =>
          (primitive.regex s.flags).map fun regex => (s.push { regex }, after)) := by
  split
  · exact .error _
  · next hescape => exact .map fun _ _ => length_readEscape_le hescape

theorem length_readerStep_le {s next : Reader} {c : Char} {rest after : List Char}
    (h : s.step c rest = .ok (next, after)) : after.length ≤ rest.length := by
  have hrest : rest.length ≤ rest.length := Nat.le_refl _
  have hstep : LeavesAtMost rest.length (s.step c rest) := by
    have hplain : ∀ least most, LeavesAtMost rest.length (s.repeatPlain least most rest) :=
      fun _ _ _ _ => length_repeatPlain_le
    have hcounted : LeavesAtMost rest.length (s.repeatCounted rest) :=
      fun _ _ => length_repeatCounted_le
    unfold Reader.step
    exact .ite (leavesAtMost_opening s rest) <| .ite (.map fun _ _ => hrest) <|
      .ite (.ok _ hrest) <| .ite (.map fun _ hclass => length_readClass_le hclass) <|
      .ite (hplain 0 (some 1)) <| .ite (hplain 0 none) <| .ite (hplain 1 none) <|
      .ite hcounted <| .ite (leavesAtMost_escape s rest) <|
      .ite (.map fun _ _ => hrest) <| .ite (.ok _ hrest) <| .ite (.ok _ hrest) (.ok _ hrest)
  exact hstep next after h

namespace Reader

/-- Reads on to the end of the text. -/
def run (s : Reader) (text : List Char) : Except Fault Reader :=
  match _htext : skipVerbose s.flags.verbose text with
  | [] => .ok s
  | c :: rest =>
      match _hstep : s.step c rest with
      | .error fault => .error fault
      | .ok (next, after) => next.run after
termination_by text.length
decreasing_by
  have hskip := length_skipVerbose_le s.flags.verbose text
  have hstep := length_readerStep_le _hstep
  rw [_htext, List.length_cons] at hskip
  omega

end Reader

/-- Reads a whole expression. -/
def parse (text : String) : Except Fault Regex := do
  let s ← Reader.run {} text.toList
  if !s.outer.isEmpty then throw .unclosedGroup
  let item := s.body.close
  if item.depth ≤ maxDepth then return item.regex else throw .tooDeep

end WorkflowAudit.Regex
