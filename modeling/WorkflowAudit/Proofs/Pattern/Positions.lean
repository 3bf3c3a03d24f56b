import WorkflowAudit.Pattern.Screen
import WorkflowAudit.Proofs.Text.Pieces

/-!
# The screen on positions

The screen can also be run on positions in the pattern, with a stack of frames: each turn
of its loop takes characters and slices by their positions and says where the next turn
begins.  Whatever lies outside of the pattern ends such a run at once.  It never comes to
that: a turn that raises no objection ends further on and not behind the pattern, so that
there are no more turns than characters, and the verdict is the verdict of the screen.
-/

namespace WorkflowAudit.Pattern

open Text

namespace Positional

/-- Why a turn has no next one. -/
inductive Stop where
  /-- A character or a slice was asked for that the pattern does not have. -/
  | outside
  | objection (objection : Objection)
  deriving DecidableEq, Repr

def malformed (fault : Malformation) : Stop := .objection (.malformed fault)

/-! ## Access to the pattern -/

def charAt (text : List Char) (i : Nat) : Except Stop Char :=
  match text[i]? with
  | some c => .ok c
  | none => .error .outside

/-- The characters from `i` up to `j`. -/
def slice (text : List Char) (i j : Nat) : Except Stop (List Char) :=
  if i ≤ j ∧ j ≤ text.length then .ok ((text.take j).drop i) else .error .outside

/-- The position in front of another one. -/
def previous : Nat → Except Stop Nat
  | 0 => .error .outside
  | i + 1 => .ok i

/-- The position of the first `c` that does not stand in front of `i`. -/
def findFrom (text : List Char) (i : Nat) (c : Char) : Except Stop (Option Nat) := do
  let tail ← slice text i text.length
  return (tail.findIdx? (· == c)).map (i + ·)

/-! ## Where a lexeme ends -/

def escapeEnd (text : List Char) (i : Nat) : Except Stop Nat :=
  match text[i + 1]? with
  | none => .error (malformed .trailingBackslash)
  | some kind =>
      if ['p', 'P', 'x', 'u', 'U'].contains kind && text[i + 2]? == some '\x7b' then do
        match ← findFrom text (i + 2) '\x7d' with
        | some close => return close + 1
        | none => throw (malformed .unterminatedEscape)
      else
        let width :=
          if kind = 'x' then 4 else if kind = 'u' then 6 else if kind = 'U' then 10 else 2
        .ok (min (i + width) text.length)

/-- Counts the open brackets of a class from position `j` on. -/
def classLoop (text : List Char) (depth j : Nat) : Except Stop Nat :=
  if j < text.length then
    match charAt text j with
    | .error stop => .error stop
    | .ok c =>
        if c = '\\' then classLoop text depth (j + 2)
        else if c = '[' then classLoop text (depth + 1) (j + 1)
        else if c = ']' then
          if depth - 1 = 0 then .ok (j + 1) else classLoop text (depth - 1) (j + 1)
        else classLoop text depth (j + 1)
  else .error (malformed .unterminatedClass)
termination_by text.length - j

/-- The position behind `c`, if it stands at `j`. -/
def skipAt (text : List Char) (j : Nat) (c : Char) : Nat := if text[j]? = some c then j + 1 else j

def classEnd (text : List Char) (i : Nat) : Except Stop Nat :=
  classLoop text 1 (skipAt text (skipAt text (i + 1) '^') ']')

def flagLoop (text : List Char) (j : Nat) : Option Nat :=
  if j < text.length then
    match text[j]? with
    | none => none
    | some c =>
        if c = ')' then some (j + 1)
        else if isAsciiLetter c || c == '-' then flagLoop text (j + 1)
        else none
  else none
termination_by text.length - j

/-- The end of a group that only sets flags. -/
def flagGroupEnd (text : List Char) (i : Nat) : Option Nat :=
  if text[i + 1]? = some '?' then flagLoop text (i + 2) else none

/-- Where the body of a group begins. -/
def bodyStart (text : List Char) (i : Nat) : Except Stop Nat :=
  if text[i + 1]? = some '?' then do
    let named := text[i + 2]? == some '<' || (text[i + 2]? == some 'P' && text[i + 3]? == some '<')
    match ← findFrom text (i + 2) (if named then '>' else ':') with
    | some close => return close + 1
    | none => throw (malformed .malformedGroup)
  else .ok (i + 1)

/-- The flags for the body of a group that begins at `body`. -/
def bodyFlags (text : List Char) (i body : Nat) : Except Stop (List Char) :=
  if text[i + 1]? = some '?' then do
    let last ← previous body
    let c ← charAt text last
    if c = ':' then slice text (i + 2) last else return []
  else .ok []

/-- The upper bound of a repetition operator, with the end of the operator itself. -/
def operatorAt (text : List Char) (i : Nat) : Except Stop (Option (Option Nat × Nat)) := do
  let c ← charAt text i
  if c = '*' || c = '+' then return some (none, i + 1)
  else if c = '?' then return some (some 1, i + 1)
  else if c = '\x7b' then
    match ← findFrom text i '\x7d' with
    | none => return none
    | some close =>
        let body ← slice text (i + 1) close
        return (Quantifier.braceBound? body).map (·, close + 1)
  else return none

/-- Counts a lazy or possessive mark to the operator in front of it. -/
def withMark (text : List Char) : Option Nat × Nat → Option Nat × Nat
  | (max, stop) =>
      if text[stop]? == some '?' || text[stop]? == some '+' then (max, stop + 1) else (max, stop)

/-- The upper bound of a repetition, with its end. -/
def quantifierAt (text : List Char) (i : Nat) : Except Stop (Option (Option Nat × Nat)) := do
  return (← operatorAt text i).map (withMark text)

/-! ## One turn and the whole run -/

/-- What the loop knows at the beginning of a turn; the innermost frame stands first. -/
structure Cursor where
  stack : List Frame := [{}]
  lastGroup : Option GroupBody := none
  position : Nat := 0
  deriving DecidableEq, Repr

/-- Changes the innermost frame, if there is one. -/
def changeInnermost (change : Frame → Frame) : List Frame → List Frame
  | [] => []
  | frame :: outer => change frame :: outer

def pushText (text : List Char) (frame : Frame) : Frame :=
  { frame with current := frame.current ++ text }

/-- Adds the text up to `stop` to the innermost frame and goes there. -/
def Cursor.pushUpTo (cursor : Cursor) (text : List Char) (stop : Nat) : Except Stop Cursor := do
  let lexeme ← slice text cursor.position stop
  return { stack := changeInnermost (pushText lexeme) cursor.stack, position := stop }

def openGroup (text : List Char) (cursor : Cursor) (verbose : Bool) : Except Stop Cursor :=
  match flagGroupEnd text cursor.position with
  | some stop => do
      let flags ← slice text (cursor.position + 2) (← previous stop)
      let setFlags := fun frame : Frame => { frame with verbose := verboseAfter flags verbose }
      return { stack := changeInnermost setFlags cursor.stack, position := stop }
  | none => do
      let body ← bodyStart text cursor.position
      let flags ← bodyFlags text cursor.position body
      let frame : Frame := { verbose := verboseAfter flags verbose }
      return { stack := frame :: cursor.stack, position := body }

def closeGroup (cursor : Cursor) : Except Stop Cursor :=
  if cursor.stack.length = 1 then .error (malformed .unbalancedClose)
  else
    let frame := cursor.stack.headD {}
    let branches := frame.branches ++ [frame.current]
    let text := '(' :: joinWith ['|'] branches ++ [')']
    let addGroup := fun parent : Frame =>
      { parent with
        current := parent.current ++ text
        unbounded := parent.unbounded || frame.unbounded }
    .ok {
      stack := changeInnermost addGroup cursor.stack.tail
      lastGroup := some ⟨frame.unbounded, overlapping branches⟩
      position := cursor.position + 1 }

def startBranch (cursor : Cursor) : Cursor :=
  let finish := fun frame : Frame =>
    { frame with branches := frame.branches ++ [frame.current], current := [] }
  { stack := changeInnermost finish cursor.stack, position := cursor.position + 1 }

def repeatLast (text : List Char) (cursor : Cursor) : Except Stop Cursor := do
  match ← quantifierAt text cursor.position with
  | none => cursor.pushUpTo text (cursor.position + 1)
  | some (max, stop) =>
      match ({ lastGroup := cursor.lastGroup } : ScreenState).hazard? ⟨max, 0⟩ with
      | some hazard => throw (.objection (.hazard hazard))
      | none =>
          let note := fun frame : Frame => { frame with unbounded := frame.unbounded || max.isNone }
          { cursor with stack := changeInnermost note cursor.stack }.pushUpTo text stop

/-- Goes behind a comment, which ends with its line. -/
def skipComment (text : List Char) (cursor : Cursor) : Except Stop Cursor := do
  match ← findFrom text cursor.position '\n' with
  | some lineEnd => return { cursor with position := lineEnd + 1 }
  | none => return { cursor with position := text.length }

/-- One turn of the loop. -/
def advance (text : List Char) (cursor : Cursor) : Except Stop Cursor := do
  let c ← charAt text cursor.position
  let verbose := (cursor.stack.head?.map Frame.verbose).getD false
  if verbose && isBlank c then return { cursor with position := cursor.position + 1 }
  else if verbose && c == '#' then skipComment text cursor
  else if c = '\\' then cursor.pushUpTo text (← escapeEnd text cursor.position)
  else if c = '[' then cursor.pushUpTo text (← classEnd text cursor.position)
  else if c = '(' then openGroup text cursor verbose
  else if c = ')' then closeGroup cursor
  else if c = '|' then return startBranch cursor
  else if c = '*' || c = '+' || c = '?' || c = '\x7b' then repeatLast text cursor
  else cursor.pushUpTo text (cursor.position + 1)

/-- What the end of the pattern has to find: every group closed. -/
def finish (cursor : Cursor) : Except Stop Unit :=
  if cursor.stack.length = 1 then .ok () else .error (malformed .unclosedGroup)

/-- At most so many turns; `none` if there is still something to read behind them. -/
def run (text : List Char) : Nat → Cursor → Option (Except Stop Unit)
  | turns, cursor =>
      if cursor.position < text.length then
        match turns with
        | 0 => none
        | turns + 1 =>
            match advance text cursor with
            | .error stop => some (.error stop)
            | .ok next => run text turns next
      else some (finish cursor)

/-- The screening of a pattern, with at most so many turns; `none` if these do not suffice
or something outside of the pattern is asked for. -/
def check (pattern : String) (turns : Nat) : Option (Except PatternError Unit) :=
  if pattern.utf8ByteSize > maxLength then some (.error (.tooLong pattern.utf8ByteSize))
  else match run pattern.toList turns {} with
    | none => none
    | some (.error .outside) => none
    | some (.error (.objection (.hazard hazard))) => some (.error (.hazardous pattern hazard))
    | some (.error (.objection (.malformed fault))) => some (.error (.malformed pattern fault))
    | some (.ok ()) => some (.ok ())

/-- The loop comes to a turn that begins here. -/
inductive Reaches (text : List Char) : Cursor → Prop
  | start : Reaches text {}
  | step {cursor next : Cursor} (hreached : Reaches text cursor)
      (hinside : cursor.position < text.length) (hnext : advance text cursor = .ok next) :
      Reaches text next

/-! ## Access at a position -/

section

variable {text rest : List Char} {c : Char} {i : Nat}

theorem next_of_drop_eq_cons (hdrop : text.drop i = c :: rest) : text.drop (i + 1) = rest := by
  rw [← List.drop_drop, hdrop]
  rfl

theorem length_of_drop_eq_cons (hdrop : text.drop i = c :: rest) :
    text.length = i + 1 + rest.length := by
  have hlength := congrArg List.length hdrop
  rw [List.length_drop, List.length_cons] at hlength
  omega

theorem getElem?_of_drop_eq_cons (hdrop : text.drop i = c :: rest) (k : Nat) :
    text[i + k]? = (c :: rest)[k]? := by
  rw [← hdrop, List.getElem?_drop]

theorem charAt_of_drop_eq_cons (hdrop : text.drop i = c :: rest) : charAt text i = .ok c := by
  have hc := getElem?_of_drop_eq_cons hdrop 0
  rw [Nat.add_zero] at hc
  rw [charAt, hc]
  rfl

theorem slice_of_drop_eq_cons (hdrop : text.drop i = c :: rest) {m n : Nat} (hmn : m ≤ n)
    (hn : n ≤ rest.length + 1) :
    slice text (i + m) (i + n) = .ok (((c :: rest).take n).drop m) := by
  have hlength := length_of_drop_eq_cons hdrop
  rw [slice, if_pos (by omega), List.drop_take, List.drop_take, ← hdrop, List.drop_drop,
    Nat.add_sub_add_left]

theorem findIdx?_eq_splitFirst? (c : Char) (tail : List Char) :
    tail.findIdx? (· == c) = (splitFirst? c tail).map fun parts => parts.1.length := by
  induction tail with
  | nil => rfl
  | cons d tail ih =>
      by_cases hd : d = c
      · simp [splitFirst?, List.findIdx?_cons, hd]
      · simp [splitFirst?, List.findIdx?_cons, hd, ih, Function.comp_def]

theorem findFrom_of_drop_eq_cons (hdrop : text.drop i = c :: rest) {m : Nat}
    (hm : m ≤ rest.length + 1) (d : Char) :
    findFrom text (i + m) d =
      .ok ((splitFirst? d ((c :: rest).drop m)).map fun parts => i + m + parts.1.length) := by
  have hslice := slice_of_drop_eq_cons hdrop hm le_rfl
  have hlength : text.length = i + (rest.length + 1) := by
    rw [length_of_drop_eq_cons hdrop, Nat.add_assoc, Nat.add_comm 1]
  rw [List.take_of_length_le (List.length_cons ▸ le_rfl)] at hslice
  rw [findFrom, hlength, hslice]
  simp only [bind, Except.bind, pure, Except.pure, findIdx?_eq_splitFirst?, Option.map_map,
    Function.comp_def]

end

/-! ## The ends of lexemes -/

/-- The end of a lexeme that has its first character at `i`, by its extent. -/
def lexemeEnd (i : Nat) (rest : List Char) (extent : Except Malformation Nat) : Except Stop Nat :=
  match extent with
  | .ok extra => .ok (i + 1 + min extra rest.length)
  | .error fault => .error (malformed fault)

section

variable {text rest : List Char} {c : Char} {i : Nat}

theorem escapeExtent_of_unbraced {kind : Char}
    (hunbraced : ¬(['p', 'P', 'x', 'u', 'U'].contains kind && rest[0]? == some '\x7b') = true) :
    escapeExtent (kind :: rest) =
      .ok (if kind = 'x' then 3 else if kind = 'u' then 5 else if kind = 'U' then 9 else 1) := by
  unfold escapeExtent
  dsimp only
  split
  · next body hkind => exact absurd (by rw [hkind]; rfl) hunbraced
  · rfl

theorem escapeEnd_of_drop_eq_cons (hdrop : text.drop i = c :: rest) :
    escapeEnd text i = lexemeEnd i rest (escapeExtent rest) := by
  have hlength := length_of_drop_eq_cons hdrop
  rw [escapeEnd, getElem?_of_drop_eq_cons hdrop, List.getElem?_cons_succ]
  cases rest with
  | nil => rfl
  | cons kind rest =>
      rw [getElem?_of_drop_eq_cons hdrop]
      simp only [List.getElem?_cons_succ, List.getElem?_cons_zero]
      by_cases hbraced : ['p', 'P', 'x', 'u', 'U'].contains kind && rest[0]? == some '\x7b'
      · obtain ⟨hkind, hbrace⟩ := Bool.and_eq_true_iff.1 hbraced
        obtain ⟨body, rfl⟩ : ∃ body, rest = '\x7b' :: body := by
          cases rest with
          | nil => cases hbrace
          | cons d body => exact ⟨body, by simpa using hbrace⟩
        rw [if_pos hbraced, findFrom_of_drop_eq_cons hdrop (by simp)]
        simp only [escapeExtent, hkind]
        cases hsplit : splitFirst? '\x7d' body with
        | none => simp [splitFirst?, hsplit, bind, Except.bind, throw, throwThe,
            MonadExceptOf.throw, lexemeEnd]
        | some parts =>
            obtain ⟨name, after⟩ := parts
            obtain ⟨-, rfl⟩ := splitFirst?_eq_some_iff.1 hsplit
            simp [splitFirst?, hsplit, bind, Except.bind, pure, Except.pure, lexemeEnd]
            omega
      · rw [if_neg hbraced, escapeExtent_of_unbraced hbraced, lexemeEnd]
        simp only [hlength, List.length_cons]
        congr 1
        split_ifs <;> omega

/-- What is found from `i` on, by what a reading of the rest of the text has found. -/
def FoundFrom (text : List Char) (i : Nat) (reading : Except Malformation Nat)
    (found : Except Stop Nat) : Prop :=
  match reading with
  | .ok extent => i + extent ≤ text.length ∧ found = .ok (i + extent)
  | .error fault => found = .error (malformed fault)

theorem FoundFrom.add {n : Nat} {reading : Except Malformation Nat} {found : Except Stop Nat}
    (hfound : FoundFrom text (i + n) reading found) :
    FoundFrom text i (reading.map (· + n)) found := by
  cases reading with
  | error fault => exact hfound
  | ok extent =>
      obtain ⟨hinside, heq⟩ := hfound
      have hsum : i + n + extent = i + (extent + n) := by omega
      rw [hsum] at hinside heq
      exact ⟨hinside, heq⟩

theorem FoundFrom.lexemeEnd_eq {reading : Except Malformation Nat} {found : Except Stop Nat}
    (hdrop : text.drop i = c :: rest) (hfound : FoundFrom text (i + 1) reading found) :
    found = lexemeEnd i rest reading := by
  cases reading with
  | error fault => exact hfound
  | ok extent =>
      obtain ⟨hinside, heq⟩ := hfound
      rw [length_of_drop_eq_cons hdrop] at hinside
      rw [heq, lexemeEnd, Nat.min_eq_left (by omega)]

theorem classLoop_of_drop_eq_nil (depth : Nat) (hdrop : text.drop i = []) :
    classLoop text depth i = .error (malformed .unterminatedClass) := by
  rw [classLoop, if_neg (Nat.not_lt.2 (List.drop_eq_nil_iff.1 hdrop))]

theorem classLoop_of_drop_eq_cons (depth : Nat) (hdrop : text.drop i = c :: rest) :
    classLoop text depth i =
      if c = '\\' then classLoop text depth (i + 2)
      else if c = '[' then classLoop text (depth + 1) (i + 1)
      else if c = ']' then
        if depth - 1 = 0 then .ok (i + 1) else classLoop text (depth - 1) (i + 1)
      else classLoop text depth (i + 1) := by
  have hlength := length_of_drop_eq_cons hdrop
  rw [classLoop, if_pos (by omega), charAt_of_drop_eq_cons hdrop]

theorem foundFrom_classLoop {tail : List Char} {depth : Nat} (hdrop : text.drop i = tail) :
    FoundFrom text i (classTail depth tail) (classLoop text depth i) := by
  -- A backslash takes two characters, and the second one need not be there (`case2`).
  fun_induction classTail depth tail generalizing i with
  | case1 depth => exact classLoop_of_drop_eq_nil depth hdrop
  | case2 depth =>
      rw [classLoop_of_drop_eq_cons depth hdrop, if_pos rfl]
      refine classLoop_of_drop_eq_nil depth ?_
      rw [← List.drop_drop (i := 1), next_of_drop_eq_cons hdrop, List.drop_nil]
  | case3 depth c rest ih =>
      rw [classLoop_of_drop_eq_cons depth hdrop, if_pos rfl]
      refine FoundFrom.add (ih ?_)
      rw [← List.drop_drop (i := 1), next_of_drop_eq_cons hdrop, List.drop_succ_cons,
        List.drop_zero]
  | case4 depth rest ih =>
      rw [classLoop_of_drop_eq_cons depth hdrop, if_neg (by decide), if_pos rfl]
      exact FoundFrom.add (ih (next_of_drop_eq_cons hdrop))
  | case5 depth rest hdepth =>
      have hlength := length_of_drop_eq_cons hdrop
      rw [classLoop_of_drop_eq_cons depth hdrop, if_neg (by decide), if_neg (by decide),
        if_pos rfl, if_pos (by omega)]
      exact ⟨by omega, rfl⟩
  | case6 depth rest hdepth ih =>
      rw [classLoop_of_drop_eq_cons depth hdrop, if_neg (by decide), if_neg (by decide),
        if_pos rfl, if_neg (by omega)]
      exact FoundFrom.add (ih (next_of_drop_eq_cons hdrop))
  | case7 depth c rest hlast hescape hopen hclose ih =>
      have hbackslash : c ≠ '\\' := by
        rintro rfl
        cases rest with
        | nil => exact hlast rfl rfl
        | cons d rest => exact hescape d rest rfl rfl
      rw [classLoop_of_drop_eq_cons depth hdrop, if_neg hbackslash, if_neg hopen, if_neg hclose]
      exact FoundFrom.add (ih (next_of_drop_eq_cons hdrop))

theorem skipAt_of_drop_eq_cons (hdrop : text.drop i = c :: rest) : skipAt text i c = i + 1 :=
  if_pos (getElem?_of_drop_eq_cons hdrop 0)

theorem skipAt_of_forall_ne {tail : List Char} (hdrop : text.drop i = tail)
    (hother : ∀ rest, tail ≠ c :: rest) : skipAt text i c = i := by
  refine if_neg fun hc => ?_
  rw [← List.head?_drop, hdrop] at hc
  obtain ⟨rest, hrest⟩ := List.head?_eq_some_iff.1 hc
  exact hother rest hrest

theorem classEnd_of_drop_eq_cons (hdrop : text.drop i = c :: rest) :
    classEnd text i = lexemeEnd i rest (classExtent rest) := by
  refine FoundFrom.lexemeEnd_eq hdrop ?_
  have hnext := next_of_drop_eq_cons hdrop
  unfold classExtent classEnd
  split
  · have hclose := next_of_drop_eq_cons hnext
    rw [skipAt_of_drop_eq_cons hnext, skipAt_of_drop_eq_cons hclose]
    exact FoundFrom.add (foundFrom_classLoop (next_of_drop_eq_cons hclose))
  · next tail hother =>
      have htail := next_of_drop_eq_cons hnext
      rw [skipAt_of_drop_eq_cons hnext, skipAt_of_forall_ne htail hother]
      exact FoundFrom.add (foundFrom_classLoop htail)
  · rw [skipAt_of_forall_ne hnext (by simp), skipAt_of_drop_eq_cons hnext]
    exact FoundFrom.add (foundFrom_classLoop (next_of_drop_eq_cons hnext))
  · next hnegated hclose =>
      rw [skipAt_of_forall_ne hnext hnegated, skipAt_of_forall_ne hnext hclose]
      exact foundFrom_classLoop hnext

theorem flagLoop_of_drop_eq_cons (hdrop : text.drop i = c :: rest) :
    flagLoop text i = if c = ')' then some (i + 1)
      else if isAsciiLetter c || c == '-' then flagLoop text (i + 1) else none := by
  have hlength := length_of_drop_eq_cons hdrop
  have hc : text[i]? = some c := getElem?_of_drop_eq_cons hdrop 0
  rw [flagLoop, if_pos (by omega), hc]

theorem flagLoop_eq {tail : List Char} (hdrop : text.drop i = tail) :
    flagLoop text i =
      let flags := tail.takeWhile fun c => isAsciiLetter c || c == '-'
      if (tail.drop flags.length).head? = some ')' then some (i + flags.length + 1) else none := by
  induction tail generalizing i with
  | nil => rw [flagLoop, if_neg (Nat.not_lt.2 (List.drop_eq_nil_iff.1 hdrop))]; rfl
  | cons c tail ih =>
      rw [flagLoop_of_drop_eq_cons hdrop]
      by_cases hclose : c = ')'
      · subst hclose
        rfl
      · rw [if_neg hclose]
        by_cases hflag : isAsciiLetter c || c == '-'
        · have hsum : ∀ n, i + 1 + n + 1 = i + (n + 1) + 1 := fun n => by omega
          rw [if_pos hflag, ih (next_of_drop_eq_cons hdrop)]
          simp only [List.takeWhile_cons, hflag, if_true, List.length_cons, List.drop_succ_cons,
            hsum]
        · rw [if_neg hflag]
          simp [hflag, hclose]

/-- A group that only sets flags: they stand behind a question mark, and a parenthesis
behind them. -/
theorem flagGroup?_eq_some {flags : List Char} (hflags : flagGroup? rest = some flags) :
    ∃ after, rest = '?' :: flags ++ ')' :: after := by
  unfold flagGroup? at hflags
  split at hflags
  · next tail =>
      dsimp only at hflags
      split at hflags
      · next hclose =>
          obtain ⟨after, hafter⟩ := List.head?_eq_some_iff.1 hclose
          refine ⟨after, ?_⟩
          rw [← hafter, ← Option.some.inj hflags, drop_length_takeWhile, List.cons_append,
            List.takeWhile_append_dropWhile]
      · cases hflags
  · cases hflags

theorem exists_of_mark (hmark : rest[0]? = some c) : ∃ tail, rest = c :: tail :=
  List.head?_eq_some_iff.1 (List.head?_eq_getElem?.trans hmark)

theorem flagGroupEnd_of_drop_eq_cons (hdrop : text.drop i = c :: rest) :
    flagGroupEnd text i = (flagGroup? rest).map fun flags => i + 1 + (flags.length + 2) := by
  have hfirst : text[i + 1]? = rest[0]? := getElem?_of_drop_eq_cons hdrop 1
  rw [flagGroupEnd, hfirst]
  by_cases hmark : rest[0]? = some '?'
  · obtain ⟨tail, rfl⟩ := exists_of_mark hmark
    have hsum : ∀ n, i + 2 + n + 1 = i + 1 + (n + 2) := fun n => by omega
    rw [if_pos hmark, flagLoop_eq (next_of_drop_eq_cons (next_of_drop_eq_cons hdrop))]
    simp only [flagGroup?, hsum, apply_ite (Option.map _), Option.map_some, Option.map_none]
  · have hnone : flagGroup? rest = none := by
      unfold flagGroup?
      split
      · exact absurd rfl hmark
      · rfl
    rw [if_neg hmark, hnone]
    rfl

theorem groupOpening_of_no_mark (hmark : rest[0]? ≠ some '?') :
    groupOpening rest = .ok ⟨0, []⟩ := by
  unfold groupOpening
  split
  · exact absurd rfl hmark
  · rfl

theorem isNamed_eq (tail : List Char) :
    (tail[0]? == some '<' || (tail[0]? == some 'P' && tail[1]? == some '<')) =
      (decide (tail.head? = some '<') || decide (tail.take 2 = ['P', '<'])) := by
  match tail with
  | [] => rfl
  | [d] => simp [Bool.beq_eq_decide_eq]
  | d :: e :: _ => simp [Bool.beq_eq_decide_eq, Bool.decide_and]

theorem bodyStart_of_drop_eq_cons (hdrop : text.drop i = c :: rest) :
    bodyStart text i = lexemeEnd i rest ((groupOpening rest).map GroupOpening.extra) := by
  have hfirst : text[i + 1]? = rest[0]? := getElem?_of_drop_eq_cons hdrop 1
  rw [bodyStart, hfirst]
  by_cases hmark : rest[0]? = some '?'
  · obtain ⟨tail, rfl⟩ := exists_of_mark hmark
    have hsecond : text[i + 2]? = tail[0]? := getElem?_of_drop_eq_cons hdrop 2
    have hthird : text[i + 3]? = tail[1]? := getElem?_of_drop_eq_cons hdrop 3
    rw [if_pos hmark, hsecond, hthird, isNamed_eq]
    dsimp only
    rw [findFrom_of_drop_eq_cons hdrop (by simp)]
    simp only [groupOpening, List.drop_succ_cons, List.drop_zero]
    generalize (decide (tail.head? = some '<') || decide (tail.take 2 = ['P', '<'])) = named
    cases hsplit : splitFirst? (if named then '>' else ':') tail with
    | none => rfl
    | some parts =>
        obtain ⟨name, after⟩ := parts
        obtain ⟨-, rfl⟩ := splitFirst?_eq_some_iff.1 hsplit
        simp [bind, Except.bind, pure, Except.pure, lexemeEnd, Except.map]
        omega
  · rw [if_neg hmark, groupOpening_of_no_mark hmark]
    rfl

theorem extra_le_of_groupOpening {opening : GroupOpening}
    (hopening : groupOpening rest = .ok opening) : opening.extra ≤ rest.length := by
  unfold groupOpening at hopening
  split at hopening
  · dsimp only at hopening
    split at hopening
    · cases hopening
    · next name after hsplit =>
        obtain ⟨-, htail⟩ := splitFirst?_eq_some_iff.1 hsplit
        have hlength := congrArg List.length htail
        rw [List.length_append, List.length_cons] at hlength
        cases hopening
        simp only [List.length_cons]
        omega
  · cases hopening
    exact Nat.zero_le _

theorem bodyFlags_of_drop_eq_cons (hdrop : text.drop i = c :: rest) {opening : GroupOpening}
    (hopening : groupOpening rest = .ok opening) :
    bodyFlags text i (i + 1 + opening.extra) = .ok opening.flags := by
  have hfirst : text[i + 1]? = rest[0]? := getElem?_of_drop_eq_cons hdrop 1
  rw [bodyFlags, hfirst]
  by_cases hmark : rest[0]? = some '?'
  · obtain ⟨tail, rfl⟩ := exists_of_mark hmark
    rw [if_pos hmark]
    simp only [groupOpening] at hopening
    generalize (decide (tail.head? = some '<') || decide (tail.take 2 = ['P', '<'])) = named
      at hopening
    split at hopening
    · cases hopening
    · next name after hsplit =>
        obtain ⟨-, rfl⟩ := splitFirst?_eq_some_iff.1 hsplit
        cases hopening
        have hlast : i + (name.length + 2) = i + 1 + (name.length + 1) := by omega
        have hclose := getElem?_of_drop_eq_cons hdrop (name.length + 2)
        have hslice := slice_of_drop_eq_cons hdrop (show 2 ≤ name.length + 2 by omega) (by simp)
        rw [hlast] at hclose hslice
        simp only [List.getElem?_cons_succ, List.getElem?_append_right le_rfl, Nat.sub_self,
          List.getElem?_cons_zero] at hclose
        simp only [List.take_succ_cons, List.drop_succ_cons, List.drop_zero,
          List.take_left] at hslice
        have hprevious : previous (i + 1 + (name.length + 2)) = .ok (i + 1 + (name.length + 1)) :=
          rfl
        simp only [hprevious, charAt, hclose, hslice, bind, Except.bind]
        cases named <;> rfl
  · rw [groupOpening_of_no_mark hmark] at hopening
    cases hopening
    rw [if_neg hmark]

/-- The upper bound and the end of an operator that the screen has read at `i`. -/
def operatorEnd (i : Nat) (q : Quantifier) : Option Nat × Nat := (q.max, i + 1 + q.extra)

theorem withMark_eq {following : List Char} {extra : Nat}
    (hdrop : text.drop (i + 1 + extra) = following) (max : Option Nat) :
    withMark text (max, i + 1 + extra) =
      operatorEnd i (Quantifier.withSuffix max extra following) := by
  rw [withMark, ← List.head?_drop, hdrop]
  match following with
  | [] => rfl
  | d :: following =>
      by_cases hlazy : d = '?'
      · rw [hlazy]
        rfl
      · by_cases hpossessive : d = '+'
        · rw [hpossessive]
          rfl
        · simp [Quantifier.withSuffix, operatorEnd, hlazy, hpossessive]

theorem quantifierAt_of_drop_eq_cons (hdrop : text.drop i = c :: rest)
    (hsign : c = '*' ∨ c = '+' ∨ c = '?' ∨ c = '\x7b') :
    quantifierAt text i = .ok ((Quantifier.read? c rest).map (operatorEnd i)) := by
  have hnext : text.drop (i + 1 + 0) = rest := next_of_drop_eq_cons hdrop
  have hplain := withMark_eq hnext
  have hfound : ∀ {found found' : Option Nat × Nat}, found = found' →
      (.ok (some found) : Except Stop (Option (Option Nat × Nat))) = .ok (some found') := by
    rintro _ _ rfl
    rfl
  rw [quantifierAt, operatorAt, charAt_of_drop_eq_cons hdrop]
  rcases hsign with rfl | rfl | rfl | rfl
  · exact hfound (hplain none)
  · exact hfound (hplain none)
  · exact hfound (hplain (some 1))
  -- The search for the closing brace begins at the opening one, which is never what it finds.
  · have hclose := findFrom_of_drop_eq_cons hdrop (Nat.zero_le _) '\x7d'
    rw [Nat.add_zero, List.drop_zero, splitFirst?, if_neg (by decide)] at hclose
    simp only [bind, Except.bind, hclose]
    simp only [Quantifier.read?]
    cases hsplit : splitFirst? '\x7d' rest with
    | none => rfl
    | some parts =>
        obtain ⟨body, following⟩ := parts
        obtain ⟨-, rfl⟩ := splitFirst?_eq_some_iff.1 hsplit
        have hslice := slice_of_drop_eq_cons hdrop (show 1 ≤ body.length + 1 by omega) (by simp)
        simp only [List.take_succ_cons, List.drop_succ_cons, List.drop_zero, List.take_left]
          at hslice
        have hbehind : text.drop (i + 1 + (body.length + 1)) = following := by
          rw [← List.drop_drop, next_of_drop_eq_cons hdrop]
          simp
        have hend : i + (body.length + 1) + 1 = i + 1 + (body.length + 1) := by omega
        simp only [Option.map_some, List.length_cons, hslice, hend, pure, Except.pure]
        cases Quantifier.braceBound? body with
        | none => rfl
        | some max => exact hfound (withMark_eq hbehind max)

theorem extra_le_of_read? {q : Quantifier} (hread : Quantifier.read? c rest = some q) :
    q.extra ≤ rest.length := by
  have hsuffix : ∀ (max : Option Nat) (extra : Nat) (following : List Char),
      (Quantifier.withSuffix max extra following).extra ≤ extra + following.length := by
    intro max extra following
    unfold Quantifier.withSuffix
    split <;> simp
  unfold Quantifier.read? at hread
  split at hread
  · rw [← Option.some.inj hread, ← Nat.zero_add rest.length]
    exact hsuffix ..
  split at hread
  · rw [← Option.some.inj hread, ← Nat.zero_add rest.length]
    exact hsuffix ..
  split at hread
  · cases hread
  · next body following hsplit =>
      obtain ⟨max, -, rfl⟩ := Option.map_eq_some_iff.1 hread
      obtain ⟨-, rfl⟩ := splitFirst?_eq_some_iff.1 hsplit
      refine (hsuffix ..).trans_eq ?_
      simp
      omega

end

/-! ## One turn -/

/-- The beginning of a turn in the state of a screen. -/
def cursorOf (s : ScreenState) (i : Nat) : Cursor := ⟨s.frame :: s.outer, s.lastGroup, i⟩

section

variable {text rest : List Char} {c : Char} {i : Nat}

theorem pushUpTo_of_drop_eq_cons (hdrop : text.drop i = c :: rest) (s : ScreenState) (extra : Nat) :
    (cursorOf s i).pushUpTo text (i + 1 + min extra rest.length) =
      .ok (cursorOf (s.push (c :: rest.take extra)) (i + 1 + min extra rest.length)) := by
  have hslice := slice_of_drop_eq_cons hdrop (Nat.zero_le (1 + min extra rest.length)) (by omega)
  rw [Nat.add_zero, ← Nat.add_assoc, List.drop_zero, Nat.add_comm 1, List.take_succ_cons,
    ← List.take_eq_take_min] at hslice
  simp only [Cursor.pushUpTo, cursorOf, hslice, bind, Except.bind, pure, Except.pure]
  rfl

/-- The next turn after a lexeme of the screen, if it has no objection. -/
def nextTurn (i : Nat) (rest : List Char) :
    Except Objection (ScreenState × Nat) → Except Stop Cursor
  | .ok (next, extra) => .ok (cursorOf next (i + 1 + min extra rest.length))
  | .error objection => .error (.objection objection)

theorem pushOne_of_drop_eq_cons (hdrop : text.drop i = c :: rest) (s : ScreenState) :
    (cursorOf s i).pushUpTo text (i + 1) = nextTurn i rest (.ok (s.push [c], 0)) := by
  have hpushed := pushUpTo_of_drop_eq_cons hdrop s 0
  rw [Nat.zero_min, Nat.add_zero, List.take_zero] at hpushed
  rw [hpushed, nextTurn, Nat.zero_min, Nat.add_zero]

theorem pushLexeme_of_drop_eq_cons (hdrop : text.drop i = c :: rest) (s : ScreenState)
    {found : Except Stop Nat} {extent : Except Malformation Nat}
    (hfound : found = lexemeEnd i rest extent) :
    (found.bind fun stop => (cursorOf s i).pushUpTo text stop) =
      nextTurn i rest (do
        let extra ← extent.mapError .malformed
        return (s.push (c :: rest.take extra), extra)) := by
  rw [hfound]
  cases extent with
  | error fault => rfl
  | ok extra => exact pushUpTo_of_drop_eq_cons hdrop s extra

theorem skipComment_of_drop_eq_cons (hdrop : text.drop i = '#' :: rest) (s : ScreenState) :
    skipComment text (cursorOf s i) =
      nextTurn i rest (.ok (s, (rest.takeWhile (· ≠ '\n')).length + 1)) := by
  have hlength := length_of_drop_eq_cons hdrop
  have hfound := findFrom_of_drop_eq_cons hdrop (Nat.zero_le _) '\n'
  rw [Nat.add_zero, List.drop_zero, splitFirst?, if_neg (by decide)] at hfound
  simp only [skipComment, cursorOf, hfound, bind, Except.bind]
  cases hsplit : splitFirst? '\n' rest with
  | none =>
      have hline := keeps_of_not_mem (splitFirst?_eq_none_iff.1 hsplit)
      simp only [Option.map_none, nextTurn, List.takeWhile_eq_self_iff.2 hline, cursorOf,
        pure, Except.pure]
      rw [Nat.min_eq_right (Nat.le_succ _), hlength]
  | some parts =>
      obtain ⟨line, after⟩ := parts
      obtain ⟨hline, rfl⟩ := splitFirst?_eq_some_iff.1 hsplit
      rw [nextTurn, List.takeWhile_append_of_pos (keeps_of_not_mem hline),
        List.takeWhile_cons_of_neg (by simp), List.append_nil, Nat.min_eq_left (by simp)]
      simp only [Option.map_some, List.length_cons, cursorOf, pure, Except.pure, Nat.add_assoc,
        Nat.add_comm 1]

theorem openGroup_of_drop_eq_cons (hdrop : text.drop i = '(' :: rest) (s : ScreenState) :
    openGroup text (cursorOf s i) s.frame.verbose = nextTurn i rest (match flagGroup? rest with
      | some flags => .ok (s.setVerbose flags, flags.length + 2)
      | none => do
          let opening ← (groupOpening rest).mapError .malformed
          return (s.openGroup opening.flags, opening.extra)) := by
  have hposition : (cursorOf s i).position = i := rfl
  rw [openGroup, hposition, flagGroupEnd_of_drop_eq_cons hdrop]
  cases hflags : flagGroup? rest with
  | some flags =>
      obtain ⟨after, rfl⟩ := flagGroup?_eq_some hflags
      have hlast : i + (flags.length + 2) = i + 1 + (flags.length + 1) := by omega
      have hprevious : previous (i + 1 + (flags.length + 2)) = .ok (i + 1 + (flags.length + 1)) :=
        rfl
      have hslice := slice_of_drop_eq_cons hdrop (show 2 ≤ flags.length + 2 by omega) (by simp)
      simp only [hlast, List.cons_append, List.take_succ_cons, List.drop_succ_cons,
        List.drop_zero, List.take_left] at hslice
      simp only [Option.map_some, hprevious, hslice, bind, Except.bind, pure, Except.pure, nextTurn]
      rw [Nat.min_eq_left (by simp)]
      rfl
  | none =>
      rw [Option.map_none, bodyStart_of_drop_eq_cons hdrop]
      cases hopening : groupOpening rest with
      | error fault => rfl
      | ok opening =>
          have hinside := extra_le_of_groupOpening hopening
          simp only [Except.map, lexemeEnd, Nat.min_eq_left hinside, bind, Except.bind,
            bodyFlags_of_drop_eq_cons hdrop hopening, pure, Except.pure, Except.mapError, nextTurn]
          rfl

theorem closeGroup_eq (s : ScreenState) (i : Nat) (rest : List Char) :
    closeGroup (cursorOf s i) = nextTurn i rest (do
      let closed ← s.closeGroup.mapError .malformed
      return (closed, 0)) := by
  obtain ⟨frame, outer, lastGroup⟩ := s
  cases outer with
  | nil => rfl
  | cons parent outer =>
      have hnested : ¬(frame :: parent :: outer).length = 1 := by simp
      rw [closeGroup, cursorOf, if_neg hnested]
      simp only [ScreenState.closeGroup, Except.mapError, bind, Except.bind, pure, Except.pure,
        nextTurn, Nat.zero_min, Nat.add_zero]
      rfl

theorem repeatLast_of_drop_eq_cons (hdrop : text.drop i = c :: rest)
    (hsign : c = '*' ∨ c = '+' ∨ c = '?' ∨ c = '\x7b') (s : ScreenState) :
    repeatLast text (cursorOf s i) = nextTurn i rest (match Quantifier.read? c rest with
      | none => .ok (s.push [c], 0)
      | some q =>
          match s.hazard? q with
          | some hazard => .error (.hazard hazard)
          | none => .ok (s.repeatLast q (c :: rest.take q.extra), q.extra)) := by
  have hposition : (cursorOf s i).position = i := rfl
  rw [repeatLast, hposition, quantifierAt_of_drop_eq_cons hdrop hsign]
  cases hread : Quantifier.read? c rest with
  | none => exact pushOne_of_drop_eq_cons hdrop s
  | some q =>
      have hinside := extra_le_of_read? hread
      have hhazard : ({ lastGroup := (cursorOf s i).lastGroup } : ScreenState).hazard? ⟨q.max, 0⟩ =
          s.hazard? q := rfl
      simp only [Option.map_some, operatorEnd, bind, Except.bind, hhazard]
      cases s.hazard? q with
      | some hazard => rfl
      | none =>
          let noted : ScreenState :=
            { s with frame := { s.frame with unbounded := s.frame.unbounded || q.max.isNone } }
          have hpushed := pushUpTo_of_drop_eq_cons hdrop noted q.extra
          simp only [nextTurn]
          rw [Nat.min_eq_left hinside] at hpushed ⊢
          exact hpushed

/-- A turn does what the screen does with the lexeme at its position. -/
theorem advance_eq (hdrop : text.drop i = c :: rest) (s : ScreenState) :
    advance text (cursorOf s i) = nextTurn i rest (screenStep s c rest) := by
  have hposition : (cursorOf s i).position = i := rfl
  have hverbose : ((cursorOf s i).stack.head?.map Frame.verbose).getD false = s.frame.verbose := rfl
  unfold advance screenStep
  rw [hposition, charAt_of_drop_eq_cons hdrop, hverbose]
  dsimp only [bind, Except.bind]
  by_cases hblank : (s.frame.verbose && isBlank c) = true
  · rw [if_pos hblank, if_pos hblank, nextTurn, Nat.zero_min]
    rfl
  rw [if_neg hblank, if_neg hblank]
  by_cases hcomment : (s.frame.verbose && c == '#') = true
  · obtain rfl : c = '#' := by simp_all
    rw [if_pos hcomment, if_pos hcomment]
    exact skipComment_of_drop_eq_cons hdrop s
  rw [if_neg hcomment, if_neg hcomment]
  by_cases hescape : c = '\\'
  · rw [if_pos hescape, if_pos hescape]
    exact pushLexeme_of_drop_eq_cons hdrop s (escapeEnd_of_drop_eq_cons hdrop)
  rw [if_neg hescape, if_neg hescape]
  by_cases hclass : c = '['
  · rw [if_pos hclass, if_pos hclass]
    exact pushLexeme_of_drop_eq_cons hdrop s (classEnd_of_drop_eq_cons hdrop)
  rw [if_neg hclass, if_neg hclass]
  by_cases hopen : c = '('
  · rw [if_pos hopen, if_pos hopen]
    subst hopen
    exact openGroup_of_drop_eq_cons hdrop s
  rw [if_neg hopen, if_neg hopen]
  by_cases hclose : c = ')'
  · rw [if_pos hclose, if_pos hclose]
    exact closeGroup_eq s i rest
  rw [if_neg hclose, if_neg hclose]
  by_cases hbranch : c = '|'
  · rw [if_pos hbranch, if_pos hbranch, nextTurn, Nat.zero_min]
    rfl
  rw [if_neg hbranch, if_neg hbranch]
  by_cases hsign : (c = '*' || c = '+' || c = '?' || c = '\x7b') = true
  · rw [if_pos hsign, if_pos hsign]
    exact repeatLast_of_drop_eq_cons hdrop (by simpa [or_assoc] using hsign) s
  · rw [if_neg hsign, if_neg hsign]
    exact pushOne_of_drop_eq_cons hdrop s

end

/-! ## The whole run -/

section

variable {text : List Char}

/-- What a turn that begins at `i` comes to: an objection, or a turn that begins further on,
with a frame at least, and not behind the text. -/
inductive Advances (text : List Char) (i : Nat) : Except Stop Cursor → Prop
  | objection (objection : Objection) : Advances text i (.error (.objection objection))
  | next {cursor : Cursor} (hstack : cursor.stack ≠ []) (hfurther : i < cursor.position)
      (hinside : cursor.position ≤ text.length) : Advances text i (.ok cursor)

theorem advances_of_lt {i : Nat} (hi : i < text.length) (s : ScreenState) :
    Advances text i (advance text (cursorOf s i)) := by
  have hdrop := List.drop_eq_getElem_cons hi
  have hlength := length_of_drop_eq_cons hdrop
  rw [advance_eq hdrop]
  cases screenStep s text[i] (text.drop (i + 1)) with
  | error objection => exact .objection objection
  | ok read =>
      -- One character is taken in any case, and of those behind it no more than there are.
      obtain ⟨next, extra⟩ := read
      refine .next (List.cons_ne_nil _ _) ?_ ?_
      all_goals
        simp only [cursorOf]
        omega

theorem exists_cursorOf_of_reaches {cursor : Cursor} (hreached : Reaches text cursor) :
    ∃ s i, cursor = cursorOf s i ∧ i ≤ text.length := by
  induction hreached with
  | start => exact ⟨{}, 0, rfl, Nat.zero_le _⟩
  | @step cursor next _ hinside hnext ih =>
      obtain ⟨s, i, rfl, -⟩ := ih
      have hi : i < text.length := hinside
      have hdrop := List.drop_eq_getElem_cons hi
      have hlength := length_of_drop_eq_cons hdrop
      rw [advance_eq hdrop] at hnext
      cases hstep : screenStep s text[i] (text.drop (i + 1)) with
      | error objection =>
          rw [hstep] at hnext
          cases hnext
      | ok read =>
          rw [hstep] at hnext
          cases hnext
          exact ⟨read.1, _, rfl, by omega⟩

theorem finish_eq (s : ScreenState) (i : Nat) :
    finish (cursorOf s i) =
      if s.outer.isEmpty then .ok () else .error (malformed .unclosedGroup) := by
  unfold finish cursorOf
  cases s.outer <;> rfl

theorem run_of_length_le {turns : Nat} {cursor : Cursor} (hend : text.length ≤ cursor.position) :
    run text turns cursor = some (finish cursor) := by
  unfold run
  exact if_neg (Nat.not_lt.2 hend)

/-- As many turns as there are characters left suffice, and they find what the screen finds. -/
theorem run_eq {tail : List Char} {i turns : Nat} (hdrop : text.drop i = tail)
    (hturns : tail.length ≤ turns) (s : ScreenState) :
    run text turns (cursorOf s i) = some (match screenFrom s tail with
      | .ok _ => .ok ()
      | .error objection => .error (.objection objection)) := by
  have hposition : ∀ s i, (cursorOf s i).position = i := fun _ _ => rfl
  -- Every step of the screen leaves fewer characters, and so enough turns for them.
  fun_induction screenFrom s tail generalizing i turns with
  | case1 s hclosed =>
      rw [run_of_length_le (List.drop_eq_nil_iff.1 hdrop), finish_eq, if_pos hclosed]
  | case2 s hopen =>
      rw [run_of_length_le (List.drop_eq_nil_iff.1 hdrop), finish_eq, if_neg hopen]
      rfl
  | case3 s c rest objection hstep =>
      have hlength := length_of_drop_eq_cons hdrop
      obtain ⟨turns, rfl⟩ := Nat.exists_eq_add_one_of_ne_zero
        (Nat.ne_zero_of_lt (Nat.lt_of_lt_of_le (Nat.succ_pos _) hturns))
      rw [run, hposition, if_pos (by omega), advance_eq hdrop, hstep]
      rfl
  | case4 s c rest next extra hstep ih =>
      have hlength := length_of_drop_eq_cons hdrop
      obtain ⟨turns, rfl⟩ := Nat.exists_eq_add_one_of_ne_zero
        (Nat.ne_zero_of_lt (Nat.lt_of_lt_of_le (Nat.succ_pos _) hturns))
      rw [run, hposition, if_pos (by omega), advance_eq hdrop, hstep]
      refine ih ?_ ?_
      · rw [← List.drop_drop, next_of_drop_eq_cons hdrop]
        exact List.drop_eq_drop_min.symm
      · rw [List.length_drop]
        rw [List.length_cons] at hturns
        omega

/-- The screening on positions gives the verdict of the screen, and takes no more turns than
the pattern has characters. -/
theorem check_eq (pattern : String) {turns : Nat} (hturns : pattern.toList.length ≤ turns) :
    check pattern turns = some (checkSafety pattern) := by
  rw [check, checkSafety]
  split
  · rfl
  · rw [show ({} : Cursor) = cursorOf {} 0 from rfl, run_eq List.drop_zero hturns]
    cases screenFrom {} pattern.toList with
    | ok s => rfl
    | error objection => cases objection <;> rfl

/-- Every turn begins inside of the pattern with a frame at least and ends further on or with
an objection, and no character and no slice is taken that the pattern does not have.  So as
many turns as the pattern has characters come to an end, with the verdict of the screen. -/
theorem screening_stays_inside (pattern : String) :
    (∀ cursor, Reaches pattern.toList cursor →
      cursor.stack ≠ [] ∧ cursor.position ≤ pattern.toList.length ∧
        (cursor.position < pattern.toList.length →
          Advances pattern.toList cursor.position (advance pattern.toList cursor))) ∧
    (∃ verdict, run pattern.toList pattern.toList.length {} = some verdict ∧
      verdict ≠ .error .outside) ∧
    check pattern pattern.toList.length = some (checkSafety pattern) := by
  refine ⟨fun cursor hreached => ?_, ⟨_, run_eq List.drop_zero le_rfl {}, ?_⟩, check_eq _ le_rfl⟩
  · obtain ⟨s, i, rfl, hi⟩ := exists_cursorOf_of_reaches hreached
    exact ⟨List.cons_ne_nil _ _, hi, fun hlt => advances_of_lt hlt s⟩
  · cases screenFrom {} pattern.toList with
    | ok s => exact nofun
    | error objection => exact nofun

/-- The second turn reads an escape that the end of the pattern cuts off. -/
theorem cut_escape_stays_inside :
    Reaches "a\\x4".toList { stack := [{ current := ['a'] }], position := 1 } ∧
    Advances "a\\x4".toList 1
      (advance "a\\x4".toList { stack := [{ current := ['a'] }], position := 1 }) ∧
    check "a\\x4" 4 = some (checkSafety "a\\x4") := by
  have hreached : Reaches "a\\x4".toList { stack := [{ current := ['a'] }], position := 1 } :=
    .step .start (by decide) (by decide)
  have hinside := screening_stays_inside "a\\x4"
  exact ⟨hreached, (hinside.1 _ hreached).2.2 (by decide), hinside.2.2⟩

end

end Positional

end WorkflowAudit.Pattern
