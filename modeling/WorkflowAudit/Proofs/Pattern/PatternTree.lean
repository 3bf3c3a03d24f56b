import WorkflowAudit.Proofs.Pattern.NestedRepetition
import WorkflowAudit.Proofs.Text.Numerals

/-!
# The screen is exact on plain patterns

A plain pattern is written from a tree: alternatives of atoms, each with at most one
operator, where an atom is a character, an escape of two characters, a class without
brackets in it, or a group.  On such patterns the screen has no say of its own.  It
refuses a pattern as unsafe if and only if the tree has a widely repeated group that
repeats without bound within, or whose alternatives overlap, and it lets every other one
pass.  The screen is followed along the tree: one lemma for each kind of node says what
reading its text does to the innermost frame.
-/

namespace WorkflowAudit.Pattern

open Text Regex

/-! ## Trees -/

/-- A number as it is written. -/
structure Numeral where
  digits : List Char
  ne_nil : digits ≠ []
  decimal : ∀ c ∈ digits, isDecimalDigit c = true

def Numeral.value (numeral : Numeral) : Nat :=
  numeral.digits.foldl (fun value c => value * 10 + (c.toNat - '0'.toNat)) 0

/-- How often an operator repeats: `*`, `+`, `?`, `{n}`, `{n,}` or `{n,m}`. -/
inductive Repeat where
  | any
  | some
  | optional
  | exactly (count : Numeral)
  | atLeast (least : Numeral)
  | between (least most : Numeral)

def Repeat.text : Repeat → List Char
  | .any => ['*']
  | .some => ['+']
  | .optional => ['?']
  | .exactly count => '\x7b' :: (count.digits ++ ['\x7d'])
  | .atLeast least => '\x7b' :: (least.digits ++ [','] ++ ['\x7d'])
  | .between least most => '\x7b' :: (least.digits ++ ',' :: most.digits ++ ['\x7d'])

/-- The upper bound, if there is one. -/
def Repeat.max? : Repeat → Option Nat
  | .any | .some | .atLeast _ => none
  | .optional => Option.some 1
  | .exactly count => Option.some count.value
  | .between _ most => Option.some most.value

def lazyMark (isLazy : Bool) : List Char := if isLazy then ['?'] else []

/-- An operator, with or without a lazy mark. -/
structure Operator where
  repetition : Repeat
  isLazy : Bool

namespace Operator

def text (op : Operator) : List Char :=
  op.repetition.text ++ lazyMark op.isLazy

def isUnbounded (op : Operator) : Bool := op.repetition.max?.isNone

/-- Unbounded, or bounded above the number of repetitions that any group may have. -/
def IsWide (op : Operator) : Prop :=
  op.repetition.max? = none ∨ ∃ most, op.repetition.max? = some most ∧ maxNestedRepeat < most

end Operator

/-- What stands between the brackets of a class, behind its negation. -/
structure ClassBody where
  text : List Char
  ne_nil : text ≠ []
  members : ∀ c ∈ text, IsMember c
  unmarked : text.head? ≠ some '^'

/-- The name of a group; alphanumeric names are among these. -/
structure GroupName where
  text : List Char
  closed : '>' ∉ text

/-- How a group opens: `(`, `(?:`, `(?<name>` or `(?P<name>`. -/
inductive GroupPrefix where
  | capturing
  | bare
  | named (name : GroupName)
  | namedP (name : GroupName)

/-- What follows the parenthesis. -/
def GroupPrefix.text : GroupPrefix → List Char
  | .capturing => []
  | .bare => ['?', ':']
  | .named name => '?' :: '<' :: (name.text ++ ['>'])
  | .namedP name => '?' :: 'P' :: '<' :: (name.text ++ ['>'])

mutual

/-- Alternatives, of which there is at least one. -/
inductive Alternatives where
  | last (branch : Branch)
  | more (branch : Branch) (rest : Alternatives)

/-- Atoms one after the other, each with at most one operator. -/
inductive Branch where
  | done
  | piece (atom : Atom) (op : Option Operator) (rest : Branch)

inductive Atom where
  | char (c : Char) (hplain : c ∉ Reader.signs)
  | escape (kind : Char) (hkind : kind ∉ ['p', 'P', 'x', 'u', 'U'])
  | members (negated : Bool) (body : ClassBody)
  | group (opening : GroupPrefix) (body : Alternatives)

end

/-! ## The text of a tree -/

section

variable (mark : GroupPrefix → List Char)

mutual

/-- The text of each alternative, where `mark` writes the prefixes of groups. -/
def Alternatives.texts : Alternatives → List (List Char)
  | .last branch => [branch.text]
  | .more branch rest => branch.text :: rest.texts

def Branch.text : Branch → List Char
  | .done => []
  | .piece atom op rest => atom.text ++ (op.elim [] Operator.text ++ rest.text)

def Atom.text : Atom → List Char
  | .char c _ => [c]
  | .escape kind _ => ['\\', kind]
  | .members negated body => '[' :: ((if negated then ['^'] else []) ++ (body.text ++ [']']))
  | .group opening body => '(' :: (mark opening ++ (joinWith ['|'] body.texts ++ [')']))

end

end

namespace Alternatives

def render (tree : Alternatives) : List Char := joinWith ['|'] (tree.texts GroupPrefix.text)

/-- The pattern that is written from a tree. -/
def pattern (tree : Alternatives) : String := String.ofList tree.render

/-- The texts of the alternatives with the prefixes of groups erased. -/
def branches (tree : Alternatives) : List (List Char) := tree.texts fun _ => []

end Alternatives

/-! ## Hazards of a tree -/

mutual

/-- The operators of a tree, at any depth. -/
def Alternatives.operators : Alternatives → List Operator
  | .last branch => branch.operators
  | .more branch rest => branch.operators ++ rest.operators

def Branch.operators : Branch → List Operator
  | .done => []
  | .piece atom op rest => atom.operators ++ (op.toList ++ rest.operators)

def Atom.operators : Atom → List Operator
  | .char .. | .escape .. | .members .. => []
  | .group _ body => body.operators

end

/-- The body of a group. -/
def Atom.body? : Atom → Option Alternatives
  | .char .. | .escape .. | .members .. => none
  | .group _ body => some body

/-- The group of a piece, where it carries an operator. -/
def Atom.repeated (atom : Atom) (op : Option Operator) : List (Alternatives × Operator) :=
  match atom.body?, op with
  | some body, some op => [(body, op)]
  | _, _ => []

mutual

/-- The groups of a tree that carry an operator, at any depth, with it. -/
def Alternatives.repeatedGroups : Alternatives → List (Alternatives × Operator)
  | .last branch => branch.repeatedGroups
  | .more branch rest => branch.repeatedGroups ++ rest.repeatedGroups

def Branch.repeatedGroups : Branch → List (Alternatives × Operator)
  | .done => []
  | .piece atom op rest => atom.repeatedGroups ++ (atom.repeated op ++ rest.repeatedGroups)

def Atom.repeatedGroups : Atom → List (Alternatives × Operator)
  | .char .. | .escape .. | .members .. => []
  | .group _ body => body.repeatedGroups

end

namespace Alternatives

/-- There are several alternatives, and one is empty or the beginning of another. -/
def Overlap (body : Alternatives) : Prop :=
  2 ≤ body.branches.length ∧ ([] ∈ body.branches ∨
    ∃ (i j : Nat) (first second : List Char), i ≠ j ∧ body.branches[i]? = some first ∧
      body.branches[j]? = some second ∧ first <+: second)

/-- Something in a group repeats without bound, or its alternatives overlap. -/
def IsCostly (body : Alternatives) : Prop :=
  (∃ op ∈ body.operators, op.repetition.max? = none) ∨ body.Overlap

end Alternatives

/-- A group that is costly to repeat is repeated widely. -/
def HasHazard (repeated : List (Alternatives × Operator)) : Prop :=
  ∃ body op, (body, op) ∈ repeated ∧ op.IsWide ∧ body.IsCostly

def Alternatives.IsHazardous (tree : Alternatives) : Prop := HasHazard tree.repeatedGroups

/-! ## Numbers and operators -/

theorem Numeral.isBound (numeral : Numeral) : IsBound numeral.digits numeral.value := by
  have htrim : trim numeral.digits = numeral.digits :=
    trim_of_all fun c hc => isBlank_of_isDecimalDigit (numeral.decimal c hc)
  have hnonempty : numeral.digits.isEmpty = false := by
    simpa using numeral.ne_nil
  refine ⟨?_, ?_, fun c hc => .inr (numeral.decimal c hc)⟩
  · rw [htrim, List.all_eq_true]
    exact numeral.decimal
  · rw [htrim, natOfDigits?, hnonempty]
    exact foldlM_digitValue? numeral.decimal 0

/-- A text that does not begin with a mark of an operator. -/
def IsBoundary (rest : List Char) : Prop := ∀ c ∈ rest.head?, c ≠ '?' ∧ c ≠ '+'

theorem withSuffix_of_isBoundary (max : Option Nat) (extra : Nat) (isLazy : Bool)
    {rest : List Char} (hrest : IsBoundary rest) :
    Quantifier.withSuffix max extra (lazyMark isLazy ++ rest) =
      ⟨max, extra + (lazyMark isLazy).length⟩ := by
  cases isLazy with
  | true => rfl
  | false =>
      cases rest with
      | nil => rfl
      | cons c rest =>
          obtain ⟨hquestion, hplus⟩ := hrest c rfl
          simp only [lazyMark, Bool.false_eq_true, if_false, List.nil_append]
          unfold Quantifier.withSuffix
          split <;> simp_all

theorem read?_braces {body : List Char} {max : Option Nat} (hbody : '\x7d' ∉ body)
    (hbound : Quantifier.braceBound? body = some max) (isLazy : Bool) {rest : List Char}
    (hrest : IsBoundary rest) :
    Quantifier.read? '\x7b' (body ++ ['\x7d'] ++ lazyMark isLazy ++ rest) =
      some ⟨max, (body ++ ['\x7d'] ++ lazyMark isLazy).length⟩ := by
  have hsplit : splitFirst? '\x7d' (body ++ ['\x7d'] ++ lazyMark isLazy ++ rest) =
      some (body, lazyMark isLazy ++ rest) :=
    splitFirst?_eq_some_iff.2 ⟨hbody, by simp⟩
  rw [Quantifier.read?, if_neg (by decide), if_neg (by decide), hsplit]
  simp [hbound, withSuffix_of_isBoundary max _ isLazy hrest, Nat.add_assoc, Nat.add_comm 1]

/-- The screen reads an operator with its bound and its extent. -/
theorem Operator.exists_read? (op : Operator) {rest : List Char} (hrest : IsBoundary rest) :
    ∃ c tail, op.text = c :: tail ∧ c ∈ ['?', '*', '+', '\x7b'] ∧
      Quantifier.read? c (tail ++ rest) = some ⟨op.repetition.max?, tail.length⟩ := by
  obtain ⟨repetition, isLazy⟩ := op
  have hsign : ∀ max, Quantifier.withSuffix max 0 (lazyMark isLazy ++ rest) =
      ⟨max, (lazyMark isLazy).length⟩ := by
    intro max
    rw [withSuffix_of_isBoundary max 0 isLazy hrest, Nat.zero_add]
  cases repetition with
  | any => exact ⟨'*', _, rfl, by simp, congrArg some (hsign none)⟩
  | some => exact ⟨'+', _, rfl, by simp, congrArg some (hsign none)⟩
  | optional => exact ⟨'?', _, rfl, by simp, congrArg some (hsign (some 1))⟩
  | exactly count =>
      have hbound := count.isBound
      exact ⟨'\x7b', _, rfl, by simp,
        read?_braces (hbound.not_mem (by simp)) hbound.braceBound?_exactly isLazy hrest⟩
  | atLeast least =>
      have hbound := least.isBound
      have hbody : '\x7d' ∉ least.digits ++ [','] := by
        simpa using hbound.not_mem (by simp)
      exact ⟨'\x7b', _, rfl, by simp, read?_braces hbody hbound.braceBound?_atLeast isLazy hrest⟩
  | between least most =>
      have hleast := least.isBound
      have hmost := most.isBound
      have hbody : '\x7d' ∉ least.digits ++ ',' :: most.digits := by
        simpa using ⟨hleast.not_mem (by simp), hmost.not_mem (by simp)⟩
      exact ⟨'\x7b', _, rfl, by simp,
        read?_braces hbody (hleast.braceBound?_between hmost) isLazy hrest⟩

/-! ## Overlapping alternatives -/

theorem overlapping_iff_exists {branches : List (List Char)} :
    overlapping branches = true ↔ ∃ (i j : Nat) (first second : List Char), i < j ∧
      branches[i]? = some first ∧ branches[j]? = some second ∧
      (first = [] ∨ second = [] ∨ first <+: second ∨ second <+: first) := by
  induction branches with
  | nil => simp [overlapping]
  | cons branch rest ih =>
      have hmeets : ∀ other : List Char, (branch.isEmpty || other.isEmpty ||
          branch.isPrefixOf other || other.isPrefixOf branch) = true ↔
            (branch = [] ∨ other = [] ∨ branch <+: other ∨ other <+: branch) := by
        simp [or_assoc]
      rw [overlapping, Bool.or_eq_true, ih, List.any_eq_true]
      simp only [hmeets]
      constructor
      · rintro (⟨other, hmem, hother⟩ | ⟨i, j, first, second, hlt, hi, hj, hmeet⟩)
        · obtain ⟨j, hj⟩ := List.mem_iff_getElem?.1 hmem
          exact ⟨0, j + 1, branch, other, by omega, rfl, hj, hother⟩
        · exact ⟨i + 1, j + 1, first, second, by omega, hi, hj, hmeet⟩
      · rintro ⟨i, j, first, second, hlt, hi, hj, hmeet⟩
        cases j with
        | zero => omega
        | succ j =>
            cases i with
            | zero =>
                cases hi
                exact .inl ⟨second, List.mem_of_getElem? hj, hmeet⟩
            | succ i => exact .inr ⟨i, j, first, second, by omega, hi, hj, hmeet⟩

theorem Alternatives.overlap_iff (body : Alternatives) :
    body.Overlap ↔ overlapping body.branches = true := by
  rw [overlapping_iff_exists, Overlap]
  generalize body.branches = branches
  constructor
  · rintro ⟨hseveral, hempty | ⟨i, j, first, second, hne, hi, hj, hbegins⟩⟩
    · -- the empty alternative meets the first or the second one
      obtain ⟨i, hi⟩ := List.mem_iff_getElem?.1 hempty
      cases i with
      | zero => exact ⟨0, 1, [], branches[1], by omega, hi, List.getElem?_eq_getElem _, .inl rfl⟩
      | succ i =>
          exact ⟨0, i + 1, branches[0], [], by omega, List.getElem?_eq_getElem _, hi,
            .inr (.inl rfl)⟩
    · rcases Nat.lt_or_gt_of_ne hne with hlt | hlt
      · exact ⟨i, j, first, second, hlt, hi, hj, .inr (.inr (.inl hbegins))⟩
      · exact ⟨j, i, second, first, hlt, hj, hi, .inr (.inr (.inr hbegins))⟩
  · rintro ⟨i, j, first, second, hlt, hi, hj, hmeet⟩
    obtain ⟨hbound, -⟩ := List.getElem?_eq_some_iff.1 hj
    refine ⟨by omega, ?_⟩
    rcases hmeet with rfl | rfl | hbegins | hbegins
    · exact .inl (List.mem_of_getElem? hi)
    · exact .inl (List.mem_of_getElem? hj)
    · exact .inr ⟨i, j, first, second, by omega, hi, hj, hbegins⟩
    · exact .inr ⟨j, i, second, first, by omega, hj, hi, hbegins⟩

/-! ## What reading a text does -/

/-- The screen behind a text in the innermost frame, and the group that the text ends in. -/
def ScreenState.take (t : ScreenState) (text : List Char) (unbounded : Bool)
    (last : Option GroupBody) : ScreenState :=
  { frame := { t.frame with
      current := t.frame.current ++ text
      unbounded := t.frame.unbounded || unbounded }
    outer := t.outer
    lastGroup := last }

theorem ScreenState.take_take (t : ScreenState) (front back : List Char) (first second : Bool)
    (last next : Option GroupBody) :
    (t.take front first last).take back second next =
      t.take (front ++ back) (first || second) next := by
  simp [ScreenState.take, Bool.or_assoc]

theorem ScreenState.push_eq_take (t : ScreenState) (text : List Char) :
    t.push text = t.take text false none := by
  simp [ScreenState.push, ScreenState.take]

/-- The screen reads a text: it objects if and only if the text is hazardous, and is in
one of some states behind it otherwise. -/
inductive Reads (t : ScreenState) (text rest : List Char) (hazardous : Prop)
    (next : ScreenState → Prop) : Prop
  | passes {after : ScreenState} (hsafe : ¬ hazardous) (hnext : next after)
      (hscreen : screenFrom t (text ++ rest) = screenFrom after rest)
  | refused {hazard : Hazard} (hhazardous : hazardous)
      (hscreen : screenFrom t (text ++ rest) = .error (.hazard hazard))

section

variable {t : ScreenState} {text more rest : List Char} {hazardous hazardous' : Prop}
  {next next' : ScreenState → Prop}

theorem Reads.append (hfirst : Reads t text (more ++ rest) hazardous next)
    (hsecond : ∀ after, next after → Reads after more rest hazardous' next') :
    Reads t (text ++ more) rest (hazardous ∨ hazardous') next' := by
  cases hfirst with
  | passes hsafe hnext hscreen =>
      rw [← List.append_assoc] at hscreen
      cases hsecond _ hnext with
      | passes hsafe' hnext' hscreen' =>
          exact .passes (not_or.2 ⟨hsafe, hsafe'⟩) hnext' (hscreen.trans hscreen')
      | refused hhazardous hscreen' =>
          exact .refused (.inr hhazardous) (hscreen.trans hscreen')
  | refused hhazardous hscreen =>
      rw [← List.append_assoc] at hscreen
      exact .refused (.inl hhazardous) hscreen

theorem Reads.mono (hreads : Reads t text rest hazardous next)
    (hhazardous : hazardous ↔ hazardous') (hnext : ∀ after, next after → next' after) :
    Reads t text rest hazardous' next' := by
  cases hreads with
  | passes hsafe hafter hscreen => exact .passes (mt hhazardous.2 hsafe) (hnext _ hafter) hscreen
  | refused hfound hscreen => exact .refused (hhazardous.1 hfound) hscreen

/-- Reading may begin with lexemes that change nothing but the state. -/
theorem Reads.of_screenFrom {t' : ScreenState} {text' : List Char}
    (hscreen : screenFrom t' (text' ++ rest) = screenFrom t (text ++ rest))
    (hreads : Reads t text rest hazardous next) : Reads t' text' rest hazardous next := by
  cases hreads with
  | passes hsafe hnext hpasses => exact .passes hsafe hnext (hscreen.trans hpasses)
  | refused hhazardous hrefused => exact .refused hhazardous (hscreen.trans hrefused)

end

theorem hasHazard_nil : ¬ HasHazard [] := by
  rintro ⟨body, op, hmem, -⟩
  cases hmem

theorem hasHazard_append {front back : List (Alternatives × Operator)} :
    HasHazard (front ++ back) ↔ HasHazard front ∨ HasHazard back := by
  simp only [HasHazard, List.mem_append, or_and_right, exists_or]

/-- What the screen keeps of a closed group. -/
def Alternatives.closed (body : Alternatives) : GroupBody :=
  ⟨body.operators.any Operator.isUnbounded, overlapping body.branches⟩

theorem Alternatives.isCostly_iff (body : Alternatives) :
    body.IsCostly ↔ body.closed.unbounded = true ∨ body.closed.overlapping = true := by
  simp [IsCostly, closed, overlap_iff, Operator.isUnbounded]

/-! ## Single lexemes -/

theorem hazard?_isSome_iff {t : ScreenState} {q : Quantifier} :
    (t.hazard? q).isSome = true ↔ q.isWide = true ∧
      ∃ body, t.lastGroup = some body ∧ (body.unbounded = true ∨ body.overlapping = true) := by
  unfold ScreenState.hazard?
  cases t.lastGroup with
  | none => simp
  | some body =>
      cases hwide : q.isWide with
      | false => simp
      | true =>
          rw [repeats_of_isWide hwide]
          cases hbody : body.unbounded <;> cases hoverlap : body.overlapping <;>
            simp [hbody, hoverlap]

theorem Operator.isWide_iff (op : Operator) (extra : Nat) :
    op.IsWide ↔ Quantifier.isWide ⟨op.repetition.max?, extra⟩ = true := by
  unfold IsWide Quantifier.isWide
  cases op.repetition.max? <;> simp

theorem Operator.reads (op : Operator) {t : ScreenState} {body? : Option Alternatives}
    (hlast : t.lastGroup = body?.map Alternatives.closed) {rest : List Char}
    (hrest : IsBoundary rest) :
    Reads t op.text rest (∃ body, body? = some body ∧ op.IsWide ∧ body.IsCostly)
      (· = t.take op.text op.isUnbounded none) := by
  obtain ⟨c, tail, htext, hc, hread⟩ := op.exists_read? hrest
  have hscreen := screenFrom_operator (t := t) hc hread
  have hhazard : (t.hazard? ⟨op.repetition.max?, tail.length⟩).isSome = true ↔
      ∃ body, body? = some body ∧ op.IsWide ∧ body.IsCostly := by
    rw [hazard?_isSome_iff, ← op.isWide_iff, hlast]
    cases body? <;> simp [Alternatives.isCostly_iff]
  cases hfound : t.hazard? ⟨op.repetition.max?, tail.length⟩ with
  | some hazard =>
      rw [hfound] at hscreen hhazard
      have hrefused : screenFrom t (op.text ++ rest) = .error (.hazard hazard) := by
        rw [htext]
        exact hscreen
      exact .refused (hhazard.1 rfl) hrefused
  | none =>
      rw [hfound] at hscreen hhazard
      refine .passes (mt hhazard.2 (by simp)) rfl ?_
      simpa [htext, ScreenState.repeatLast, ScreenState.take, Operator.isUnbounded,
        Quantifier.isUnbounded] using hscreen

/-- The screen opens a group of any prefix without flags. -/
theorem screenFrom_opening (t : ScreenState) (opening : GroupPrefix) {rest : List Char}
    (hrest : IsBoundary rest) :
    screenFrom t ('(' :: (opening.text ++ rest)) = screenFrom (t.openGroup []) rest := by
  have hopens : flagGroup? (opening.text ++ rest) = none ∧
      groupOpening (opening.text ++ rest) = .ok ⟨opening.text.length, []⟩ := by
    cases opening with
    | capturing =>
        cases rest with
        | nil => exact ⟨rfl, rfl⟩
        | cons c rest =>
            have hmark : c ≠ '?' := (hrest c rfl).1
            simp [GroupPrefix.text, flagGroup?, groupOpening, hmark]
    | bare => exact ⟨rfl, rfl⟩
    | named name =>
        have hsplit : splitFirst? '>' ('<' :: (name.text ++ '>' :: rest)) =
            some ('<' :: name.text, rest) :=
          splitFirst?_eq_some_iff.2 ⟨by simpa using name.closed, by simp⟩
        refine ⟨rfl, ?_⟩
        simp [groupOpening, GroupPrefix.text, hsplit]
    | namedP name =>
        have hsplit : splitFirst? '>' ('P' :: '<' :: (name.text ++ '>' :: rest)) =
            some ('P' :: '<' :: name.text, rest) :=
          splitFirst?_eq_some_iff.2 ⟨by simpa using name.closed, by simp⟩
        refine ⟨rfl, ?_⟩
        simp [groupOpening, GroupPrefix.text, hsplit]
  rw [screenFrom_open hopens.1 hopens.2, List.drop_left]

/-- The screen ends a class at the first closing bracket. -/
theorem ClassBody.exists_classExtent (body : ClassBody) (negated : Bool) (rest : List Char) :
    ∃ extent, classExtent ((if negated then ['^'] else []) ++ (body.text ++ ']' :: rest)) =
        .ok extent ∧
      ((if negated then ['^'] else []) ++ (body.text ++ ']' :: rest)).drop extent = rest := by
  have hrest : classRest 1 (body.text ++ ']' :: rest) = some rest := by
    rw [classRest_append_members body.members]
    rfl
  obtain ⟨extent, htail, hdrop⟩ := classTail_of_classRest hrest
  obtain ⟨c, members, hbody⟩ := List.exists_cons_of_ne_nil body.ne_nil
  have hclose : c ≠ ']' := by
    rintro rfl
    exact body.members ']' (by simp [hbody]) (by decide)
  rw [hbody] at htail hdrop ⊢
  cases negated with
  | true =>
      refine ⟨extent + 1, ?_, hdrop⟩
      simp only [if_true, List.cons_append, List.nil_append] at htail ⊢
      unfold classExtent
      split <;> simp_all [Except.map]
  | false =>
      have hmark : c ≠ '^' := by
        rintro rfl
        exact body.unmarked (by simp [hbody])
      refine ⟨extent, ?_, hdrop⟩
      simp only [Bool.false_eq_true, if_false, List.cons_append, List.nil_append] at htail ⊢
      unfold classExtent
      split <;> simp_all

/-- The screen takes a class for text. -/
theorem screenFrom_members (t : ScreenState) (mark : GroupPrefix → List Char) (negated : Bool)
    (body : ClassBody) (rest : List Char) :
    screenFrom t ((Atom.members negated body).text mark ++ rest) =
      screenFrom (t.push ((Atom.members negated body).text mark)) rest := by
  obtain ⟨extent, hextent, hdrop⟩ := body.exists_classExtent negated rest
  have htake : ((if negated then ['^'] else []) ++ (body.text ++ ']' :: rest)).take extent =
      (if negated then ['^'] else []) ++ (body.text ++ [']']) := by
    have hwhole := List.take_append_drop extent
      ((if negated then ['^'] else []) ++ (body.text ++ ']' :: rest))
    rw [hdrop] at hwhole
    exact List.append_cancel_right (hwhole.trans (by simp))
  have hblank : isBlank '[' = false := by decide
  have hstep : screenStep t '[' ((if negated then ['^'] else []) ++ (body.text ++ ']' :: rest)) =
      .ok (t.push ((Atom.members negated body).text mark), extent) := by
    simp [screenStep, hblank, hextent, htake, Except.mapError, Atom.text]
  have hscreen := screenFrom_of_screenStep hstep
  rw [hdrop] at hscreen
  simpa [Atom.text] using hscreen

/-! ## Boundaries -/

theorem isBoundary_cons {c : Char} (hquestion : c ≠ '?') (hplus : c ≠ '+') (rest : List Char) :
    IsBoundary (c :: rest) := by
  rintro _ ⟨⟩
  exact ⟨hquestion, hplus⟩

theorem Atom.isBoundary (atom : Atom) (mark : GroupPrefix → List Char) (rest : List Char) :
    IsBoundary (atom.text mark ++ rest) := by
  cases atom with
  | char c hplain =>
      refine isBoundary_cons ?_ ?_ rest <;> rintro rfl <;> exact hplain (by decide)
  | escape kind hkind => exact isBoundary_cons (by decide) (by decide) _
  | members negated body => exact isBoundary_cons (by decide) (by decide) _
  | group opening body => exact isBoundary_cons (by decide) (by decide) _

theorem Branch.isBoundary (branch : Branch) (mark : GroupPrefix → List Char) {rest : List Char}
    (hrest : IsBoundary rest) : IsBoundary (branch.text mark ++ rest) := by
  cases branch with
  | done => exact hrest
  | piece atom op more =>
      rw [Branch.text, List.append_assoc]
      exact atom.isBoundary mark _

theorem Alternatives.texts_ne_nil (alternatives : Alternatives) (mark : GroupPrefix → List Char) :
    alternatives.texts mark ≠ [] := by
  cases alternatives <;> simp [Alternatives.texts]

theorem joinWith_cons {pieces : List (List Char)} (hpieces : pieces ≠ []) (separator : Char)
    (piece : List Char) :
    joinWith [separator] (piece :: pieces) =
      piece ++ separator :: joinWith [separator] pieces := by
  cases pieces with
  | nil => exact absurd rfl hpieces
  | cons next pieces => simp [joinWith]

theorem Alternatives.isBoundary (alternatives : Alternatives) (mark : GroupPrefix → List Char)
    {rest : List Char} (hrest : IsBoundary rest) :
    IsBoundary (joinWith ['|'] (alternatives.texts mark) ++ rest) := by
  cases alternatives with
  | last branch => exact branch.isBoundary mark hrest
  | more branch others =>
      rw [Alternatives.texts, joinWith_cons (others.texts_ne_nil mark), List.append_assoc]
      exact branch.isBoundary mark (isBoundary_cons (by decide) (by decide) _)

/-! ## The screen along a tree -/

/-- The screen behind the alternatives of a group. -/
structure TakesAll (t : ScreenState) (alternatives : Alternatives) (after : ScreenState) :
    Prop where
  outer : after.outer = t.outer
  verbose : after.frame.verbose = false
  unbounded : after.frame.unbounded =
    (t.frame.unbounded || alternatives.operators.any Operator.isUnbounded)
  branches : after.frame.branches ++ [after.frame.current] =
    t.frame.branches ++ alternatives.branches

theorem TakesAll.of_startBranch {t after : ScreenState} {branch : Branch} {others : Alternatives}
    {last : Option GroupBody} (hcurrent : t.frame.current = [])
    (hothers : TakesAll
      (t.take (branch.text fun _ => []) (branch.operators.any Operator.isUnbounded)
        last).startBranch others after) : TakesAll t (.more branch others) after where
  outer := hothers.outer
  verbose := hothers.verbose
  unbounded := by
    rw [hothers.unbounded, Alternatives.operators, List.any_append, ← Bool.or_assoc]
    rfl
  branches := by
    rw [hothers.branches]
    simp [ScreenState.startBranch, ScreenState.take, hcurrent, Alternatives.branches,
      Alternatives.texts]

/-- An operator behind an atom, or none. -/
theorem Atom.reads_operator (atom : Atom) (op : Option Operator) {t : ScreenState}
    (hlast : t.lastGroup = atom.body?.map Alternatives.closed) {rest : List Char}
    (hrest : IsBoundary rest) :
    Reads t (op.elim [] Operator.text) rest (HasHazard (atom.repeated op)) (fun after =>
      ∃ last, after =
        t.take (op.elim [] Operator.text) (op.toList.any Operator.isUnbounded) last) := by
  cases op with
  | none =>
      have hnone : atom.repeated none = [] := by
        unfold Atom.repeated
        split <;> simp_all
      refine .passes (hnone ▸ hasHazard_nil) ⟨t.lastGroup, ?_⟩ rfl
      simp [ScreenState.take]
  | some op =>
      refine (op.reads hlast hrest).mono ?_ ?_
      · unfold Atom.repeated
        cases atom.body? <;> simp [HasHazard]
      · rintro _ rfl
        exact ⟨none, by simp⟩

theorem TakesAll.closeGroup {t after : ScreenState} {body : Alternatives}
    (htakes : TakesAll (t.openGroup []) body after) :
    after.closeGroup = .ok (t.take ('(' :: (joinWith ['|'] body.branches ++ [')']))
      (body.operators.any Operator.isUnbounded) (some body.closed)) := by
  have houter : after.outer = t.frame :: t.outer := htakes.outer
  have hunbounded : after.frame.unbounded = body.operators.any Operator.isUnbounded := by
    simpa [ScreenState.openGroup] using htakes.unbounded
  have hbranches : after.frame.branches ++ [after.frame.current] = body.branches := by
    simpa [ScreenState.openGroup] using htakes.branches
  simp [ScreenState.closeGroup, houter, hunbounded, hbranches, ScreenState.take,
    Alternatives.closed]

mutual

theorem Alternatives.reads (alternatives : Alternatives) {t : ScreenState}
    (hverbose : t.frame.verbose = false) (hcurrent : t.frame.current = []) {rest : List Char}
    (hrest : IsBoundary rest) :
    Reads t (joinWith ['|'] (alternatives.texts GroupPrefix.text)) rest
      (HasHazard alternatives.repeatedGroups) (TakesAll t alternatives) := by
  match alternatives with
  | .last branch =>
      refine (branch.reads hverbose hrest).mono Iff.rfl ?_
      rintro _ ⟨last, rfl⟩
      exact ⟨rfl, hverbose, rfl, by simp [ScreenState.take, hcurrent, Alternatives.branches,
        Alternatives.texts]⟩
  | .more branch others =>
      rw [Alternatives.texts, joinWith_cons (others.texts_ne_nil _)]
      have hbar : IsBoundary (('|' :: joinWith ['|'] (others.texts GroupPrefix.text)) ++ rest) :=
        isBoundary_cons (by decide) (by decide) _
      refine ((branch.reads hverbose hbar).append ?_).mono hasHazard_append.symm fun _ => id
      rintro _ ⟨last, rfl⟩
      have hothers := others.reads (t := (t.take (branch.text fun _ => [])
        (branch.operators.any Operator.isUnbounded) last).startBranch) hverbose rfl hrest
      exact .of_screenFrom (screenFrom_bar _ _)
        (hothers.mono Iff.rfl fun after hafter => hafter.of_startBranch hcurrent)

theorem Branch.reads (branch : Branch) {t : ScreenState} (hverbose : t.frame.verbose = false)
    {rest : List Char} (hrest : IsBoundary rest) :
    Reads t (branch.text GroupPrefix.text) rest (HasHazard branch.repeatedGroups)
      (fun after => ∃ last, after =
        t.take (branch.text fun _ => []) (branch.operators.any Operator.isUnbounded) last) := by
  match branch with
  | .done =>
      refine .passes hasHazard_nil ⟨t.lastGroup, ?_⟩ rfl
      simp [ScreenState.take, Branch.text, Branch.operators]
  | .piece atom op more =>
      have hmore := more.isBoundary GroupPrefix.text hrest
      have hatom := atom.reads hverbose
        (op.elim [] Operator.text ++ more.text GroupPrefix.text ++ rest)
      rw [Branch.repeatedGroups]
      refine (hatom.append ?_).mono hasHazard_append.symm fun _ => id
      rintro _ rfl
      refine ((atom.reads_operator op rfl hmore).append ?_).mono hasHazard_append.symm fun _ => id
      rintro _ ⟨last, rfl⟩
      refine Reads.mono (more.reads ?_ hrest) Iff.rfl ?_
      · exact hverbose
      · rintro _ ⟨final, rfl⟩
        exact ⟨final, by simp [ScreenState.take_take, Branch.text, Branch.operators, Bool.or_assoc]⟩

theorem Atom.reads (atom : Atom) {t : ScreenState} (hverbose : t.frame.verbose = false)
    (rest : List Char) :
    Reads t (atom.text GroupPrefix.text) rest (HasHazard atom.repeatedGroups)
      (· = t.take (atom.text fun _ => []) (atom.operators.any Operator.isUnbounded)
        (atom.body?.map Alternatives.closed)) := by
  match atom with
  | .char c hplain =>
      have hvisible : IsVisible t.frame.verbose c := by simp [IsVisible, hverbose]
      exact .passes hasHazard_nil (t.push_eq_take [c]) (screenFrom_plain hvisible hplain rest)
  | .escape kind hkind =>
      have hextent : escapeExtent (kind :: rest) = .ok 1 := by
        simp only [List.mem_cons, List.not_mem_nil, or_false, not_or] at hkind
        simp [escapeExtent, hkind]
      have hblank : isBlank '\\' = false := by decide
      have hstep : screenStep t '\\' (kind :: rest) = .ok (t.push ['\\', kind], 1) := by
        simp [screenStep, hblank, hextent, Except.mapError]
      exact .passes hasHazard_nil (t.push_eq_take _) (screenFrom_of_screenStep hstep)
  | .members negated body =>
      exact .passes hasHazard_nil (t.push_eq_take _)
        (screenFrom_members t GroupPrefix.text negated body rest)
  | .group opening body =>
      have hclose : IsBoundary (')' :: rest) := isBoundary_cons (by decide) (by decide) rest
      have hopening := screenFrom_opening t opening (body.isBoundary GroupPrefix.text hclose)
      have htext : (Atom.group opening body).text GroupPrefix.text ++ rest =
          '(' :: (opening.text ++ (joinWith ['|'] (body.texts GroupPrefix.text) ++ ')' :: rest)) := by
        simp [Atom.text]
      have hbody := body.reads (t := t.openGroup []) hverbose rfl hclose
      cases hbody with
      | passes hsafe htakes hscreen =>
          refine .passes hsafe rfl ?_
          rw [htext, hopening, hscreen, screenFrom_close htakes.closeGroup]
          rfl
      | refused hhazardous hscreen =>
          exact .refused hhazardous (htext ▸ hopening.trans hscreen)

end

/-! ## Whole patterns -/

theorem screenFrom_render (tree : Alternatives) :
    (tree.IsHazardous → ∃ hazard, screenFrom {} tree.render = .error (.hazard hazard)) ∧
      (¬ tree.IsHazardous → ∃ last, screenFrom {} tree.render = .ok last) := by
  have hend : IsBoundary [] := by
    intro c hc
    cases hc
  have hreads : Reads {} tree.render [] tree.IsHazardous (TakesAll {} tree) :=
    tree.reads rfl rfl hend
  cases hreads with
  | @passes after hsafe htakes hscreen =>
      rw [List.append_nil] at hscreen
      refine ⟨fun hhazardous => absurd hhazardous hsafe, fun _ => ⟨after, ?_⟩⟩
      have houter : after.outer = [] := htakes.outer
      rw [hscreen, screenFrom, houter]
      rfl
  | @refused hazard hhazardous hscreen =>
      rw [List.append_nil] at hscreen
      exact ⟨fun _ => ⟨hazard, hscreen⟩, fun hsafe => absurd hhazardous hsafe⟩

/-- A pattern that is written from a tree and not too long is refused as unsafe if and only
if a group of the tree that repeats without bound or has overlapping alternatives is
repeated widely, and passes otherwise. -/
theorem checkSafety_exact (tree : Alternatives)
    (hlength : tree.pattern.utf8ByteSize ≤ maxLength) :
    ((∃ hazard, checkSafety tree.pattern = .error (.hazardous tree.pattern hazard)) ↔
      tree.IsHazardous) ∧
    (¬ tree.IsHazardous → checkSafety tree.pattern = .ok ()) := by
  obtain ⟨hrefused, hpasses⟩ := screenFrom_render tree
  rw [checkSafety, if_neg (by omega), Alternatives.pattern, String.toList_ofList]
  by_cases hhazardous : tree.IsHazardous
  · obtain ⟨hazard, hscreen⟩ := hrefused hhazardous
    rw [hscreen]
    exact ⟨iff_of_true ⟨hazard, rfl⟩ hhazardous, fun hsafe => absurd hhazardous hsafe⟩
  · obtain ⟨last, hscreen⟩ := hpasses hhazardous
    rw [hscreen]
    refine ⟨iff_of_false ?_ hhazardous, fun _ => rfl⟩
    rintro ⟨hazard, hfound⟩
    cases hfound

/-- The same group under two bounds: one more than what any group may have, and that. -/
theorem checkSafety_exact_two_bounds :
    let inner : Atom := .members true ⟨[','], by simp, by simp [IsMember], by simp⟩
    let body : Alternatives := .last (.piece inner (some ⟨.some, false⟩) .done)
    let upTo (most : Numeral) : Alternatives :=
      .last (.piece (.group .bare body) (some ⟨.between ⟨['2'], by simp, by simp [isDecimalDigit]⟩ most, true⟩)
        .done)
    let wide := upTo ⟨['1', '1'], by simp, by simp [isDecimalDigit]⟩
    let narrow := upTo ⟨['1', '0'], by simp, by simp [isDecimalDigit]⟩
    wide.pattern = "(?:[^,]+)\x7b2,11\x7d?" ∧ narrow.pattern = "(?:[^,]+)\x7b2,10\x7d?" ∧
      (∃ hazard, checkSafety wide.pattern = .error (.hazardous wide.pattern hazard)) ∧
      checkSafety narrow.pattern = .ok () := by
  intro inner body upTo wide narrow
  have hgroups : ∀ most, (upTo most).repeatedGroups =
      [(body, ⟨.between ⟨['2'], by simp, by simp [isDecimalDigit]⟩ most, true⟩)] := fun _ => rfl
  have hwide : wide.IsHazardous :=
    ⟨body, _, by rw [hgroups]; exact List.mem_cons_self, .inr ⟨11, by decide, by decide⟩,
      .inl ⟨⟨.some, false⟩, List.mem_cons_self, rfl⟩⟩
  have hnarrow : ¬ narrow.IsHazardous := by
    rintro ⟨found, op, hmem, hop, -⟩
    rw [hgroups, List.mem_singleton, Prod.mk.injEq] at hmem
    obtain ⟨-, rfl⟩ := hmem
    rcases hop with hnone | ⟨most, hmost, hlarge⟩
    · cases hnone
    · cases hmost
      revert hlarge
      decide
  refine ⟨by decide +kernel, by decide +kernel, ?_, ?_⟩
  · exact (checkSafety_exact wide (by decide +kernel)).1.2 hwide
  · exact (checkSafety_exact narrow (by decide +kernel)).2 hnarrow

end WorkflowAudit.Pattern
