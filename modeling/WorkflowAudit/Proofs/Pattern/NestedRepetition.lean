import Mathlib.Data.List.Forall2
import WorkflowAudit.Pattern.Compiler
import WorkflowAudit.Proofs.Pattern.Lexemes
import WorkflowAudit.Scan.Preparation

/-!
# Nested repetitions

A backtracking matcher takes exponential time over a group that repeats without
bound within a body that is repeated without bound itself.  The screen follows
the reader of expressions frame by frame, so it finds every such group whose
operator stands directly behind its parenthesis.  It forgets the group after one
operator: a second operator, directly behind the first, is not held against the
group that both repeat.
-/

namespace WorkflowAudit.Pattern

open Text Regex Regex.Reader

/-- Whether a repetition is wide and repeats a group whose body repeats something
without bound.  Operators may stand between the repetition and the group. -/
def isNested (found : Option Nat × Regex) : Bool :=
  found.1.all (maxNestedRepeat < ·) && found.2.base.groupBody?.any unbounded

/-- Whether no other operator stands between a nested repetition and its group. -/
def isDirectlyNested (found : Option Nat × Regex) : Bool :=
  isNested found && !found.2.isRepeated

theorem isDirectlyNested_iff {found : Option Nat × Regex} :
    isDirectlyNested found = true ↔
      found.1.all (maxNestedRepeat < ·) = true ∧
        ∃ body, found.2.groupBody? = some body ∧ body.unbounded = true := by
  obtain ⟨most, regex⟩ := found
  cases regex <;> simp [isDirectlyNested, isNested, isRepeated, base, groupBody?]

/-- A wide repetition of a group that has alternatives. -/
def IsWideChoice (found : Option Nat × Regex) : Prop :=
  found.1.all (maxNestedRepeat < ·) = true ∧
    ∃ alternatives, found.2.groupBody? = some (.choice alternatives)

/-! ## Plain patterns -/

/-- The newest item has been repeated by an operator without lazy mark. -/
def BehindEager (s : Reader) : Prop :=
  ∃ item items least most body, s.body.items = item :: items ∧
    item.regex = .repeated least most (!s.flags.swapGreed) body

/-- A place of a reading at which the screen and the reader mean the same by what
follows: the text is not verbose, no plus sign stands where it would be possessive,
and a class is a plain one. -/
structure IsPlainReading (place : Reader) (ahead : List Char) : Prop where
  verbose : place.flags.verbose = false
  possessive : BehindEager place → ahead.head? ≠ some '+'
  classes : ∀ rest, ahead = '[' :: rest → IsPlainClass place.flags rest

/-- A pattern all of whose places are plain. -/
def IsPlainPattern (pattern : String) : Prop :=
  ∀ place ahead, Reader.Visits {} pattern.toList place ahead → IsPlainReading place ahead

/-! ## Compact patterns -/

/-- The same place, were the text not verbose. -/
def inPlainText (s : Reader) : Reader := { s with flags := { s.flags with verbose := false } }

/-- A lexeme that means the same to the screen and to the reader, in verbose text too:
read as plain text, it ends where it ends as it is, up to what is dropped behind it; no
plus sign stands where it would be possessive; and a class is a plain one. -/
structure IsCompactLexeme (place : Reader) (c : Char) (rest : List Char) (next : Reader)
    (after : List Char) : Prop where
  extent : ∃ plain behind, (inPlainText place).step c rest = .ok (plain, behind) ∧
    skipVerbose next.flags.verbose behind = skipVerbose next.flags.verbose after ∧
    (BehindEager next → behind.head? ≠ some '+')
  classes : c = '[' → IsPlainClass (inPlainText place).flags rest

/-- A reading all of whose lexemes are compact. -/
def IsCompactFrom (s : Reader) (text : List Char) : Prop :=
  ∀ place ahead c rest next after, Reader.Visits s text place ahead →
    skipVerbose place.flags.verbose ahead = c :: rest → place.step c rest = .ok (next, after) →
    IsCompactLexeme place c rest next after

/-- A pattern in which blanks and comments stand between lexemes, or within a lexeme that
ends where it would end if they meant something. -/
def IsCompactPattern (pattern : String) : Prop := IsCompactFrom {} pattern.toList

theorem inPlainText_eq_self {s : Reader} (hverbose : s.flags.verbose = false) :
    inPlainText s = s := by
  obtain ⟨flags, body, outer, names⟩ := s
  obtain ⟨_, _, _, _, _, _, verbose⟩ := flags
  cases hverbose
  rfl

theorem isCompactPattern_of_isPlainPattern {pattern : String} (hplain : IsPlainPattern pattern) :
    IsCompactPattern pattern := by
  intro place ahead c rest next after hvisits hskip hstep
  have hhere := hplain place ahead hvisits
  have hnext := hplain next after (hvisits.next hskip hstep)
  have hself := inPlainText_eq_self hhere.verbose
  rw [hhere.verbose, skipVerbose_false] at hskip
  refine ⟨⟨next, after, by rw [hself]; exact hstep, rfl, hnext.possessive⟩, ?_⟩
  rintro rfl
  rw [hself]
  exact hhere.classes rest hskip

/-! ## The screen follows the reader -/

/-- The body of the group that has just been closed. -/
def lastBody? (s : Reader) : Option Regex :=
  s.body.items.head?.bind fun item => item.regex.groupBody?

/-- A frame of the screen and what the reader has collected for the same group. -/
structure FrameFollows (flags : Flags) (body : Regex.GroupBody) (frame : Frame) : Prop where
  verbose : frame.verbose = flags.verbose
  unbounded : frame.unbounded = true ↔ ∃ regex, body.Repeats (none, regex)
  branches : frame.branches = [] ↔ body.branches = []

/-- What the screen keeps of a closed group, and the body of the group. -/
structure GroupFollows (last : GroupBody) (body : Regex) : Prop where
  unbounded : last.unbounded = body.unbounded
  overlapping : last.overlapping = true → ∃ alternatives, body = .choice alternatives

structure Follows (s : Reader) (t : ScreenState) : Prop where
  inner : FrameFollows s.flags s.body t.frame
  outer : List.Forall₂ (fun opened frame => FrameFollows opened.flags opened.around frame)
    s.outer t.outer
  last : Option.Rel GroupFollows t.lastGroup (lastBody? s)

/-- What the screen has made of a text that the reader has read up to `after`. -/
inductive Screened (s : Reader) (t : ScreenState) (text : List Char) (next : Reader)
    (after : List Char) : Prop
  | follows {behind : ScreenState} (hscreen : screenFrom t text = screenFrom behind after)
      (hfollows : Follows next behind)
      (hnested : ∀ found, isDirectlyNested found = true → next.Repeats found → s.Repeats found)
  | nested {found : Option Nat × Regex}
      (hscreen : screenFrom t text = .error (.hazard .nestedRepetition))
      (hfound : isDirectlyNested found = true) (hrepeats : next.Repeats found)
  | overlapping {found : Option Nat × Regex}
      (hscreen : screenFrom t text = .error (.hazard .overlappingAlternatives))
      (hfound : IsWideChoice found) (hrepeats : next.Repeats found)

theorem follows_initial : Follows {} {} where
  inner := ⟨rfl, by simp [GroupBody.Repeats], iff_of_true rfl rfl⟩
  outer := .nil
  last := .none

theorem unbounded_eq_true_iff {regex : Regex} :
    regex.unbounded = true ↔ ∃ body, (none, body) ∈ regex.repetitions := by
  simp only [unbounded, List.any_eq_true, Option.isNone_iff_eq_none, Prod.exists]
  constructor
  · rintro ⟨_, body, hmem, rfl⟩
    exact ⟨body, hmem⟩
  · rintro ⟨body, hmem⟩
    exact ⟨none, body, hmem, rfl⟩

/-- An item without repetitions, and text for the screen. -/
theorem Follows.push {s : Reader} {t : ScreenState} (hfollows : Follows s t) {item : Item}
    (hitem : item.regex.repetitions = []) (hgroup : item.regex.groupBody? = none)
    (text : List Char) : Follows (s.push item) (t.push text) where
  inner := {
    verbose := hfollows.inner.verbose
    unbounded := by
      have hrepeats : ∀ found, (s.push item).body.Repeats found ↔ s.body.Repeats found := by
        intro found
        simp [Reader.push, GroupBody.repeats_push, hitem]
      simp only [hrepeats]
      exact hfollows.inner.unbounded
    branches := hfollows.inner.branches }
  outer := hfollows.outer
  last := by
    have hlast : lastBody? (s.push item) = none := hgroup
    rw [hlast]
    exact .none

theorem Follows.startBranch {s : Reader} {t : ScreenState} (hfollows : Follows s t) :
    Follows { s with body := s.body.startBranch } t.startBranch where
  inner := {
    verbose := hfollows.inner.verbose
    unbounded := by
      simp only [GroupBody.repeats_startBranch]
      exact hfollows.inner.unbounded
    branches := by simp [ScreenState.startBranch, Regex.GroupBody.startBranch] }
  outer := hfollows.outer
  last := .none

theorem Follows.openGroup {s : Reader} {t : ScreenState} (hfollows : Follows s t)
    {captures : Bool} {inner : Flags} {names : List (List Char)} {flags : List Char}
    (happly : s.flags.apply true [] flags = .ok inner) :
    Follows { s.openGroup captures inner with names } (t.openGroup flags) where
  inner := {
    verbose := by
      have hinner := verbose_of_apply happly
      rw [← hfollows.inner.verbose] at hinner
      exact hinner.symm
    unbounded := by simp [Reader.openGroup, ScreenState.openGroup, GroupBody.Repeats]
    branches := iff_of_true rfl rfl }
  outer := .cons hfollows.inner hfollows.outer
  last := .none

theorem Follows.setFlags {s : Reader} {t : ScreenState} (hfollows : Follows s t) {inner : Flags}
    {flags : List Char} (happly : s.flags.apply true [] flags = .ok inner) :
    Follows { s.push { regex := .empty, repeatable := false } with flags := inner }
      (t.setVerbose flags) where
  inner := {
    verbose := by
      have hinner := verbose_of_apply happly
      rw [← hfollows.inner.verbose] at hinner
      exact hinner.symm
    unbounded := by
      simp only [Reader.push, GroupBody.repeats_push, Bool.false_eq_true, false_and, or_false]
      exact hfollows.inner.unbounded
    branches := hfollows.inner.branches }
  outer := hfollows.outer
  last := .none

/-- Alternatives that overlap are alternatives: one alone overlaps with nothing. -/
theorem FrameFollows.groupFollows {flags : Flags} {body : Regex.GroupBody} {frame : Frame}
    (hframe : FrameFollows flags body frame) :
    GroupFollows ⟨frame.unbounded, overlapping (frame.branches ++ [frame.current])⟩
      body.close.regex where
  unbounded := by
    rw [Bool.eq_iff_iff, hframe.unbounded, unbounded_eq_true_iff]
    simp only [GroupBody.mem_repetitions_close]
  overlapping := by
    intro hoverlap
    cases hbranches : body.branches with
    | nil =>
        rw [hframe.branches.2 hbranches] at hoverlap
        cases hoverlap
    | cons first branches =>
        unfold Regex.GroupBody.close
        rw [hbranches]
        exact ⟨_, rfl⟩

/-- A group that the reader closes is closed by the screen, which then knows whether
the body repeats without bound. -/
theorem Follows.closeGroup {s next : Reader} {t : ScreenState} (hfollows : Follows s t)
    (hclose : s.closeGroup = .ok next) :
    ∃ behind, t.closeGroup = .ok behind ∧ Follows next behind := by
  obtain ⟨opened, outer, houter, rfl⟩ := exists_of_closeGroup hclose
  have hframes := hfollows.outer
  rw [houter, List.forall₂_cons_left_iff] at hframes
  obtain ⟨parent, parents, hparent, hparents, houter'⟩ := hframes
  have hgroup := hfollows.inner.groupFollows
  have hbody : t.frame.unbounded = true ↔
      ∃ body, (none, body) ∈ s.body.close.regex.repetitions := by
    rw [← unbounded_eq_true_iff, ← hgroup.unbounded]
  unfold ScreenState.closeGroup
  rw [houter']
  refine ⟨_, rfl, ⟨hparent.verbose, ?_, hparent.branches⟩, hparents, .some hgroup⟩
  simp only [Bool.or_eq_true, hparent.unbounded, hbody, GroupBody.repeats_push, repetitions,
    true_and, exists_or]

theorem Follows.repeatLast {s next : Reader} {t : ScreenState} (hfollows : Follows s t)
    {least : Nat} {most : Option Nat} {isLazy : Bool}
    (hrepeat : s.repeatLast least most isLazy = .ok next) {q : Quantifier} (hmost : q.max = most)
    (text : List Char) : Follows next (t.repeatLast q text) := by
  obtain ⟨item, items, hitems, hrepeatable, rfl⟩ := exists_of_repeatLast hrepeat
  refine ⟨⟨hfollows.inner.verbose, ?_, hfollows.inner.branches⟩, hfollows.outer, .none⟩
  simp only [ScreenState.repeatLast, Quantifier.isUnbounded, hmost, Bool.or_eq_true,
    hfollows.inner.unbounded, Option.isNone_iff_eq_none,
    GroupBody.repeats_repeated hitems hrepeatable, Prod.mk.injEq, exists_or, exists_and_left,
    exists_eq, and_true]
  exact or_congr_right eq_comm

/-! ## One step -/

theorem repeats_of_isWide {q : Quantifier} : q.isWide = true → q.repeats = true := by
  unfold Quantifier.isWide Quantifier.repeats maxNestedRepeat
  cases q.max with
  | none => exact fun _ => rfl
  | some bound =>
      simp only [Option.all_some, decide_eq_true_eq]
      omega

theorem hazard?_eq_nested_iff {t : ScreenState} {q : Quantifier} :
    t.hazard? q = some .nestedRepetition ↔
      q.max.all (maxNestedRepeat < ·) = true ∧
        ∃ body, t.lastGroup = some body ∧ body.unbounded = true := by
  change _ ↔ q.isWide = true ∧ _
  unfold ScreenState.hazard?
  cases t.lastGroup with
  | none => simp
  | some body =>
      cases hwide : q.isWide with
      | false => simp
      | true =>
          rw [repeats_of_isWide hwide]
          cases hbody : body.unbounded with
          | false => cases body.overlapping <;> simp [hbody]
          | true => simp [hbody]

theorem wide_of_hazard?_eq_overlapping {t : ScreenState} {q : Quantifier}
    (hhazard : t.hazard? q = some .overlappingAlternatives) :
    q.max.all (maxNestedRepeat < ·) = true ∧
      ∃ body, t.lastGroup = some body ∧ body.overlapping = true := by
  unfold ScreenState.hazard? at hhazard
  split at hhazard
  · cases hhazard
  · next body hlast =>
      split at hhazard
      · cases hhazard
      · next hwide =>
          split at hhazard
          · cases hhazard
          · split at hhazard
            · next hoverlap =>
                simp only [Bool.not_eq_true', Bool.not_eq_false, Bool.and_eq_true] at hwide
                exact ⟨hwide.2, body, hlast, hoverlap⟩
            · cases hhazard

theorem Follows.last_of_items {s : Reader} {t : ScreenState} (hfollows : Follows s t)
    {item : Item} {items : List Item} (hitems : s.body.items = item :: items) :
    Option.Rel GroupFollows t.lastGroup item.regex.groupBody? := by
  have hlast := hfollows.last
  rw [lastBody?, hitems] at hlast
  exact hlast

/-- The screen finds a nested repetition at an operator exactly where the reader adds
one. -/
theorem hazard?_eq_nested_iff_isDirectlyNested {s : Reader} {t : ScreenState}
    (hfollows : Follows s t) {item : Item} {items : List Item}
    (hitems : s.body.items = item :: items) (q : Quantifier) :
    t.hazard? q = some .nestedRepetition ↔ isDirectlyNested (q.max, item.regex) = true := by
  rw [hazard?_eq_nested_iff, isDirectlyNested_iff]
  apply and_congr_right
  intro _
  have hlast := hfollows.last_of_items hitems
  generalize t.lastGroup = last? at hlast ⊢
  generalize item.regex.groupBody? = body? at hlast ⊢
  cases hlast with
  | none => simp
  | some hgroup => simp [hgroup.unbounded]

theorem isWideChoice_of_hazard? {s : Reader} {t : ScreenState} (hfollows : Follows s t)
    {item : Item} {items : List Item} (hitems : s.body.items = item :: items) {q : Quantifier}
    (hhazard : t.hazard? q = some .overlappingAlternatives) :
    IsWideChoice (q.max, item.regex) := by
  obtain ⟨hwide, body, hbody, hoverlap⟩ := wide_of_hazard?_eq_overlapping hhazard
  refine ⟨hwide, ?_⟩
  have hlast := hfollows.last_of_items hitems
  rw [hbody] at hlast
  generalize item.regex.groupBody? = found? at hlast ⊢
  cases hlast with
  | some hgroup =>
      obtain ⟨alternatives, rfl⟩ := hgroup.overlapping hoverlap
      exact ⟨alternatives, rfl⟩

/-- The screen at an operator: it goes on, or it finds fault with the group that has
just been closed. -/
theorem screenFrom_operator {t : ScreenState} {c : Char} {rest : List Char} {q : Quantifier}
    (hc : c ∈ ['?', '*', '+', '\x7b']) (hread : Quantifier.read? c rest = some q) :
    screenFrom t (c :: rest) =
      match t.hazard? q with
      | some hazard => .error (.hazard hazard)
      | none => screenFrom (t.repeatLast q (c :: rest.take q.extra)) (rest.drop q.extra) := by
  rw [screenFrom, screenStep]
  simp only [List.mem_cons, List.not_mem_nil, or_false] at hc
  have hvisible : isBlank c = false ∧ c ≠ '#' := by
    rcases hc with rfl | rfl | rfl | rfl <;> exact ⟨by decide, by decide⟩
  cases hhazard : t.hazard? q with
  | none => rcases hc with rfl | rfl | rfl | rfl <;> simp [hvisible, hread, hhazard]
  | some hazard => rcases hc with rfl | rfl | rfl | rfl <;> simp [hvisible, hread, hhazard]

theorem screenFrom_open {t : ScreenState} {rest flags : List Char} {extra : Nat}
    (hnone : flagGroup? rest = none) (hopening : groupOpening rest = .ok ⟨extra, flags⟩) :
    screenFrom t ('(' :: rest) = screenFrom (t.openGroup flags) (rest.drop extra) := by
  have hblank : isBlank '(' = false := by decide
  have hstep : screenStep t '(' rest = .ok (t.openGroup flags, extra) := by
    simp [screenStep, hblank, hnone, hopening, Except.mapError]
  exact screenFrom_of_screenStep hstep

theorem screenFrom_close {t closed : ScreenState} (hclosed : t.closeGroup = .ok closed)
    (rest : List Char) : screenFrom t (')' :: rest) = screenFrom closed rest := by
  have hblank : isBlank ')' = false := by decide
  have hstep : screenStep t ')' rest = .ok (closed, 0) := by
    simp [screenStep, hblank, hclosed, Except.mapError]
  exact screenFrom_of_screenStep hstep

theorem screenFrom_bar (t : ScreenState) (rest : List Char) :
    screenFrom t ('|' :: rest) = screenFrom t.startBranch rest := by
  have hblank : isBlank '|' = false := by decide
  have hstep : screenStep t '|' rest = .ok (t.startBranch, 0) := by
    simp [screenStep, hblank]
  exact screenFrom_of_screenStep hstep

theorem screened_of_operator {s next : Reader} {t : ScreenState} (hfollows : Follows s t) {c : Char}
    {rest behind : List Char} {least : Nat} {most : Option Nat} {isLazy : Bool}
    (hread : ReadsOperator false c rest least most isLazy behind)
    (hrepeat : s.repeatLast least most isLazy = .ok next)
    (hpossessive : BehindEager next → behind.head? ≠ some '+') :
    Screened s t (c :: rest) next behind := by
  obtain ⟨item, items, hitems, -, hresult⟩ := exists_of_repeatLast hrepeat
  have heager : isLazy = false → behind.head? ≠ some '+' := by
    rintro rfl
    apply hpossessive
    rw [hresult]
    exact ⟨_, _, _, _, _, rfl, congrArg (Regex.repeated least most · item.regex)
      (Bool.false_beq _)⟩
  have hc : c ∈ ['?', '*', '+', '\x7b'] := by cases hread <;> simp
  obtain ⟨q, hq, rfl, hafter⟩ := read?_of_readsOperator hread heager
  have hscreen := screenFrom_operator (t := t) hc hq
  have hdirect := hazard?_eq_nested_iff_isDirectlyNested hfollows hitems q
  have hrepeats := repeats_of_repeatLast hrepeat hitems
  cases hhazard : t.hazard? q with
  | none =>
      rw [hhazard, hafter] at hscreen
      refine .follows hscreen (hfollows.repeatLast hrepeat rfl _) ?_
      intro found hfound hlater
      rcases (hrepeats found).1 hlater with hearlier | rfl
      · exact hearlier
      · rw [hdirect.2 hfound] at hhazard
        cases hhazard
  | some hazard =>
      rw [hhazard] at hscreen
      cases hazard with
      | nestedRepetition =>
          exact .nested hscreen (hdirect.1 hhazard) ((hrepeats _).2 (.inr rfl))
      | overlappingAlternatives =>
          exact .overlapping hscreen (isWideChoice_of_hazard? hfollows hitems hhazard)
            ((hrepeats _).2 (.inr rfl))

theorem screened_of_push {s : Reader} {t : ScreenState} (hfollows : Follows s t) {item : Item}
    (hitem : item.regex.repetitions = []) (hgroup : item.regex.groupBody? = none)
    {text after : List Char}
    (hscreen : ∃ pushed, screenFrom t text = screenFrom (t.push pushed) after) :
    Screened s t text (s.push item) after := by
  obtain ⟨pushed, hscreen⟩ := hscreen
  exact .follows hscreen (hfollows.push hitem hgroup pushed) fun found _ hlater =>
    (repeats_push_leaf hitem found).1 hlater

theorem screened_of_opening {s next : Reader} {t : ScreenState} (hfollows : Follows s t)
    {rest behind : List Char} {opening : Opening}
    (hread : readOpening false rest = .ok (opening, behind))
    (hopen : s.applyOpening opening = .ok next) : Screened s t ('(' :: rest) next behind := by
  have hrepeats := repeats_of_applyOpening hopen
  have hblank : isBlank '(' = false := by decide
  cases opened_of_readOpening hread hopen with
  | group names flags extra hnone hopening hextent happly =>
      have hscreen := screenFrom_open (t := t) hnone hopening
      rw [hextent] at hscreen
      exact .follows hscreen (hfollows.openGroup happly) fun found _ => (hrepeats found).1
  | setting flags hflags hextent happly =>
      have hstep : screenStep t '(' rest = .ok (t.setVerbose flags, flags.length + 2) := by
        simp [screenStep, hblank, hflags]
      have hscreen := screenFrom_of_screenStep hstep
      rw [hextent] at hscreen
      exact .follows hscreen (hfollows.setFlags happly) fun found _ => (hrepeats found).1

theorem screened_of_closing {s next : Reader} {t : ScreenState} (hfollows : Follows s t)
    (hclose : s.closeGroup = .ok next) (rest : List Char) :
    Screened s t (')' :: rest) next rest := by
  obtain ⟨behind, hclosed, hbehind⟩ := hfollows.closeGroup hclose
  exact .follows (screenFrom_close hclosed rest) hbehind fun found _ =>
    (repeats_of_closeGroup hclose found).1

theorem screened_of_branching {s : Reader} {t : ScreenState} (hfollows : Follows s t)
    (rest : List Char) :
    Screened s t ('|' :: rest) { s with body := s.body.startBranch } rest := by
  refine .follows (screenFrom_bar t rest) hfollows.startBranch ?_
  intro found _ hlater
  rw [Reader.Repeats, GroupBody.repeats_startBranch] at hlater
  exact hlater

/-- What means nothing behind a lexeme may be dropped, or left to the next step. -/
theorem Screened.of_skip {s next : Reader} {t : ScreenState} {text behind after : List Char}
    (hscreened : Screened s t text next behind)
    (hskip : skipVerbose next.flags.verbose behind = skipVerbose next.flags.verbose after) :
    Screened s t text next after := by
  cases hscreened with
  | @follows reached hscreen hfollows hnested =>
      rw [← hfollows.inner.verbose] at hskip
      have hdrop : screenFrom reached behind = screenFrom reached after := by
        rw [← screenFrom_skipVerbose, hskip, screenFrom_skipVerbose]
      exact .follows (hscreen.trans hdrop) hfollows hnested
  | nested hscreen hfound hrepeats => exact .nested hscreen hfound hrepeats
  | overlapping hscreen hfound hrepeats => exact .overlapping hscreen hfound hrepeats

/-- Where the reader takes one step over a compact lexeme, the screen follows or finds a
fault. -/
theorem screened_of_step {s next : Reader} {t : ScreenState} (hfollows : Follows s t) {c : Char}
    {rest after : List Char} (hvisible : IsVisible s.flags.verbose c)
    (hstep : s.step c rest = .ok (next, after)) (hcompact : IsCompactLexeme s c rest next after) :
    Screened s t (c :: rest) next after := by
  obtain ⟨plain, behind, hplain, hskip, hpossessive⟩ := hcompact.extent
  have hread := stepped_of_step hplain
  refine Screened.of_skip ?_ hskip
  cases stepped_of_step hstep with
  | opened hopening hopen =>
      obtain ⟨opening, hplain⟩ := hread.exists_readOpening
      rw [opening_eq_of_readOpening hopening hplain hskip] at hplain
      exact screened_of_opening hfollows hplain hopen
  | closed hclose =>
      rw [hread.after_eq (by decide)]
      exact screened_of_closing hfollows hclose rest
  | branched =>
      rw [hread.after_eq (by decide)]
      exact screened_of_branching hfollows rest
  | bracketed _ =>
      obtain ⟨value, hplain⟩ := hread.exists_readClass
      exact screened_of_push hfollows rfl rfl
        (screenFrom_of_readClass rfl (hcompact.classes rfl) hplain)
  | repeated hoperator hrepeat =>
      obtain ⟨least, most, isLazy, hplain⟩ := hread.exists_readsOperator hoperator.mem
      obtain ⟨_, _, _, _, rfl⟩ := exists_of_repeatLast hrepeat
      exact screened_of_operator hfollows (readsOperator_false hoperator hplain hskip) hrepeat
        hpossessive
  | escaped _ hregex =>
      obtain ⟨found, regex, hplain, hmeaning⟩ := hread.exists_readEscape
      have hleaf := isLeaf_primitive hregex
      exact screened_of_push hfollows hleaf.repetitions_eq_nil hleaf.groupBody?_eq_none
        (screenFrom_of_readEscape hplain hmeaning)
  | plain hc hleaf =>
      rw [hread.after_eq (by simp_all [signs])]
      rw [← hfollows.inner.verbose] at hvisible
      exact screened_of_push hfollows hleaf.repetitions_eq_nil hleaf.groupBody?_eq_none
        ⟨[c], screenFrom_plain hvisible hc rest⟩

/-! ## Whole patterns -/

theorem screened_of_run {s final : Reader} {t : ScreenState} {text : List Char}
    (hfollows : Follows s t) (hrun : s.run text = .ok final) (hcompact : IsCompactFrom s text) :
    Screened s t text final [] := by
  fun_induction run s text generalizing t with
  | case1 s text htext =>
      cases hrun
      rw [← hfollows.inner.verbose] at htext
      refine .follows ?_ hfollows fun _ _ => id
      rw [← screenFrom_skipVerbose, htext]
  | case2 => cases hrun
  | case3 s text c rest htext next after hstep ih =>
      have hhere := hcompact s text c rest next after .here htext hstep
      have hlater : IsCompactFrom next after := fun place ahead d tail further beyond hvisits =>
        hcompact place ahead d tail further beyond (.later htext hstep hvisits)
      have hstart : screenFrom t text = screenFrom t (c :: rest) := by
        rw [← screenFrom_skipVerbose, hfollows.inner.verbose, htext]
      -- A fault that has been found stays one, because the reader takes nothing back.
      cases screened_of_step hfollows (isVisible_of_skipVerbose htext) hstep hhere with
      | follows hscreen hbehind hnested =>
          cases ih hbehind hrun hlater with
          | follows hscreen' hfinal hnested' =>
              refine .follows (hstart.trans (hscreen.trans hscreen')) hfinal ?_
              exact fun found hfound hrepeats =>
                hnested found hfound (hnested' found hfound hrepeats)
          | nested hscreen' hfound hrepeats =>
              exact .nested (hstart.trans (hscreen.trans hscreen')) hfound hrepeats
          | overlapping hscreen' hfound hrepeats =>
              exact .overlapping (hstart.trans (hscreen.trans hscreen')) hfound hrepeats
      | nested hscreen hfound hrepeats =>
          exact .nested (hstart.trans hscreen) hfound (repeats_of_run hrun hrepeats)
      | overlapping hscreen hfound hrepeats =>
          exact .overlapping (hstart.trans hscreen) hfound (repeats_of_run hrun hrepeats)

/-- The three ways in which the screen can end on a pattern, and what its expression
repeats in each case. -/
inductive ScreenedWhole (pattern : String) (regex : Regex) : Prop
  | passed (behind : ScreenState) (hscreen : screenFrom {} pattern.toList = .ok behind)
      (hnone : ∀ found ∈ regex.repetitions, isDirectlyNested found = false)
  | nested (hscreen : screenFrom {} pattern.toList = .error (.hazard .nestedRepetition))
      (hfound : ∃ found ∈ regex.repetitions, isDirectlyNested found = true)
  | overlapping (hscreen : screenFrom {} pattern.toList = .error (.hazard .overlappingAlternatives))
      (hfound : ∃ found ∈ regex.repetitions, IsWideChoice found)

theorem screenFrom_of_isCompactPattern {pattern : String} {regex : Regex}
    (hparse : Regex.parse pattern = .ok regex) (hcompact : IsCompactPattern pattern) :
    ScreenedWhole pattern regex := by
  obtain ⟨final, hrun, houter, hrepeats⟩ := exists_run_of_parse hparse
  have hnone : ∀ found, ¬ Reader.Repeats {} found := by simp [Reader.Repeats, GroupBody.Repeats]
  cases screened_of_run follows_initial hrun hcompact with
  | @follows behind hscreen hfollows hnested =>
      have hframes := hfollows.outer
      rw [houter, List.forall₂_nil_left_iff] at hframes
      have hend : screenFrom behind [] = .ok behind := by simp [screenFrom, hframes]
      refine .passed behind (hscreen.trans hend) ?_
      intro found hmem
      rw [← Bool.not_eq_true]
      exact fun hfound => hnone found (hnested found hfound ((hrepeats found).1 hmem))
  | @nested found hscreen hfound hlater =>
      exact .nested hscreen ⟨found, (hrepeats found).2 hlater, hfound⟩
  | @overlapping found hscreen hfound hlater =>
      exact .overlapping hscreen ⟨found, (hrepeats found).2 hlater, hfound⟩

theorem screenFrom_of_parse {pattern : String} {regex : Regex}
    (hparse : Regex.parse pattern = .ok regex) (hplain : IsPlainPattern pattern) :
    ScreenedWhole pattern regex :=
  screenFrom_of_isCompactPattern hparse (isCompactPattern_of_isPlainPattern hplain)

/-! ## Walking through a reading -/

theorem forall_visits_of_step {s next : Reader} {c : Char} {text rest after : List Char}
    (hskip : skipVerbose s.flags.verbose text = c :: rest)
    (hstep : s.step c rest = .ok (next, after)) (hhere : IsPlainReading s text)
    (hlater : ∀ place ahead, Visits next after place ahead → IsPlainReading place ahead) :
    ∀ place ahead, Visits s text place ahead → IsPlainReading place ahead := by
  intro place ahead hvisits
  cases hvisits with
  | here => exact hhere
  | later hskip' hstep' hvisits =>
      obtain ⟨rfl, rfl⟩ := List.cons.inj (hskip.symm.trans hskip')
      obtain ⟨rfl, rfl⟩ := Prod.mk.inj (Except.ok.inj (hstep.symm.trans hstep'))
      exact hlater place ahead hvisits

theorem isPlainReading_of_item {place : Reader} {ahead : List Char}
    (hverbose : place.flags.verbose = false) (hbracket : ahead.head? ≠ some '[')
    (hitem : ∀ item ∈ place.body.items.head?, item.regex.isRepeated = true →
      ahead.head? ≠ some '+') : IsPlainReading place ahead where
  verbose := hverbose
  possessive := by
    rintro ⟨item, items, least, most, body, hitems, hregex⟩
    refine hitem item ?_ ?_
    · rw [hitems]
      rfl
    · rw [hregex]
      rfl
  classes rest heq := absurd (heq ▸ rfl) hbracket

theorem exists_of_parse_any (pattern : String) (p : Option Nat × Regex → Bool)
    (hany : (Regex.parse pattern).toOption.any (fun regex => regex.repetitions.any p) = true) :
    ∃ regex, Regex.parse pattern = .ok regex ∧ ∃ found ∈ regex.repetitions, p found = true := by
  cases hparse : Regex.parse pattern with
  | error fault =>
      rw [hparse] at hany
      cases hany
  | ok regex =>
      rw [hparse] at hany
      exact ⟨regex, rfl, List.any_eq_true.1 hany⟩

theorem isPlainPattern_repeatedPlus : IsPlainPattern "(a+)+" := by
  refine forall_visits_of_step (c := '(') rfl rfl
    (isPlainReading_of_item rfl (by decide) (by decide)) ?_
  refine forall_visits_of_step (c := 'a') rfl rfl
    (isPlainReading_of_item rfl (by decide) (by decide)) ?_
  refine forall_visits_of_step (c := '+') rfl rfl
    (isPlainReading_of_item rfl (by decide) (by decide)) ?_
  refine forall_visits_of_step (c := ')') rfl rfl
    (isPlainReading_of_item rfl (by decide) (by decide)) ?_
  refine forall_visits_of_step (c := '+') rfl rfl
    (isPlainReading_of_item rfl (by decide) (by decide)) ?_
  intro place ahead hvisits
  cases hvisits with
  | here => exact isPlainReading_of_item rfl (by decide) (by decide)
  | later hskip => cases hskip

/-! ## Refusal -/

/-- The pattern is refused as unsafe or too long, whatever the engine, and no library
has it built. -/
def IsKeptFromEngines (pattern : String) : Prop :=
  ∃ e : PatternError,
    ((∃ length, e = .tooLong length) ∨ ∃ hazard, e = .hazardous pattern hazard) ∧
    checkSafety pattern = .error e ∧
    ∀ engine : Engine, compile engine pattern = .error e ∧
      ∀ library : PatternLibrary, (library.insert engine pattern).built = library.built

theorem isKeptFromEngines_of_checkSafety {pattern : String} {e : PatternError}
    (hrefused : checkSafety pattern = .error e)
    (hreason : (∃ length, e = .tooLong length) ∨ ∃ hazard, e = .hazardous pattern hazard) :
    IsKeptFromEngines pattern := by
  refine ⟨e, hreason, hrefused, fun engine => ⟨?_, fun library => ?_⟩⟩
  · rw [compile, hrefused]
  · unfold PatternLibrary.insert
    split
    · rfl
    · simp [hrefused, Except.isOk, Except.toBool]

/-- A plain pattern whose expression repeats a group widely, directly behind its
parenthesis, and repeats without bound within it, is refused before any engine is
asked to build it.  Only an operator directly behind another one can hide such a
group: without a direct one, a plain pattern passes, unless it is too long or repeats
a group widely that has alternatives, and these overlap. -/
theorem checkSafety_finds_direct_nesting {pattern : String} {regex : Regex}
    (hparse : Regex.parse pattern = .ok regex) (hplain : IsPlainPattern pattern) :
    ((∃ found ∈ regex.repetitions, isNested found = true ∧ found.2.isRepeated = false) →
      IsKeptFromEngines pattern) ∧
    ((∀ found ∈ regex.repetitions, isNested found = true → found.2.isRepeated = true) →
      checkSafety pattern = .ok () ∨
        (maxLength < pattern.utf8ByteSize ∧
          checkSafety pattern = .error (.tooLong pattern.utf8ByteSize)) ∨
        (checkSafety pattern = .error (.hazardous pattern .overlappingAlternatives) ∧
          ∃ found ∈ regex.repetitions, IsWideChoice found)) := by
  by_cases hlength : pattern.utf8ByteSize > maxLength
  · have hrefused : checkSafety pattern = .error (.tooLong pattern.utf8ByteSize) := by
      rw [checkSafety, if_pos hlength]
    exact ⟨fun _ => isKeptFromEngines_of_checkSafety hrefused (.inl ⟨_, rfl⟩),
      fun _ => .inr (.inl ⟨hlength, hrefused⟩)⟩
  rcases screenFrom_of_parse hparse hplain with
    ⟨behind, hscreen, hnone⟩ | ⟨hscreen, found, hmem, hfound⟩ | ⟨hscreen, hchoice⟩
  · have hsafe : checkSafety pattern = .ok () := by
      simp only [checkSafety, if_neg hlength, hscreen]
    refine ⟨?_, fun _ => .inl hsafe⟩
    rintro ⟨found, hmem, hnested, hdirect⟩
    have hfalse := hnone found hmem
    simp [isDirectlyNested, hnested, hdirect] at hfalse
  · have hrefused : checkSafety pattern = .error (.hazardous pattern .nestedRepetition) := by
      simp only [checkSafety, if_neg hlength, hscreen]
    refine ⟨fun _ => isKeptFromEngines_of_checkSafety hrefused (.inr ⟨_, rfl⟩), ?_⟩
    intro hrepeated
    simp only [isDirectlyNested, Bool.and_eq_true, Bool.not_eq_true'] at hfound
    rw [hrepeated found hmem hfound.1] at hfound
    cases hfound.2
  · have hrefused : checkSafety pattern =
        .error (.hazardous pattern .overlappingAlternatives) := by
      simp only [checkSafety, if_neg hlength, hscreen]
    exact ⟨fun _ => isKeptFromEngines_of_checkSafety hrefused (.inr ⟨_, rfl⟩),
      fun _ => .inr (.inr ⟨hrefused, hchoice⟩)⟩

/-- The simplest nested repetition is plain and direct. -/
theorem checkSafety_finds_repeatedPlus :
    ∃ regex, Regex.parse "(a+)+" = .ok regex ∧ IsPlainPattern "(a+)+" ∧
      (∃ found ∈ regex.repetitions, isNested found = true ∧ found.2.isRepeated = false) ∧
      IsKeptFromEngines "(a+)+" := by
  obtain ⟨regex, hparse, found, hmem, hfound⟩ :=
    exists_of_parse_any "(a+)+" isDirectlyNested (by decide +kernel)
  simp only [isDirectlyNested, Bool.and_eq_true, Bool.not_eq_true'] at hfound
  have hkept := (checkSafety_finds_direct_nesting hparse isPlainPattern_repeatedPlus).1
    ⟨found, hmem, hfound⟩
  exact ⟨regex, hparse, isPlainPattern_repeatedPlus, ⟨found, hmem, hfound⟩, hkept⟩

/-- The expression of the pattern holds a nested repetition, and an engine is asked to
build it all the same. -/
def IsMissed (pattern : String) : Prop :=
  (∃ regex, Regex.parse pattern = .ok regex ∧
    ∃ found ∈ regex.repetitions, isNested found = true) ∧
  checkSafety pattern = .ok () ∧
  ∀ engine : Engine, (PatternLibrary.insert engine {} pattern).built = [pattern]

theorem isMissed_of_checkSafety {pattern : String}
    (hnested : (Regex.parse pattern).toOption.any
      (fun regex => regex.repetitions.any isNested) = true)
    (hsafe : checkSafety pattern = .ok ()) : IsMissed pattern := by
  refine ⟨exists_of_parse_any pattern isNested hnested, hsafe, ?_⟩
  intro engine
  simp [PatternLibrary.insert, PatternLibrary.get?, hsafe, Except.isOk, Except.toBool]

/-- What is not plain or not direct can be missed.  A second operator directly behind
the first repeats a group that the screen has forgotten; a plus sign behind an operator
repeats, and is taken for a possessive mark; and a closing bracket behind the bracket
of an inner class is a member, and is taken for the end of that class. -/
theorem checkSafety_misses_nesting :
    IsMissed "(a+)?\x7b2,\x7d" ∧ IsMissed "(a?+)+" ∧ IsMissed "(a+[[]](]])+[[]])]" := by
  refine ⟨isMissed_of_checkSafety ?_ ?_, isMissed_of_checkSafety ?_ ?_,
    isMissed_of_checkSafety ?_ ?_⟩ <;> decide +kernel

end WorkflowAudit.Pattern
