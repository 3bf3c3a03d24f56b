import Mathlib.Tactic.Common
import WorkflowAudit.Regex.Reader

/-!
# Repetitions in an expression

The repetitions of an expression are listed with what they repeat.  The reader
takes nothing back: a step either keeps the repetitions that have been read so
far or adds the one that its operator states, and the expression that comes out
in the end has exactly those.
-/

namespace WorkflowAudit.Regex

mutual

/-- The repetitions in an expression: their upper bounds, and what they repeat. -/
def repetitions : Regex → List (Option Nat × Regex)
  | .group _ body => repetitions body
  | .repeated _ most _ body => (most, body) :: repetitions body
  | .sequence parts => repetitionsOf parts
  | .choice branches => repetitionsOf branches
  | .empty | .chars _ _ | .assertion _ => []

def repetitionsOf : List Regex → List (Option Nat × Regex)
  | [] => []
  | part :: rest => repetitions part ++ repetitionsOf rest

end

theorem mem_repetitionsOf {parts : List Regex} {found : Option Nat × Regex} :
    found ∈ repetitionsOf parts ↔ ∃ part ∈ parts, found ∈ repetitions part := by
  induction parts with
  | nil => simp [repetitionsOf]
  | cons part parts ih => simp [repetitionsOf, ih]

/-- Whether something in an expression is repeated without bound. -/
def unbounded (regex : Regex) : Bool := regex.repetitions.any (·.1.isNone)

/-- What stands under operators that follow each other directly. -/
def base : Regex → Regex
  | .repeated _ _ _ body => base body
  | regex => regex

def groupBody? : Regex → Option Regex
  | .group _ body => some body
  | _ => none

def isRepeated : Regex → Bool
  | .repeated .. => true
  | _ => false

/-! ## What the reader has collected -/

namespace GroupBody

/-- A repetition in one of the finished alternatives or in the one at hand. -/
def Repeats (body : GroupBody) (found : Option Nat × Regex) : Prop :=
  (∃ item ∈ body.branches, found ∈ item.regex.repetitions) ∨
    ∃ item ∈ body.items, item.repeatable = true ∧ found ∈ item.regex.repetitions

theorem mem_repetitions_branch {body : GroupBody} {found : Option Nat × Regex} :
    found ∈ body.branch.regex.repetitions ↔
      ∃ item ∈ body.items, item.repeatable = true ∧ found ∈ item.regex.repetitions := by
  have hparts : (∃ part ∈ (body.items.filter Item.repeatable).map Item.regex,
      found ∈ part.repetitions) ↔
      ∃ item ∈ body.items, item.repeatable = true ∧ found ∈ item.regex.repetitions := by
    simp [and_assoc]
  rw [← hparts]
  unfold branch
  dsimp only
  split
  · next hnil => simp [hnil, repetitions]
  · next part hone => simp [hone]
  · next parts _ _ => simp [repetitions, mem_repetitionsOf]

theorem mem_repetitions_close {body : GroupBody} {found : Option Nat × Regex} :
    found ∈ body.close.regex.repetitions ↔ body.Repeats found := by
  unfold close Repeats
  rw [← mem_repetitions_branch]
  split
  · next hnil => simp [hnil]
  · next branches _ => simp [repetitions, mem_repetitionsOf, or_comm]

theorem repeats_push {body : GroupBody} {item : Item} {found : Option Nat × Regex} :
    (body.push item).Repeats found ↔
      body.Repeats found ∨ item.repeatable = true ∧ found ∈ item.regex.repetitions := by
  simp only [Repeats, push, List.mem_cons, or_and_right, exists_or, exists_eq_left]
  rw [or_assoc]
  exact or_congr_right or_comm

/-- An operator adds one repetition, that of the newest item. -/
theorem repeats_repeated {body : GroupBody} {item : Item} {items : List Item}
    (hitems : body.items = item :: items) (hrepeatable : item.repeatable = true) {least : Nat}
    {most : Option Nat} {greedy : Bool} {depth : Nat} {found : Option Nat × Regex} :
    Repeats { body with
      items := { regex := .repeated least most greedy item.regex, depth } :: items } found ↔
      body.Repeats found ∨ found = (most, item.regex) := by
  simp only [Repeats, hitems, List.mem_cons, exists_eq_or_imp, repetitions, true_and, hrepeatable]
  grind

theorem repeats_startBranch {body : GroupBody} {found : Option Nat × Regex} :
    body.startBranch.Repeats found ↔ body.Repeats found := by
  simp only [Repeats, startBranch, List.mem_cons, exists_eq_or_imp, mem_repetitions_branch,
    List.not_mem_nil, false_and, exists_false, or_false]
  exact or_comm

end GroupBody

namespace Reader

/-- A repetition that has been read, in the innermost group or around it. -/
def Repeats (s : Reader) (found : Option Nat × Regex) : Prop :=
  s.body.Repeats found ∨ ∃ opened ∈ s.outer, opened.around.Repeats found

/-! ## What one step can do -/

/-- An expression without parts. -/
inductive IsLeaf : Regex → Prop
  | chars (set : CharSet) (unicode : Bool) : IsLeaf (.chars set unicode)
  | assertion (a : Assertion) : IsLeaf (.assertion a)

theorem IsLeaf.repetitions_eq_nil {regex : Regex} (hleaf : IsLeaf regex) :
    regex.repetitions = [] := by
  cases hleaf <;> rfl

theorem IsLeaf.groupBody?_eq_none {regex : Regex} (hleaf : IsLeaf regex) :
    regex.groupBody? = none := by
  cases hleaf <;> rfl

theorem isLeaf_literal (flags : Flags) (c : Char) : IsLeaf (flags.literal c) := by
  unfold Flags.literal
  split <;> exact .chars _ _

theorem isLeaf_primitive {flags : Flags} {found : Primitive} {regex : Regex}
    (hregex : found.regex flags = .ok regex) : IsLeaf regex := by
  unfold Primitive.regex at hregex
  split at hregex
  · split at hregex
    · cases hregex
    · cases hregex
      exact isLeaf_literal _ _
  · obtain ⟨_, _, rfl⟩ := map_eq_ok hregex
    exact .chars _ _
  · obtain ⟨_, _, rfl⟩ := map_eq_ok hregex
    exact .chars _ _
  all_goals
    cases hregex
    exact .assertion _

theorem isLeaf_dot {flags : Flags} {regex : Regex} (hregex : flags.dot = .ok regex) :
    IsLeaf regex := by
  unfold Flags.dot at hregex
  repeat' split at hregex
  all_goals cases hregex
  all_goals exact .chars _ _

/-- An operator that starts with a character: its bounds, whether it is lazy, and
the text behind it. -/
inductive ReadsOperator (verbose : Bool) :
    Char → List Char → Nat → Option Nat → Bool → List Char → Prop
  | optional {rest after : List Char} {isLazy : Bool} (hlazy : readLazy rest = (isLazy, after)) :
      ReadsOperator verbose '?' rest 0 (some 1) isLazy after
  | any {rest after : List Char} {isLazy : Bool} (hlazy : readLazy rest = (isLazy, after)) :
      ReadsOperator verbose '*' rest 0 none isLazy after
  | some {rest after : List Char} {isLazy : Bool} (hlazy : readLazy rest = (isLazy, after)) :
      ReadsOperator verbose '+' rest 1 none isLazy after
  | counted {rest behind after : List Char} {least : Nat} {most : Option Nat} {isLazy : Bool}
      (hbounds : readBounds verbose rest = .ok ((least, most), behind))
      (hlazy : readLazy (skipVerbose verbose behind) = (isLazy, after)) :
      ReadsOperator verbose '\x7b' rest least most isLazy after

/-- The characters that open, close, repeat or quote. -/
def signs : List Char := ['(', ')', '|', '[', '?', '*', '+', '\x7b', '\\']

/-- What one step of the reader has read, and what it has made of it. -/
inductive Stepped (s : Reader) : Char → List Char → Reader → List Char → Prop
  | opened {rest after : List Char} {opening : Opening} {next : Reader}
      (hread : readOpening s.flags.verbose rest = .ok (opening, after))
      (hopen : s.applyOpening opening = .ok next) : Stepped s '(' rest next after
  | closed {rest : List Char} {next : Reader} (hclose : s.closeGroup = .ok next) :
      Stepped s ')' rest next rest
  | branched {rest : List Char} : Stepped s '|' rest { s with body := s.body.startBranch } rest
  | bracketed {rest after : List Char} {value : ClassValue}
      (hread : readClass s.flags rest = .ok (value, after)) :
      Stepped s '[' rest
        (s.push { regex := .chars value.set s.flags.unicode, depth := value.depth }) after
  | repeated {c : Char} {rest after : List Char} {least : Nat} {most : Option Nat}
      {isLazy : Bool} {next : Reader}
      (hread : ReadsOperator s.flags.verbose c rest least most isLazy after)
      (hrepeat : s.repeatLast least most isLazy = .ok next) : Stepped s c rest next after
  | escaped {rest after : List Char} {found : Primitive} {regex : Regex}
      (hread : readEscape s.flags.verbose rest = .ok (found, after))
      (hregex : found.regex s.flags = .ok regex) :
      Stepped s '\\' rest (s.push { regex }) after
  | plain {c : Char} {rest : List Char} {regex : Regex}
      (hc : c ∉ signs) (hleaf : IsLeaf regex) :
      Stepped s c rest (s.push { regex }) rest

theorem repeatLast_of_repeatPlain {s next : Reader} {least : Nat} {most : Option Nat}
    {rest after : List Char} (hread : s.repeatPlain least most rest = .ok (next, after)) :
    ∃ isLazy, readLazy rest = (isLazy, after) ∧ s.repeatLast least most isLazy = .ok next := by
  obtain ⟨_, hrepeat, heq⟩ := map_eq_ok hread
  cases heq
  exact ⟨_, rfl, hrepeat⟩

theorem repeatLast_of_repeatCounted {s next : Reader} {rest after : List Char}
    (hread : s.repeatCounted rest = .ok (next, after)) :
    ∃ least most isLazy behind, readBounds s.flags.verbose rest = .ok ((least, most), behind) ∧
      readLazy (skipVerbose s.flags.verbose behind) = (isLazy, after) ∧
      s.repeatLast least most isLazy = .ok next := by
  unfold repeatCounted at hread
  split at hread
  · cases hread
  · next hbounds =>
      obtain ⟨_, hrepeat, heq⟩ := map_eq_ok hread
      cases heq
      exact ⟨_, _, _, _, hbounds, rfl, hrepeat⟩

theorem stepped_of_not_mem_signs {s next : Reader} {c : Char} {rest after : List Char}
    (hc : c ∉ signs) (hstep : s.step c rest = .ok (next, after)) :
    Stepped s c rest next after := by
  have hother := hc
  simp only [signs, List.mem_cons, List.not_mem_nil, or_false, not_or] at hother
  simp only [step, beq_iff_eq, hother, if_false] at hstep
  split at hstep
  · obtain ⟨_, hdot, heq⟩ := map_eq_ok hstep
    cases heq
    exact .plain hc (isLeaf_dot hdot)
  split at hstep
  · cases hstep
    exact .plain hc (.assertion _)
  split at hstep
  · cases hstep
    exact .plain hc (.assertion _)
  cases hstep
  exact .plain hc (isLeaf_literal _ _)

theorem stepped_of_step {s next : Reader} {c : Char} {rest after : List Char}
    (hstep : s.step c rest = .ok (next, after)) : Stepped s c rest next after := by
  by_cases hc : c ∈ signs
  · simp only [signs, List.mem_cons, List.not_mem_nil, or_false] at hc
    rcases hc with rfl | rfl | rfl | rfl | rfl | rfl | rfl | rfl | rfl
    · simp only [step, Char.reduceBEq, if_true] at hstep
      split at hstep
      · cases hstep
      · next hread =>
          obtain ⟨_, hopening, heq⟩ := map_eq_ok hstep
          cases heq
          exact .opened hread hopening
    · obtain ⟨_, hclosed, heq⟩ := map_eq_ok (x := s.closeGroup) hstep
      cases heq
      exact .closed hclosed
    · cases hstep
      exact .branched
    · obtain ⟨⟨_, _⟩, hread, heq⟩ := map_eq_ok (x := readClass s.flags rest) hstep
      cases heq
      exact .bracketed hread
    · obtain ⟨_, hlazy, hrepeat⟩ := repeatLast_of_repeatPlain hstep
      exact .repeated (.optional hlazy) hrepeat
    · obtain ⟨_, hlazy, hrepeat⟩ := repeatLast_of_repeatPlain hstep
      exact .repeated (.any hlazy) hrepeat
    · obtain ⟨_, hlazy, hrepeat⟩ := repeatLast_of_repeatPlain hstep
      exact .repeated (.some hlazy) hrepeat
    · obtain ⟨_, _, _, _, hbounds, hlazy, hrepeat⟩ := repeatLast_of_repeatCounted hstep
      exact .repeated (.counted hbounds hlazy) hrepeat
    · simp only [step, Char.reduceBEq, if_true, Bool.false_eq_true, if_false] at hstep
      split at hstep
      · cases hstep
      · next hread =>
          obtain ⟨_, hregex, heq⟩ := map_eq_ok hstep
          cases heq
          exact .escaped hread hregex
  · exact stepped_of_not_mem_signs hc hstep

theorem ReadsOperator.mem {verbose isLazy : Bool} {c : Char} {rest after : List Char}
    {least : Nat} {most : Option Nat}
    (hread : ReadsOperator verbose c rest least most isLazy after) :
    c ∈ ['?', '*', '+', '\x7b'] := by
  cases hread <;> simp

/-! What a step has read is told by its first character. -/

theorem Stepped.exists_readOpening {s next : Reader} {rest after : List Char}
    (hstep : Stepped s '(' rest next after) :
    ∃ opening, readOpening s.flags.verbose rest = .ok (opening, after) := by
  cases hstep with
  | opened hread _ => exact ⟨_, hread⟩
  | repeated hread _ => cases hread
  | plain hc _ => exact absurd (by decide) hc

theorem Stepped.exists_readClass {s next : Reader} {rest after : List Char}
    (hstep : Stepped s '[' rest next after) :
    ∃ value, readClass s.flags rest = .ok (value, after) := by
  cases hstep with
  | bracketed hread => exact ⟨_, hread⟩
  | repeated hread _ => cases hread
  | plain hc _ => exact absurd (by decide) hc

theorem Stepped.exists_readEscape {s next : Reader} {rest after : List Char}
    (hstep : Stepped s '\\' rest next after) :
    ∃ found regex, readEscape s.flags.verbose rest = .ok (found, after) ∧
      found.regex s.flags = .ok regex := by
  cases hstep with
  | repeated hread _ => cases hread
  | escaped hread hregex => exact ⟨_, _, hread, hregex⟩
  | plain hc _ => exact absurd (by decide) hc

theorem Stepped.exists_readsOperator {s next : Reader} {c : Char} {rest after : List Char}
    (hstep : Stepped s c rest next after) (hc : c ∈ ['?', '*', '+', '\x7b']) :
    ∃ least most isLazy, ReadsOperator s.flags.verbose c rest least most isLazy after := by
  cases hstep with
  | repeated hread _ => exact ⟨_, _, _, hread⟩
  | plain hother _ => exact absurd (by simp_all [signs]) hother
  | _ => simp at hc

theorem Stepped.after_eq {s next : Reader} {c : Char} {rest after : List Char}
    (hstep : Stepped s c rest next after)
    (hc : c ∉ ['(', '[', '?', '*', '+', '\x7b', '\\']) : after = rest := by
  cases hstep with
  | closed _ => rfl
  | branched => rfl
  | plain _ _ => rfl
  | repeated hread _ => cases hread <;> simp at hc
  | _ => simp at hc

/-! ## What one step keeps -/

theorem exists_of_repeatLast {s next : Reader} {least : Nat} {most : Option Nat} {isLazy : Bool}
    (hrepeat : s.repeatLast least most isLazy = .ok next) :
    ∃ item items, s.body.items = item :: items ∧ item.repeatable = true ∧
      next = { s with body := { s.body with
        items :=
          { regex := .repeated least most (isLazy == s.flags.swapGreed) item.regex
            depth := item.depth + 1 } :: items } } := by
  unfold repeatLast at hrepeat
  split at hrepeat
  · cases hrepeat
  · next item items hitems =>
      split at hrepeat
      · cases hrepeat
      · next hrepeatable =>
          cases hrepeat
          exact ⟨item, items, hitems, by simpa using hrepeatable, rfl⟩

theorem repeats_of_repeatLast {s next : Reader} {least : Nat} {most : Option Nat}
    {isLazy : Bool} (hrepeat : s.repeatLast least most isLazy = .ok next) {item : Item}
    {items : List Item} (hitems : s.body.items = item :: items) (found : Option Nat × Regex) :
    next.Repeats found ↔ s.Repeats found ∨ found = (most, item.regex) := by
  obtain ⟨item', items', hitems', hrepeatable, rfl⟩ := exists_of_repeatLast hrepeat
  obtain ⟨rfl, rfl⟩ := List.cons.inj (hitems.symm.trans hitems')
  simp only [Repeats, GroupBody.repeats_repeated hitems hrepeatable]
  exact or_right_comm

theorem exists_of_closeGroup {s next : Reader} (hclose : s.closeGroup = .ok next) :
    ∃ opened outer, s.outer = opened :: outer ∧
      next = { s with
        flags := opened.flags
        body := opened.around.push
          { regex := .group opened.captures s.body.close.regex
            depth := s.body.close.depth + 1 }
        outer := outer } := by
  unfold closeGroup at hclose
  split at hclose
  · cases hclose
  · next opened outer houter =>
      cases hclose
      exact ⟨opened, outer, houter, rfl⟩

theorem repeats_of_closeGroup {s next : Reader} (hclose : s.closeGroup = .ok next)
    (found : Option Nat × Regex) : next.Repeats found ↔ s.Repeats found := by
  obtain ⟨opened, outer, houter, rfl⟩ := exists_of_closeGroup hclose
  simp only [Repeats, houter, List.mem_cons, exists_eq_or_imp, GroupBody.repeats_push, repetitions,
    GroupBody.mem_repetitions_close, true_and]
  tauto

theorem repeats_push_leaf {s : Reader} {item : Item} (hleaf : item.regex.repetitions = [])
    (found : Option Nat × Regex) : (s.push item).Repeats found ↔ s.Repeats found := by
  simp [Repeats, push, GroupBody.repeats_push, hleaf]

theorem repeats_openGroup (s : Reader) (captures : Bool) (flags : Flags)
    (found : Option Nat × Regex) :
    (s.openGroup captures flags).Repeats found ↔ s.Repeats found := by
  simp [Repeats, openGroup, GroupBody.Repeats]

theorem repeats_of_applyOpening {s next : Reader} {opening : Opening}
    (hopen : s.applyOpening opening = .ok next) (found : Option Nat × Regex) :
    next.Repeats found ↔ s.Repeats found := by
  cases opening with
  | capture =>
      cases hopen
      exact repeats_openGroup ..
  | named name =>
      simp only [applyOpening] at hopen
      split at hopen
      · cases hopen
      · cases hopen
        exact repeats_openGroup s true s.flags found
  | flagged flags =>
      obtain ⟨_, _, rfl⟩ := map_eq_ok hopen
      exact repeats_openGroup ..
  | setting flags =>
      simp only [applyOpening] at hopen
      split at hopen
      · cases hopen
      · obtain ⟨_, _, rfl⟩ := map_eq_ok hopen
        exact repeats_push_leaf rfl found
  | lookAround => cases hopen

theorem Stepped.repeats {s next : Reader} {c : Char} {rest after : List Char}
    (hstep : Stepped s c rest next after) {found : Option Nat × Regex} (hfound : s.Repeats found) :
    next.Repeats found := by
  cases hstep with
  | opened _ hopen => exact (repeats_of_applyOpening hopen found).2 hfound
  | closed hclose => exact (repeats_of_closeGroup hclose found).2 hfound
  | branched =>
      rw [Repeats, GroupBody.repeats_startBranch]
      exact hfound
  | bracketed _ => exact (repeats_push_leaf rfl found).2 hfound
  | repeated _ hrepeat =>
      obtain ⟨item, items, hitems, -⟩ := exists_of_repeatLast hrepeat
      exact (repeats_of_repeatLast hrepeat hitems found).2 (.inl hfound)
  | escaped _ hregex =>
      exact (repeats_push_leaf (isLeaf_primitive hregex).repetitions_eq_nil found).2 hfound
  | plain _ hleaf => exact (repeats_push_leaf hleaf.repetitions_eq_nil found).2 hfound

theorem repeats_of_run {s final : Reader} {text : List Char} (hrun : s.run text = .ok final)
    {found : Option Nat × Regex} (hfound : s.Repeats found) : final.Repeats found := by
  fun_induction run s text with
  | case1 =>
      cases hrun
      exact hfound
  | case2 => cases hrun
  | case3 s text c rest htext next after hstep ih =>
      exact ih hrun ((stepped_of_step hstep).repeats hfound)

/-! ## Whole readings -/

/-- The places that a reading comes to: what has been read, and the text ahead. -/
inductive Visits : Reader → List Char → Reader → List Char → Prop
  | here {s : Reader} {text : List Char} : Visits s text s text
  | later {s next place : Reader} {c : Char} {text rest after ahead : List Char}
      (hskip : skipVerbose s.flags.verbose text = c :: rest)
      (hstep : s.step c rest = .ok (next, after)) (hlater : Visits next after place ahead) :
      Visits s text place ahead

theorem Visits.next {s place next : Reader} {c : Char} {text ahead rest after : List Char}
    (hvisits : Visits s text place ahead)
    (hskip : skipVerbose place.flags.verbose ahead = c :: rest)
    (hstep : place.step c rest = .ok (next, after)) : Visits s text next after := by
  induction hvisits with
  | here => exact .later hskip hstep .here
  | later hskip' hstep' _ ih => exact .later hskip' hstep' (ih hskip hstep)

end Reader

theorem parse_of_run {text : String} {final : Reader}
    (hrun : Reader.run {} text.toList = .ok final) (houter : final.outer = []) :
    parse text = if final.body.close.depth ≤ maxDepth then .ok final.body.close.regex
      else .error .tooDeep := by
  simp [parse, hrun, houter, bind, Except.bind, pure, Except.pure, throw, throwThe,
    MonadExceptOf.throw]

theorem parse_eq_ok_iff {text : String} {regex : Regex} :
    parse text = .ok regex ↔ ∃ final, Reader.run {} text.toList = .ok final ∧ final.outer = [] ∧
      final.body.close.depth ≤ maxDepth ∧ final.body.close.regex = regex := by
  constructor
  · intro hparse
    cases hrun : Reader.run {} text.toList with
    | error fault => simp [parse, hrun, bind, Except.bind] at hparse
    | ok final =>
        cases houter : final.outer with
        | nil =>
            rw [parse_of_run hrun houter] at hparse
            split at hparse
            · next hdepth => exact ⟨final, rfl, houter, hdepth, Except.ok.inj hparse⟩
            · cases hparse
        | cons opened outer =>
            simp [parse, hrun, houter, bind, Except.bind, throw, throwThe,
              MonadExceptOf.throw] at hparse
  · rintro ⟨final, hrun, houter, hdepth, rfl⟩
    rw [parse_of_run hrun houter, if_pos hdepth]

theorem parse_eq_unopened_iff {text : String} :
    parse text = .error .unopenedGroup ↔ Reader.run {} text.toList = .error .unopenedGroup := by
  unfold parse
  cases Reader.run {} text.toList with
  | error fault => simp [bind, Except.bind]
  | ok final =>
      simp only [bind, Except.bind, pure, Except.pure, throw, throwThe, MonadExceptOf.throw]
      grind

theorem exists_run_of_parse {text : String} {regex : Regex} (hparse : parse text = .ok regex) :
    ∃ final, Reader.run {} text.toList = .ok final ∧ final.outer = [] ∧
      ∀ found, found ∈ regex.repetitions ↔ final.Repeats found := by
  obtain ⟨final, hrun, houter, -, rfl⟩ := parse_eq_ok_iff.1 hparse
  refine ⟨final, hrun, houter, fun found => ?_⟩
  rw [GroupBody.mem_repetitions_close, Reader.Repeats, houter]
  simp

end WorkflowAudit.Regex
