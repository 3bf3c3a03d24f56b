import WorkflowAudit.Proofs.Regex.LocalReading
import WorkflowAudit.Proofs.Regex.OrderedBounds

/-!
# Expressions in parentheses between anchors

A reader that starts within a group reads as if the group were not there, up to the
parenthesis that closes it.  Readings are local, so when this is the parenthesis behind
the text, the text by itself has been read; and a text that closes the group earlier is
refused by itself.  In the other direction, a text that leaves the parenthesis behind it
alone is read in parentheses as it is by itself.
-/

namespace WorkflowAudit.Regex

open Text

/-! ## Unopened groups -/

theorem readHexDigits_ne_unopened (verbose : Bool) (count : Nat) (text : List Char) :
    readHexDigits verbose count text ≠ .error .unopenedGroup := by
  fun_induction readHexDigits verbose count text with
  | case1 => simp
  | case2 => simp
  | case3 count c rest goOn hc => simp [throw, throwThe, MonadExceptOf.throw, bind, Except.bind]
  | case4 count c rest goOn hc ih =>
      cases hread : readHexDigits verbose count (skipVerbose verbose rest) with
      | error fault => simpa [goOn, hread, bind, Except.bind] using ih
      | ok read => simp [goOn, hread, bind, Except.bind, pure, Except.pure]

theorem readBraced_ne_unopened (verbose : Bool) (text : List Char) :
    readBraced verbose text ≠ .error .unopenedGroup := by
  fun_induction readBraced verbose text <;> grind

theorem readCodeDigits_ne_unopened (verbose : Bool) (count : Nat) (text : List Char) :
    readCodeDigits verbose count text ≠ .error .unopenedGroup := by
  unfold readCodeDigits
  grind [readBraced_ne_unopened, readHexDigits_ne_unopened]

theorem readEscape_ne_unopened (verbose : Bool) (text : List Char) :
    readEscape verbose text ≠ .error .unopenedGroup := by
  cases text with
  | nil => simp [readEscape]
  | cons c rest =>
      cases readsEscape verbose c with
      | codePoint count hread =>
          rw [hread, readCodePoint]
          grind [readCodeDigits_ne_unopened]
      | property negated hread =>
          rw [hread, readProperty]
          grind [readBraced_ne_unopened]
      | wordEdge hread =>
          rw [hread, readWordEdge.eq_def]
          grind
      | single found hread => simp [hread]
      | none hread => simp [hread]

theorem negate_ne_unopened (flags : Flags) (negated : Bool) (set : CharSet) :
    flags.negate negated set ≠ .error .unopenedGroup := by
  unfold Flags.negate
  grind

theorem members_ne_unopened (flags : Flags) (found : Primitive) :
    found.members flags ≠ .error .unopenedGroup := by
  unfold Primitive.members LetterClass.set
  grind [negate_ne_unopened]

theorem rangeMembers_ne_unopened (flags : Flags) (low high : Primitive) :
    rangeMembers flags low high ≠ .error .unopenedGroup := by
  unfold rangeMembers Primitive.rangeEnd
  simp only [bind, Except.bind, pure, Except.pure, throw, throwThe, MonadExceptOf.throw]
  grind

theorem map_ne_unopened {α β : Type} {f : α → β} {x : Except Fault α}
    (hx : x ≠ .error .unopenedGroup) : x.map f ≠ .error .unopenedGroup := by
  cases x with
  | error fault => simpa [Except.map] using hx
  | ok a => simp [Except.map]

theorem readMember_ne_unopened (flags : Flags) (c : Char) (rest : List Char) :
    readMember flags c rest ≠ .error .unopenedGroup := by
  unfold readMember readPrimitive
  grind [map_ne_unopened, readEscape_ne_unopened, rangeMembers_ne_unopened, members_ne_unopened]

theorem classStep_ne_unopened (flags : Flags) (frame : ClassFrame) (outer : List ClassFrame)
    (c : Char) (rest : List Char) :
    classStep flags frame outer c rest ≠ .error .unopenedGroup := by
  unfold classStep closeClass ClassFrame.close
  grind [map_ne_unopened, readMember_ne_unopened, negate_ne_unopened]

theorem readClassFrom_ne_unopened (flags : Flags) (frame : ClassFrame) (outer : List ClassFrame)
    (text : List Char) : readClassFrom flags frame outer text ≠ .error .unopenedGroup := by
  fun_induction readClassFrom flags frame outer text <;> grind [classStep_ne_unopened]

theorem readClass_ne_unopened (flags : Flags) (text : List Char) :
    readClass flags text ≠ .error .unopenedGroup :=
  readClassFrom_ne_unopened flags _ [] _

theorem regex_ne_unopened (flags : Flags) (found : Primitive) :
    found.regex flags ≠ .error .unopenedGroup := by
  unfold Primitive.regex LetterClass.set
  grind [map_ne_unopened, members_ne_unopened, negate_ne_unopened]

theorem dot_ne_unopened (flags : Flags) : flags.dot ≠ .error .unopenedGroup := by
  unfold Flags.dot
  grind

theorem readBounds_ne_unopened (verbose : Bool) (text : List Char) :
    readBounds verbose text ≠ .error .unopenedGroup := by
  unfold readBounds
  grind

theorem readOpening_ne_unopened (verbose : Bool) (text : List Char) :
    readOpening verbose text ≠ .error .unopenedGroup := by
  unfold readOpening readName readFlags
  grind

theorem apply_ne_unopened (flags : Flags) (value : Bool) (seen : List Flag) (text : List Char) :
    flags.apply value seen text ≠ .error .unopenedGroup := by
  fun_induction Flags.apply flags value seen text <;> grind

namespace Reader

theorem repeatLast_ne_unopened (s : Reader) (least : Nat) (most : Option Nat) (isLazy : Bool) :
    s.repeatLast least most isLazy ≠ .error .unopenedGroup := by
  unfold repeatLast
  grind

theorem applyOpening_ne_unopened (s : Reader) (opening : Opening) :
    s.applyOpening opening ≠ .error .unopenedGroup := by
  cases opening with
  | capture => simp [applyOpening]
  | named name => grind [applyOpening]
  | flagged flags => exact map_ne_unopened (apply_ne_unopened s.flags true [] flags)
  | setting flags =>
      simp only [applyOpening]
      split
      · simp
      · exact map_ne_unopened (apply_ne_unopened s.flags true [] flags)
  | lookAround => simp [applyOpening]

/-- Only a parenthesis that closes no open group is refused as unopened. -/
theorem eq_close_of_step_eq_unopened {s : Reader} {c : Char} {rest : List Char}
    (hstep : s.step c rest = .error .unopenedGroup) : c = ')' ∧ s.outer = [] := by
  have hrepeat : ∀ least most, s.repeatPlain least most rest ≠ .error .unopenedGroup :=
    fun least most => map_ne_unopened (repeatLast_ne_unopened s least most _)
  by_cases hc : c ∈ signs
  · simp only [signs, List.mem_cons, List.not_mem_nil, or_false] at hc
    rcases hc with rfl | rfl | rfl | rfl | rfl | rfl | rfl | rfl | rfl
    · simp only [step, Char.reduceBEq, if_true] at hstep
      grind [map_ne_unopened, readOpening_ne_unopened, applyOpening_ne_unopened]
    · refine ⟨rfl, ?_⟩
      change s.closeGroup.map (·, rest) = _ at hstep
      unfold closeGroup at hstep
      split at hstep
      · assumption
      · cases hstep
    · cases hstep
    · exact (map_ne_unopened (readClass_ne_unopened s.flags rest) hstep).elim
    · exact (hrepeat _ _ hstep).elim
    · exact (hrepeat _ _ hstep).elim
    · exact (hrepeat _ _ hstep).elim
    · change s.repeatCounted rest = _ at hstep
      unfold repeatCounted at hstep
      grind [map_ne_unopened, readBounds_ne_unopened, repeatLast_ne_unopened]
    · simp only [step, Char.reduceBEq, if_true, Bool.false_eq_true, if_false] at hstep
      grind [map_ne_unopened, readEscape_ne_unopened, regex_ne_unopened]
  · simp only [signs, List.mem_cons, List.not_mem_nil, or_false, not_or] at hc
    simp only [step, beq_iff_eq, hc, if_false] at hstep
    grind [map_ne_unopened, dot_ne_unopened]

/-! ## Readers within a group -/

/-- A reader with one more group around all that it has read. -/
def within (s : Reader) (base : OpenGroup) : Reader := { s with outer := s.outer ++ [base] }

@[simp]
theorem flags_within (s : Reader) (base : OpenGroup) : (s.within base).flags = s.flags := rfl

@[simp]
theorem body_within (s : Reader) (base : OpenGroup) : (s.within base).body = s.body := rfl

theorem applyOpening_within (s : Reader) (base : OpenGroup) (opening : Opening) :
    (s.within base).applyOpening opening = (s.applyOpening opening).map (·.within base) := by
  cases opening with
  | capture => rfl
  | named name =>
      simp only [applyOpening]
      change (if s.names.contains name = true then _ else _) = _
      split <;> rfl
  | flagged flags =>
      change (s.flags.apply true [] flags).map _ = ((s.flags.apply true [] flags).map _).map _
      cases s.flags.apply true [] flags <;> rfl
  | setting flags =>
      simp only [applyOpening]
      split
      · rfl
      · change (s.flags.apply true [] flags).map _ = ((s.flags.apply true [] flags).map _).map _
        cases s.flags.apply true [] flags <;> rfl
  | lookAround => rfl

theorem repeatLast_within (s : Reader) (base : OpenGroup) (least : Nat) (most : Option Nat)
    (isLazy : Bool) :
    (s.within base).repeatLast least most isLazy =
      (s.repeatLast least most isLazy).map (·.within base) := by
  unfold repeatLast
  rw [body_within]
  cases s.body.items with
  | nil => rfl
  | cons item items =>
      dsimp only
      split <;> rfl

theorem closeGroup_within {s : Reader} (houter : s.outer ≠ []) (base : OpenGroup) :
    (s.within base).closeGroup = s.closeGroup.map (·.within base) := by
  obtain ⟨opened, outer, houter⟩ := List.exists_cons_of_ne_nil houter
  simp only [closeGroup, within, houter, List.cons_append]
  rfl

theorem repeatPlain_within (s : Reader) (base : OpenGroup) (least : Nat) (most : Option Nat)
    (rest : List Char) :
    (s.within base).repeatPlain least most rest =
      (s.repeatPlain least most rest).map fun (next, after) => (next.within base, after) := by
  simp only [repeatPlain, repeatLast_within]
  cases s.repeatLast least most (readLazy rest).1 <;> rfl

theorem repeatCounted_within (s : Reader) (base : OpenGroup) (rest : List Char) :
    (s.within base).repeatCounted rest =
      (s.repeatCounted rest).map fun (next, after) => (next.within base, after) := by
  simp only [repeatCounted, repeatLast_within, flags_within]
  cases readBounds s.flags.verbose rest with
  | error fault => rfl
  | ok read =>
      obtain ⟨⟨least, most⟩, after⟩ := read
      change ((s.repeatLast least most (readLazy (skipVerbose s.flags.verbose after)).1).map
        (·.within base)).map _ = ((s.repeatLast least most _).map _).map _
      cases s.repeatLast least most (readLazy (skipVerbose s.flags.verbose after)).1 <;> rfl

/-- A step within a group, unless it closes that group, is the step without it. -/
theorem step_within {s : Reader} {c : Char} {rest : List Char}
    (hopen : ¬(c = ')' ∧ s.outer = [])) (base : OpenGroup) :
    (s.within base).step c rest =
      (s.step c rest).map fun (next, after) => (next.within base, after) := by
  by_cases hc : c ∈ signs
  · simp only [signs, List.mem_cons, List.not_mem_nil, or_false] at hc
    rcases hc with rfl | rfl | rfl | rfl | rfl | rfl | rfl | rfl | rfl
    · simp only [step, Char.reduceBEq, if_true, applyOpening_within, flags_within]
      cases readOpening s.flags.verbose rest with
      | error fault => rfl
      | ok read =>
          dsimp only
          cases s.applyOpening read.1 <;> rfl
    · change (s.within base).closeGroup.map _ = (s.closeGroup.map _).map _
      rw [closeGroup_within (fun houter => hopen ⟨rfl, houter⟩)]
      cases s.closeGroup <;> rfl
    · rfl
    · change (readClass s.flags rest).map _ = ((readClass s.flags rest).map _).map _
      cases readClass s.flags rest <;> rfl
    · exact repeatPlain_within s base _ _ rest
    · exact repeatPlain_within s base _ _ rest
    · exact repeatPlain_within s base _ _ rest
    · exact repeatCounted_within s base rest
    · simp only [step, Char.reduceBEq, if_true, Bool.false_eq_true, if_false, flags_within]
      cases readEscape s.flags.verbose rest with
      | error fault => rfl
      | ok read =>
          dsimp only
          cases read.1.regex s.flags <;> rfl
  · simp only [signs, List.mem_cons, List.not_mem_nil, or_false, not_or] at hc
    simp only [step, beq_iff_eq, hc, if_false]
    split
    · change s.flags.dot.map _ = (s.flags.dot.map _).map _
      cases s.flags.dot <;> rfl
    · split
      · rfl
      · split <;> rfl

/-- A reading goes on alike within a group. -/
theorem Visits.within {s place : Reader} {text ahead : List Char}
    (hvisits : Visits s text place ahead) (base : OpenGroup) :
    Visits (s.within base) text (place.within base) ahead := by
  induction hvisits with
  | here => exact .here
  | @later s next place c text rest after ahead hskip hstep _ ih =>
      refine .later hskip ?_ ih
      have hopen : ¬(c = ')' ∧ s.outer = []) := by
        rintro ⟨rfl, houter⟩
        change s.closeGroup.map _ = _ at hstep
        simp [closeGroup, houter, Except.map] at hstep
      rw [step_within hopen, hstep]
      rfl

/-- What closing the group around all that has been read leaves. -/
def closeInto (s : Reader) (base : OpenGroup) : Reader :=
  { s with
    flags := base.flags
    body := base.around.push
      { regex := .group base.captures s.body.close.regex, depth := s.body.close.depth + 1 }
    outer := [] }

theorem step_close_within {s : Reader} (houter : s.outer = []) (base : OpenGroup)
    (rest : List Char) : (s.within base).step ')' rest = .ok (s.closeInto base, rest) := by
  change (s.within base).closeGroup.map _ = _
  simp only [closeGroup, within, houter, List.nil_append]
  rfl

/-- A reading within a group that ends without open groups has closed that group: up
to there it is the reading without it. -/
theorem exists_close_of_run_within {s final : Reader} {text : List Char} {base : OpenGroup}
    (hrun : (s.within base).run text = .ok final) (hfinal : final.outer = []) :
    ∃ place ahead after, Visits s text place ahead ∧ place.outer = [] ∧
      skipVerbose place.flags.verbose ahead = ')' :: after ∧
      (place.closeInto base).run after = .ok final := by
  -- By induction on the reading within the group; the first parenthesis that finds no
  -- group of `s` open closes it, and a reading that never comes to one leaves it open.
  generalize hs : s.within base = inner at hrun
  fun_induction run inner text generalizing s with
  | case1 inner text hskip =>
      cases hrun
      simp [← hs, within] at hfinal
  | case2 => cases hrun
  | case3 inner text c rest hskip next after hstep ih =>
      subst hs
      by_cases hclose : c = ')' ∧ s.outer = []
      · obtain ⟨rfl, houter⟩ := hclose
        rw [step_close_within houter] at hstep
        cases hstep
        exact ⟨s, text, rest, .here, houter, hskip, hrun⟩
      · rw [step_within hclose] at hstep
        obtain ⟨⟨next', after'⟩, hstep', heq⟩ := map_eq_ok hstep
        cases heq
        obtain ⟨place, ahead, behind, hvisits, hend⟩ := ih rfl hrun
        exact ⟨place, ahead, behind, .later hskip hstep' hvisits, hend⟩

/-! ## Texts in parentheses between anchors -/

theorem run_of_skip {s : Reader} {text : List Char}
    (hskip : skipVerbose s.flags.verbose text = []) : s.run text = .ok s := by
  rw [run.eq_def]
  grind

/-- A reading that comes to a closing parenthesis where no group is open is refused. -/
theorem Visits.run_eq_unopened {s place : Reader} {text ahead after : List Char}
    (hvisits : Visits s text place ahead) (houter : place.outer = [])
    (hskip : skipVerbose place.flags.verbose ahead = ')' :: after) :
    s.run text = .error .unopenedGroup := by
  have hclose : place.step ')' after = .error .unopenedGroup := by
    change place.closeGroup.map _ = _
    simp [closeGroup, houter, Except.map]
  rw [run_of_visits hvisits, run.eq_def]
  grind

/-- A reading that comes to a closing parenthesis where no group is open either has
come to the one behind the text, or is refused in the text itself. -/
theorem Visits.at_close {s place : Reader} {text ahead after : List Char}
    (hvisits : Visits s (text ++ [')', '$']) place ahead) (houter : place.outer = [])
    (hskip : skipVerbose place.flags.verbose ahead = ')' :: after) :
    (after = ['$'] ∧ s.run text = .ok place) ∨ s.run text = .error .unopenedGroup := by
  -- Only a word boundary in front of a lone brace is not read locally, and there is none
  -- in front of a parenthesis or of the end.
  have hnot : ∀ {ahead rest : List Char}, skipVerbose place.flags.verbose ahead = rest →
      '\x7b' ∉ rest.head? → ¬IsDangling place.flags.verbose ahead := by
    intro _ _ hskip hhead hdangling
    obtain ⟨_, hbrace, -⟩ := hdangling.skipVerbose_eq
    simp [← hskip, hbrace] at hhead
  have hlocal : ReadsLocally _ (text ++ ')' :: ['$']) ([] ++ ')' :: after) :=
    hvisits.locally.comp (hskip ▸ skipVerbose_locally place.flags.verbose ahead)
  rcases hlocal.at_close (by simp) with
    ⟨hafter, ahead, hvisits, hskip⟩ | ⟨rest, -, ahead, hvisits, hskip⟩
  · have hvisits := hvisits.resolve_right (hnot hskip (by simp))
    exact .inl ⟨hafter, (run_of_visits hvisits).trans (run_of_skip hskip)⟩
  · have hvisits := hvisits.resolve_right (hnot hskip (by simp))
    exact .inr (hvisits.run_eq_unopened houter hskip)

end Reader

/-- What is around a pattern that is to match all of a text. -/
def anchored : OpenGroup where
  captures := false
  flags := {}
  around := { items := [{ regex := .assertion .textStart }] }

theorem run_anchored (text : List Char) :
    Reader.run {} ('^' :: '(' :: '?' :: ':' :: (text ++ [')', '$'])) =
      (({} : Reader).within anchored).run (text ++ [')', '$']) :=
  Reader.run_of_visits (.later rfl rfl (.later rfl rfl .here))

theorem run_closeInto_anchored (place : Reader) :
    (place.closeInto anchored).run ['$'] =
      .ok ((place.closeInto anchored).push { regex := .assertion .textEnd }) :=
  (Reader.run_of_visits (.later rfl rfl .here)).trans (Reader.run_of_skip rfl)

/-- What is read between the anchors has been read by itself. -/
theorem exists_run_of_run_anchored {text : List Char} {final : Reader}
    (hopens : Reader.run {} text ≠ .error .unopenedGroup)
    (hrun : (({} : Reader).within anchored).run (text ++ [')', '$']) = .ok final)
    (hfinal : final.outer = []) :
    ∃ place, Reader.run {} text = .ok place ∧ place.outer = [] ∧
      final = (place.closeInto anchored).push { regex := .assertion .textEnd } := by
  obtain ⟨place, ahead, after, hvisits, houter, hskip, hrest⟩ :=
    Reader.exists_close_of_run_within hrun hfinal
  obtain ⟨rfl, hread⟩ := (hvisits.at_close houter hskip).resolve_right hopens
  rw [run_closeInto_anchored] at hrest
  cases hrest
  exact ⟨place, hread, houter, rfl⟩

/-- What is read by itself is read alike between the anchors, unless it takes the
closing parenthesis for its own. -/
theorem run_anchored_of_run {text : List Char} {place : Reader}
    (hends : Reader.run {} (text ++ [')', '$']) = .error .unopenedGroup)
    (hrun : Reader.run {} text = .ok place) :
    (({} : Reader).within anchored).run (text ++ [')', '$']) =
      .ok ((place.closeInto anchored).push { regex := .assertion .textEnd }) := by
  obtain ⟨place', ahead, c, after, hvisits, hskip, hstep⟩ :=
    Reader.exists_visits_of_run_error hends
  obtain ⟨rfl, houter⟩ := Reader.eq_close_of_step_eq_unopened hstep
  obtain ⟨rfl, hread⟩ := (hvisits.at_close houter hskip).resolve_right (by simp [hrun])
  obtain rfl := Except.ok.inj (hread.symm.trans hrun)
  rw [Reader.run_of_visits ((hvisits.within anchored).next hskip
    (Reader.step_close_within houter anchored ['$'])), run_closeInto_anchored]

theorem close_anchored (place : Reader) :
    ((place.closeInto anchored).push { regex := .assertion .textEnd }).body.close =
      { regex := .sequence [.assertion .textStart, .group false place.body.close.regex,
          .assertion .textEnd]
        depth := place.body.close.depth + 2 } := by
  simp [Reader.closeInto, anchored, Reader.push, GroupBody.push, GroupBody.close, GroupBody.branch]

theorem toList_anchored (text : String) :
    (s!"^(?:{text})$").toList = '^' :: '(' :: '?' :: ':' :: (text.toList ++ [')', '$']) := by
  change ("^(?:" ++ text ++ ")$").toList = _
  simp

/-- A text that is an expression in parentheses between anchors is one by itself, unless
it closes a group that it has not opened. -/
theorem exists_parse_of_parse_anchored {text : String} {regex : Regex}
    (hopens : parse text ≠ .error .unopenedGroup) (hparse : parse s!"^(?:{text})$" = .ok regex) :
    ∃ inner, parse text = .ok inner ∧
      regex = .sequence [.assertion .textStart, .group false inner, .assertion .textEnd] := by
  rw [Ne, parse_eq_unopened_iff] at hopens
  obtain ⟨final, hrun, hfinal, hdepth, rfl⟩ := parse_eq_ok_iff.1 hparse
  rw [toList_anchored, run_anchored] at hrun
  obtain ⟨place, hplace, houter, rfl⟩ := exists_run_of_run_anchored hopens hrun hfinal
  rw [close_anchored] at hdepth ⊢
  dsimp only at hdepth
  exact ⟨_, parse_eq_ok_iff.2 ⟨place, hplace, houter, by omega, rfl⟩, rfl⟩

/-- A text that is an expression in parentheses between anchors leaves the closing
parenthesis alone. -/
theorem parse_eq_unopened_of_parse_anchored {text : String} {regex : Regex}
    (hparse : parse s!"^(?:{text})$" = .ok regex) :
    parse (text ++ ")$") = .error .unopenedGroup := by
  obtain ⟨final, hrun, hfinal, -, -⟩ := parse_eq_ok_iff.1 hparse
  rw [toList_anchored, run_anchored] at hrun
  obtain ⟨place, ahead, after, hvisits, houter, hskip, -⟩ :=
    Reader.exists_close_of_run_within hrun hfinal
  rw [parse_eq_unopened_iff, String.toList_append]
  exact hvisits.run_eq_unopened houter hskip

/-- An expression is read alike in parentheses between anchors, unless it takes the closing
parenthesis for its own or the parentheses make it too deep. -/
theorem parse_anchored_of_parse {text : String} {inner : Regex} (hparse : parse text = .ok inner)
    (hends : parse (text ++ ")$") = .error .unopenedGroup)
    (hshallow : parse s!"^(?:{text})$" ≠ .error .tooDeep) :
    parse s!"^(?:{text})$" =
      .ok (.sequence [.assertion .textStart, .group false inner, .assertion .textEnd]) := by
  rw [parse_eq_unopened_iff, String.toList_append] at hends
  obtain ⟨place, hplace, houter, -, rfl⟩ := parse_eq_ok_iff.1 hparse
  have hrun := run_anchored_of_run hends hplace
  rw [← run_anchored, ← toList_anchored] at hrun
  have hanchored := parse_of_run hrun rfl
  rw [close_anchored] at hanchored
  by_cases hdepth : place.body.close.depth + 2 ≤ maxDepth
  · rwa [if_pos hdepth] at hanchored
  · rw [if_neg hdepth] at hanchored
    exact (hshallow hanchored).elim

/-- Nothing behind a character is the start of a text. -/
theorem Position.before_ne_none_of_leads {p q : Position} (hleads : p.Leads q)
    (hp : p.before ≠ none) : q.before ≠ none := by
  induction hleads with
  | here => exact hp
  | later _ ih => exact ih (Option.some_ne_none _)

theorem Position.eq_start_of_leads {text : List Char} {p : Position}
    (hleads : (Position.start text).Leads p) (hbefore : p.before = none) :
    p = Position.start text := by
  cases hleads with
  | here => rfl
  | later hleads =>
      exact (Position.before_ne_none_of_leads hleads (Option.some_ne_none _) hbefore).elim

/-- Between anchors an expression matches within a text where it matches the whole of it. -/
theorem matchesWithin_anchored_iff {regex : Regex} {text : List Char} :
    (Regex.sequence [.assertion .textStart, .group false regex,
      .assertion .textEnd]).MatchesWithin text ↔ regex.MatchesWhole text := by
  simp only [MatchesWithin, Matches, MatchesInOrder, Relation.Comp, Assertion.holds]
  constructor
  · rintro ⟨p, q, hleads, _, ⟨hstart, rfl⟩, ⟨before, ahead⟩, hmatches, _, ⟨hend, rfl⟩, -⟩
    obtain rfl := Position.eq_start_of_leads hleads (by simpa using hstart)
    obtain rfl : ahead = [] := by simpa using hend
    exact ⟨before, hmatches⟩
  · rintro ⟨before, hmatches⟩
    exact ⟨_, _, .here, _, ⟨rfl, rfl⟩, _, hmatches, _, ⟨rfl, rfl⟩, rfl⟩

end WorkflowAudit.Regex
