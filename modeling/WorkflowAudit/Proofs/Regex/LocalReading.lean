import WorkflowAudit.Proofs.Regex.LocalClass
import WorkflowAudit.Proofs.Regex.Repetition

/-!
# Expressions are read locally

Each step of the reader is local, and so is every reading: what has been read of a
text in front of a closing parenthesis is read of it alone.
-/

namespace WorkflowAudit.Regex

open Text ReadsLocally

/-! ## Bounds and openings of groups -/

theorem readDigits_locally (verbose : Bool) (text : List Char) :
    ReadsLocally
      (fun text' after => readDigits verbose text' = ((readDigits verbose text).1, after)) text
      (readDigits verbose text).2 := by
  fun_induction readDigits verbose text with
  | case1 => exact .stay fun _ _ h => by simp at h
  | case2 c rest hc digits after hdigits ih =>
      rw [hdigits] at ih
      refine ((((skipVerbose_locally verbose rest).comp ih).cons).mono ?_ :
        ReadsLocally _ (c :: rest) after)
      rintro _ _ ⟨_, rfl, _, rfl, hrest⟩
      rw [readDigits, if_pos hc, hrest]
  | case3 c rest hc =>
      refine .stay fun front behind hcut => ?_
      cases front with
      | nil => simp [readDigits]
      | cons d front =>
          obtain ⟨rfl, -⟩ := List.cons.inj hcut
          rw [readDigits, if_neg hc]

theorem readBound_locally (verbose : Bool) (text : List Char) :
    ReadsLocally (fun text' after => readBound verbose text' = ((readBound verbose text).1, after))
      text (readBound verbose text).2 := by
  refine ((dropWhile_locally isBlank text).comp ((readDigits_locally verbose _).comp
    ((dropWhile_locally isBlank _).comp (skipVerbose_locally verbose _)))).mono ?_
  rintro text' after ⟨_, rfl, _, hdigits, _, rfl, rfl⟩
  simp only [readBound, hdigits]

theorem readLazy_locally (text : List Char) :
    ReadsLocally (fun text' after => readLazy text' = ((readLazy text).1, after)) text
      (readLazy text).2 := by
  unfold readLazy
  split
  · exact head fun _ => rfl
  · next hmark =>
      refine .stay fun front behind hcut => ?_
      split
      · next heq => exact (hmark _ hcut).elim
      · rfl

theorem readBounds_locally {verbose : Bool} {text after : List Char} {bounds : Nat × Option Nat}
    (hread : readBounds verbose text = .ok (bounds, after)) :
    ReadsLocally (fun text after => readBounds verbose text = .ok (bounds, after)) text after := by
  have hskip := skipVerbose_locally verbose text
  have hbound := readBound_locally verbose (skipVerbose verbose text)
  unfold readBounds at hread
  split at hread
  · next least rest hfirst =>
      cases hread
      rw [hfirst] at hbound
      have hclose : ReadsLocally (fun text rest => text = '\x7d' :: rest) ('\x7d' :: after) after :=
        head fun _ => rfl
      refine (hskip.comp (hbound.comp hclose)).mono ?_
      rintro text after ⟨_, rfl, _, hfirst, rfl⟩
      simp only [readBounds, hfirst]
  · next least rest hfirst =>
      rw [hfirst] at hbound
      have hcomma : ReadsLocally (fun text rest => text = ',' :: rest) (',' :: rest) rest :=
        head fun _ => rfl
      have hstart := hskip.comp (hbound.comp hcomma)
      split at hread
      · next hclose =>
          cases hread
          refine (hstart.comp (skipVerbose_cons_locally hclose)).mono ?_
          rintro text after ⟨_, ⟨_, rfl, _, hfirst, rfl⟩, hclose⟩
          simp only [readBounds, hfirst, hclose]
      · next hopen =>
          have hnone : ¬['\x7d'] <+: skipVerbose verbose rest := by
            simpa [singleton_prefix_iff] using hopen
          have hsecond := readBound_locally verbose (skipVerbose verbose rest)
          split at hread
          · next most rest' hmost =>
              split at hread
              · next hle =>
                  cases hread
                  rw [hmost] at hsecond
                  have hclose : ReadsLocally (fun text rest => text = '\x7d' :: rest)
                      ('\x7d' :: after) after := head fun _ => rfl
                  refine (hstart.comp ((skipVerbose_locally verbose rest).comp
                    ((hsecond.comp hclose).and_not_begins hnone))).mono ?_
                  rintro text after ⟨_, ⟨_, rfl, _, hfirst, rfl⟩, _, rfl, ⟨_, hmost, rfl⟩, hnone⟩
                  rw [singleton_prefix_iff] at hnone
                  simp only [readBounds, hfirst]
                  split
                  · next hclose => exact absurd ⟨_, hclose⟩ hnone
                  · simp only [hmost, hle, if_true]
              · cases hread
          · cases hread
  · cases hread

theorem readName_locally {text after : List Char} {opening : Opening}
    (hread : readName text = .ok (opening, after)) :
    ReadsLocally (fun text after => readName text = .ok (opening, after)) text after := by
  unfold readName at hread
  split at hread
  · next hsplit =>
      split at hread
      · next hname =>
          cases hread
          refine (splitFirst?_locally hsplit).mono fun hsplit => ?_
          simp only [readName, hsplit, hname, if_true]
      · cases hread
  · cases hread

theorem readFlags_locally {text after : List Char} {opening : Opening}
    (hread : readFlags text = .ok (opening, after)) :
    ReadsLocally (fun text after => readFlags text = .ok (opening, after)) text after := by
  unfold readFlags at hread
  dsimp only at hread
  rw [drop_length_takeWhile] at hread
  split at hread
  · cases hread
  · next last rest hdrop =>
      cases hread
      have hlast : ¬(last != ':' && last != ')') = true := by
        have hhead := List.head_dropWhile_not (fun c => c != ':' && c != ')')
          (show text.dropWhile _ ≠ [] by rw [hdrop]; exact List.cons_ne_nil _ _)
        simpa [hdrop] using hhead
      refine ⟨text.takeWhile (fun c => c != ':' && c != ')') ++ [last], ?_, fun front _ _ => ?_⟩
      · rw [List.append_assoc, List.singleton_append, ← hdrop, List.takeWhile_append_dropWhile]
      · rw [List.append_assoc, List.singleton_append]
        have htake := takeWhile_takeWhile_append (fun c => c != ':' && c != ')') hlast text front
        simp only [readFlags, htake, List.drop_left]

/-- What opens a group, without anything insignificant in front. -/
theorem readOpening_false_locally {text after : List Char} {opening : Opening}
    (hread : readOpening false text = .ok (opening, after)) :
    ReadsLocally (fun text after => readOpening false text = .ok (opening, after)) text after := by
  have hskip : skipVerbose false text = text := rfl
  unfold readOpening at hread
  rw [hskip] at hread
  split at hread
  · cases hread
    exact ⟨['?', '='], rfl, fun _ _ _ => rfl⟩
  · cases hread
    exact ⟨['?', '!'], rfl, fun _ _ _ => rfl⟩
  · cases hread
    exact ⟨['?', '<', '='], rfl, fun _ _ _ => rfl⟩
  · cases hread
    exact ⟨['?', '<', '!'], rfl, fun _ _ _ => rfl⟩
  · next rest hequals hmark =>
      have hequals' : ¬['='] <+: rest := by simpa [singleton_prefix_iff] using hequals
      have hmark' : ¬['!'] <+: rest := by simpa [singleton_prefix_iff] using hmark
      refine (((readName_locally hread).and_not_begins hequals').and_not_begins
        hmark').cons.cons.mono ?_
      rintro _ _ ⟨_, rfl, rest, rfl, ⟨hname, hequals⟩, hmark⟩
      rw [singleton_prefix_iff] at hequals hmark
      unfold readOpening
      rw [skipVerbose, if_neg Bool.false_ne_true]
      grind
  · refine (readName_locally hread).cons.cons.cons.mono ?_
    rintro _ _ ⟨_, rfl, _, rfl, _, rfl, hname⟩
    exact hname
  · next rest hequals hmark _ _ hangle hname =>
      have hequals' : ¬['='] <+: rest := by simpa [singleton_prefix_iff] using hequals
      have hmark' : ¬['!'] <+: rest := by simpa [singleton_prefix_iff] using hmark
      have hangle' : ¬['<'] <+: rest := by simpa [singleton_prefix_iff] using hangle
      have hname' : ¬['P', '<'] <+: rest := by simpa [pair_prefix_iff] using hname
      refine (((((readFlags_locally hread).and_not_begins hequals').and_not_begins
        hmark').and_not_begins hangle').and_not_begins hname').cons.mono ?_
      rintro _ _ ⟨rest, rfl, ⟨⟨⟨hflags, hequals⟩, hmark⟩, hangle⟩, hname⟩
      rw [singleton_prefix_iff] at hequals hmark hangle
      rw [pair_prefix_iff] at hname
      unfold readOpening
      rw [skipVerbose, if_neg Bool.false_ne_true]
      grind
  · next hmark =>
      cases hread
      have hmark' : ¬['?'] <+: text := by simpa [singleton_prefix_iff] using hmark
      have hstay : ReadsLocally Eq text text := .stay fun _ _ _ => rfl
      refine (hstay.and_not_begins hmark').mono ?_
      rintro text _ ⟨rfl, hmark⟩
      rw [singleton_prefix_iff] at hmark
      unfold readOpening
      rw [skipVerbose, if_neg Bool.false_ne_true]
      grind

theorem readOpening_locally {verbose : Bool} {text after : List Char} {opening : Opening}
    (hread : readOpening verbose text = .ok (opening, after)) :
    ReadsLocally (fun text after => readOpening verbose text = .ok (opening, after)) text
      after := by
  refine ((skipVerbose_locally verbose text).comp (readOpening_false_locally hread)).mono ?_
  rintro text after ⟨_, rfl, hread⟩
  exact hread

namespace Reader

/-! ## Steps -/

theorem repeatPlain_locally {s next : Reader} {least : Nat} {most : Option Nat}
    {rest after : List Char} (hread : s.repeatPlain least most rest = .ok (next, after)) :
    ReadsLocally (fun rest after => s.repeatPlain least most rest = .ok (next, after)) rest
      after := by
  obtain ⟨isLazy, hlazy, hrepeat⟩ := repeatLast_of_repeatPlain hread
  have hlocal := readLazy_locally rest
  rw [hlazy] at hlocal
  refine hlocal.mono fun hlazy => ?_
  simp only [repeatPlain, hlazy, hrepeat]
  rfl

theorem repeatCounted_locally {s next : Reader} {rest after : List Char}
    (hread : s.repeatCounted rest = .ok (next, after)) :
    ReadsLocally (fun rest after => s.repeatCounted rest = .ok (next, after)) rest after := by
  obtain ⟨least, most, isLazy, behind, hbounds, hlazy, hrepeat⟩ := repeatLast_of_repeatCounted hread
  have hlocal := readLazy_locally (skipVerbose s.flags.verbose behind)
  rw [hlazy] at hlocal
  refine ((readBounds_locally hbounds).comp
    ((skipVerbose_locally s.flags.verbose behind).comp hlocal)).mono ?_
  rintro rest after ⟨_, hbounds, _, rfl, hlazy⟩
  simp only [repeatCounted, hbounds, hlazy, hrepeat]
  rfl

theorem step_opening_locally {s next : Reader} {rest after : List Char}
    (hstep : s.step '(' rest = .ok (next, after)) :
    ReadsLocally (fun rest after => s.step '(' rest = .ok (next, after)) rest after := by
  simp only [step, Char.reduceBEq, if_true] at hstep
  split at hstep
  · cases hstep
  · next hread =>
      obtain ⟨_, hopening, heq⟩ := map_eq_ok hstep
      cases heq
      refine (readOpening_locally hread).mono fun hread => ?_
      simp only [step, Char.reduceBEq, if_true, hread, hopening]
      rfl

theorem step_escape_locally {s next : Reader} {rest after : List Char}
    (hstep : s.step '\\' rest = .ok (next, after)) :
    ReadsLocally (fun rest after => s.step '\\' rest = .ok (next, after) ∨
      IsDangling next.flags.verbose after) rest after := by
  simp only [step, Char.reduceBEq, if_true, Bool.false_eq_true, if_false] at hstep
  split at hstep
  · cases hstep
  · next hread =>
      obtain ⟨_, hregex, heq⟩ := map_eq_ok hstep
      cases heq
      refine (readEscape_locally hread).mono fun hread => ?_
      rcases hread with hread | ⟨-, hdangling⟩
      · left
        simp only [step, Char.reduceBEq, if_true, Bool.false_eq_true, if_false, hread, hregex]
        rfl
      · exact .inr hdangling

/-- A character that is no sign is read alone. -/
theorem step_member_locally {s next : Reader} {c : Char} {rest after : List Char}
    (hc : c ∉ signs) (hstep : s.step c rest = .ok (next, after)) :
    ReadsLocally (fun rest after => s.step c rest = .ok (next, after)) rest after := by
  have hafter : ∀ text, s.step c text = (s.step c rest).map fun read => (read.1, text) := by
    intro text
    simp only [signs, List.mem_cons, List.not_mem_nil, or_false, not_or] at hc
    simp only [step, beq_iff_eq, hc, if_false]
    split
    · cases s.flags.dot <;> rfl
    · split
      · rfl
      · split <;> rfl
  have hrest : after = rest := by
    have hself := hafter rest
    rw [hstep] at hself
    exact (Prod.mk.inj (Except.ok.inj hself)).2
  subst hrest
  refine .stay fun front _ _ => ?_
  rw [hafter, hstep]
  rfl

/-- A step is local, unless it reads a word boundary in front of a brace. -/
theorem step_locally {s next : Reader} {c : Char} {rest after : List Char}
    (hstep : s.step c rest = .ok (next, after)) :
    ReadsLocally (fun rest after => s.step c rest = .ok (next, after) ∨
      IsDangling next.flags.verbose after) rest after := by
  by_cases hc : c ∈ signs
  · simp only [signs, List.mem_cons, List.not_mem_nil, or_false] at hc
    rcases hc with rfl | rfl | rfl | rfl | rfl | rfl | rfl | rfl | rfl
    · exact (step_opening_locally hstep).mono .inl
    · obtain ⟨_, hclosed, heq⟩ := map_eq_ok (x := s.closeGroup) hstep
      cases heq
      refine .stay fun front _ _ => .inl ?_
      show s.closeGroup.map (·, front) = _
      rw [hclosed]
      rfl
    · cases hstep
      exact .stay fun _ _ _ => .inl rfl
    · obtain ⟨⟨_, _⟩, hread, heq⟩ := map_eq_ok (x := readClass s.flags rest) hstep
      cases heq
      refine (readClass_locally hread).mono fun {text after} hread => .inl ?_
      show (readClass s.flags text).map _ = _
      rw [hread]
      rfl
    · exact (repeatPlain_locally hstep).mono .inl
    · exact (repeatPlain_locally hstep).mono .inl
    · exact (repeatPlain_locally hstep).mono .inl
    · exact (repeatCounted_locally hstep).mono .inl
    · exact step_escape_locally hstep
  · exact (step_member_locally hc hstep).mono .inl

/-! ## Readings -/

/-- No reading goes on from a brace with nothing behind it. -/
theorem step_ne_ok_of_isDangling {s : Reader} {text rest : List Char} {c : Char}
    (hdangling : IsDangling s.flags.verbose text)
    (hskip : skipVerbose s.flags.verbose text = c :: rest) (read : Reader × List Char) :
    s.step c rest ≠ .ok read := by
  obtain ⟨behind, hbrace, hbehind⟩ := hdangling.skipVerbose_eq
  obtain ⟨rfl, rfl⟩ := List.cons.inj (hskip.symm.trans hbrace)
  have hbounds : readBounds s.flags.verbose rest = .error .badRepetition := by
    have hnone : (readBound s.flags.verbose []).1 = none := by
      simp [readBound, readDigits, natOfDigits?]
    unfold readBounds
    rw [hbehind]
    split
    · next hbound => simp [hbound] at hnone
    · next hbound => simp [hbound] at hnone
    · rfl
  show s.repeatCounted rest ≠ _
  simp [repeatCounted, hbounds]

/-- A reading is local, unless it ends behind a word boundary in front of a brace. -/
theorem Visits.locally {s place : Reader} {text ahead : List Char}
    (hvisits : Visits s text place ahead) :
    ReadsLocally (fun text ahead => Visits s text place ahead ∨
      IsDangling place.flags.verbose ahead) text ahead := by
  induction hvisits with
  | here => exact .stay fun _ _ _ => .inl .here
  | later hskip hstep _ ih =>
      refine ((skipVerbose_cons_locally hskip).comp ((step_locally hstep).comp ih)).mono ?_
      rintro text ahead ⟨_, hskip, _, hstep, hlater | hdangling⟩
      · rcases hstep with hstep | hdangling
        · exact .inl (.later hskip hstep hlater)
        · cases hlater with
          | here => exact .inr hdangling
          | later hskip hstep _ => exact (step_ne_ok_of_isDangling hdangling hskip _ hstep).elim
      · exact .inr hdangling

theorem run_of_visits {s place : Reader} {text ahead : List Char}
    (hvisits : Visits s text place ahead) : s.run text = place.run ahead := by
  induction hvisits with
  | here => rfl
  | later hskip hstep _ ih =>
      rw [← ih, run.eq_def]
      grind

theorem exists_visits_of_run_error {s : Reader} {text : List Char} {fault : Fault}
    (hrun : s.run text = .error fault) :
    ∃ place ahead c rest, Visits s text place ahead ∧
      skipVerbose place.flags.verbose ahead = c :: rest ∧ place.step c rest = .error fault := by
  fun_induction run s text with
  | case1 => cases hrun
  | case2 s text c rest hskip fault' hstep =>
      cases hrun
      exact ⟨s, text, c, rest, .here, hskip, hstep⟩
  | case3 s text c rest hskip next after hstep ih =>
      obtain ⟨place, ahead, d, behind, hvisits, hend⟩ := ih hrun
      exact ⟨place, ahead, d, behind, .later hskip hstep hvisits, hend⟩

end Reader

end WorkflowAudit.Regex
