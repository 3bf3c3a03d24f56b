import WorkflowAudit.Proofs.Text.Locality
import WorkflowAudit.Regex.Class

/-!
# Escapes and classes are read locally

What a reader makes of an escape or of a class does not change when the rest that it
leaves is cut off in front of a closing parenthesis.  Only a word boundary looks
further: behind it stands either the name of an edge in braces or a brace that no
reading goes on from.
-/

namespace WorkflowAudit.Regex

open Text ReadsLocally

/-! ## Escapes -/

theorem skipInsignificant_locally (inComment : Bool) (text : List Char) :
    ReadsLocally (fun text after => skipInsignificant inComment text = after) text
      (skipInsignificant inComment text) := by
  induction text generalizing inComment with
  | nil => exact .stay fun _ _ h => by simp at h
  | cons c rest ih =>
      unfold skipInsignificant
      split
      · next hcomment =>
          refine (ih _).cons.mono ?_
          rintro _ _ ⟨rest, rfl, hrest⟩
          simpa [skipInsignificant, hcomment] using hrest
      · split
        · next hcomment hblank =>
            refine (ih _).cons.mono ?_
            rintro _ _ ⟨rest, rfl, hrest⟩
            simpa [skipInsignificant, hcomment, hblank] using hrest
        · split
          · next hcomment hblank hsign =>
              refine (ih _).cons.mono ?_
              rintro _ _ ⟨rest, rfl, hrest⟩
              simpa [skipInsignificant, hcomment, hblank, hsign] using hrest
          · next hcomment hblank hsign =>
              refine .stay fun front behind hcut => ?_
              cases front with
              | nil => rfl
              | cons d front =>
                  obtain ⟨rfl, -⟩ := List.cons.inj hcut
                  simp [hblank, hsign]

theorem skipVerbose_locally (verbose : Bool) (text : List Char) :
    ReadsLocally (fun text after => skipVerbose verbose text = after) text
      (skipVerbose verbose text) := by
  cases verbose with
  | false => exact .stay fun _ _ _ => rfl
  | true => exact skipInsignificant_locally false text

/-- Reading one character, and what is insignificant in front of it. -/
theorem skipVerbose_cons_locally {verbose : Bool} {text rest : List Char} {c : Char}
    (hskip : skipVerbose verbose text = c :: rest) :
    ReadsLocally (fun text after => skipVerbose verbose text = c :: after) text rest := by
  have hrest : ReadsLocally (fun text after => text = c :: after) (skipVerbose verbose text) rest :=
    hskip ▸ head fun _ => rfl
  refine ((skipVerbose_locally verbose text).comp hrest).mono ?_
  rintro _ _ ⟨_, hskip, rfl⟩
  exact hskip

theorem readHexDigits_locally {verbose : Bool} {count : Nat} {text digits after : List Char}
    (hread : readHexDigits verbose count text = .ok (digits, after)) :
    ReadsLocally (fun text after => readHexDigits verbose count text = .ok (digits, after)) text
      after := by
  induction count generalizing text digits after with
  | zero =>
      cases hread
      exact .stay fun _ _ _ => rfl
  | succ count ih =>
      cases text with
      | nil => cases hread
      | cons c rest =>
          unfold readHexDigits at hread
          split at hread
          · cases hread
          · next hc =>
              cases hrest : readHexDigits verbose count (skipVerbose verbose rest) with
              | error fault =>
                  rw [hrest] at hread
                  cases hread
              | ok found =>
                  rw [hrest] at hread
                  cases hread
                  refine (((skipVerbose_locally verbose rest).comp (ih hrest)).cons).mono ?_
                  rintro _ _ ⟨_, rfl, _, rfl, hrest⟩
                  unfold readHexDigits
                  rw [if_neg hc, hrest]
                  rfl

theorem readBraced_locally {verbose : Bool} {text inside after : List Char}
    (hread : readBraced verbose text = .ok (inside, after)) :
    ReadsLocally (fun text after => readBraced verbose text = .ok (inside, after)) text after := by
  fun_induction readBraced verbose text generalizing inside after with
  | case1 => cases hread
  | case2 text rest htext =>
      cases hread
      refine (skipVerbose_cons_locally htext).mono ?_
      intro text after hskip
      rw [readBraced.eq_def]
      grind
  | case3 text c rest hc htext inside' after' hrest ih =>
      cases hread
      refine ((skipVerbose_cons_locally htext).comp (ih hrest)).mono ?_
      rintro text after ⟨_, hskip, hrest⟩
      rw [readBraced.eq_def]
      grind
  | case4 => cases hread

theorem singleton_prefix_iff {c : Char} {text : List Char} :
    [c] <+: text ↔ ∃ rest, text = c :: rest := by
  simp [List.IsPrefix, eq_comm]

theorem pair_prefix_iff {c d : Char} {text : List Char} :
    [c, d] <+: text ↔ ∃ rest, text = c :: d :: rest := by
  simp [List.IsPrefix, eq_comm]

theorem readCodeDigits_locally {verbose : Bool} {count : Nat} {text digits after : List Char}
    (hread : readCodeDigits verbose count text = .ok (digits, after)) :
    ReadsLocally (fun text' after => readCodeDigits verbose count text' = .ok (digits, after) ∧
      ((skipVerbose verbose text').head? = some '\x7b' ↔
        (skipVerbose verbose text).head? = some '\x7b')) text after := by
  unfold readCodeDigits at hread
  split at hread
  · next rest hbrace =>
      split at hread
      · cases hread
      · next hinside =>
          split at hread
          · next hdigits =>
              cases hread
              refine ((skipVerbose_cons_locally hbrace).comp
                ((readBraced_locally hinside).comp (skipVerbose_locally verbose _))).mono ?_
              rintro text' after ⟨_, hskip, _, hinside, rfl⟩
              simp [readCodeDigits, hskip, hinside, hdigits, hbrace]
          · cases hread
  · next hbrace =>
      have hfirst : ¬['\x7b'] <+: skipVerbose verbose text := by
        simpa [singleton_prefix_iff] using hbrace
      have hnone := (readHexDigits_locally hread).and_not_begins hfirst
      refine ((skipVerbose_locally verbose text).comp hnone).mono ?_
      rintro text' after ⟨_, rfl, hdigits, hfirst'⟩
      rw [singleton_prefix_iff] at hfirst hfirst'
      refine ⟨?_, ?_⟩
      · unfold readCodeDigits
        split
        · next hbrace => exact absurd ⟨_, hbrace⟩ hfirst'
        · exact hdigits
      · simp only [List.head?_eq_some_iff]
        exact iff_of_false hfirst' hfirst

theorem readCodePoint_locally {verbose : Bool} {count : Nat} {text after : List Char}
    {found : Primitive} (hread : readCodePoint verbose count text = .ok (found, after)) :
    ReadsLocally (fun text after => readCodePoint verbose count text = .ok (found, after)) text
      after := by
  unfold readCodePoint at hread
  split at hread
  · cases hread
  · next digits rest hdigits =>
      dsimp only at hread
      split at hread
      · next c hcode =>
          cases hread
          refine (readCodeDigits_locally hdigits).mono ?_
          rintro text' after ⟨hdigits', hbraced⟩
          have hsame : ((skipVerbose verbose text').head? == some '\x7b') =
              ((skipVerbose verbose text).head? == some '\x7b') := by
            rw [Bool.eq_iff_iff, beq_iff_eq, beq_iff_eq, hbraced]
          simp only [readCodePoint, hdigits', hcode, hsame]
      · cases hread

theorem readProperty_locally {verbose negated : Bool} {text after : List Char}
    {found : Primitive} (hread : readProperty verbose negated text = .ok (found, after)) :
    ReadsLocally (fun text after => readProperty verbose negated text = .ok (found, after)) text
      after := by
  unfold readProperty at hread
  split at hread
  · cases hread
  · cases hread
  · next rest hbrace =>
      split at hread
      · cases hread
      · next hinside =>
          cases hread
          refine ((skipVerbose_cons_locally hbrace).comp (readBraced_locally hinside)).mono ?_
          rintro text after ⟨_, hskip, hinside⟩
          simp only [readProperty, hskip, hinside]
          rfl
  · next c rest hslash hbrace hskip =>
      cases hread
      refine ((skipVerbose_cons_locally hskip).comp (skipVerbose_locally verbose rest)).mono ?_
      rintro text after ⟨_, hskip', rfl⟩
      unfold readProperty
      rw [hskip']
      grind

theorem readEdgeName_locally (verbose : Bool) (text : List Char) :
    ReadsLocally
      (fun text' after => readEdgeName verbose text' = ((readEdgeName verbose text).1, after)) text
      (readEdgeName verbose text).2 := by
  fun_induction readEdgeName verbose text with
  | case1 => exact .stay fun _ _ h => by simp at h
  | case2 c rest hc name after hname ih =>
      rw [hname] at ih
      refine ((((skipVerbose_locally verbose rest).comp ih).cons).mono ?_ :
        ReadsLocally _ (c :: rest) after)
      rintro _ _ ⟨_, rfl, _, rfl, hrest⟩
      rw [readEdgeName, if_pos hc, hrest]
  | case3 c rest hc =>
      refine .stay fun front behind hcut => ?_
      cases front with
      | nil => simp [readEdgeName]
      | cons d front =>
          obtain ⟨rfl, -⟩ := List.cons.inj hcut
          rw [readEdgeName, if_neg hc]

/-- What stands behind the first significant character is no concern of skipping. -/
theorem skipVerbose_append {verbose : Bool} {text rest : List Char} {c : Char}
    (hskip : skipVerbose verbose text = c :: rest) (more : List Char) :
    skipVerbose verbose (text ++ more) = c :: rest ++ more := by
  have hinsignificant : ∀ (inComment : Bool) (text : List Char),
      skipInsignificant inComment text = c :: rest →
        skipInsignificant inComment (text ++ more) = c :: rest ++ more := by
    intro inComment text hskip
    induction text generalizing inComment with
    | nil => cases hskip
    | cons d text ih =>
        rw [List.cons_append]
        unfold skipInsignificant at hskip ⊢
        split at hskip
        · next hcomment =>
            rw [if_pos hcomment]
            exact ih _ hskip
        · next hcomment =>
            rw [if_neg hcomment]
            split at hskip
            · next hblank =>
                rw [if_pos hblank]
                exact ih _ hskip
            · next hblank =>
                rw [if_neg hblank]
                split at hskip
                · next hsign =>
                    rw [if_pos hsign]
                    exact ih _ hskip
                · next hsign =>
                    rw [if_neg hsign, ← hskip, List.cons_append]
  cases verbose with
  | false =>
      rw [skipVerbose, if_neg Bool.false_ne_true] at hskip ⊢
      rw [hskip]
  | true => exact hinsignificant false text hskip

/-- A brace with nothing significant behind it.  No reading goes on from there. -/
def IsDangling (verbose : Bool) (text : List Char) : Prop :=
  ∃ rest, text = '\x7b' :: rest ∧ skipVerbose verbose rest = []

theorem IsDangling.skipVerbose_eq {verbose : Bool} {text : List Char}
    (hdangling : IsDangling verbose text) :
    ∃ rest, skipVerbose verbose text = '\x7b' :: rest ∧ skipVerbose verbose rest = [] := by
  obtain ⟨rest, rfl, hrest⟩ := hdangling
  refine ⟨rest, ?_, hrest⟩
  cases verbose <;> rfl

/-- Behind a word boundary a brace is looked into, to see whether it holds a name. -/
theorem readWordEdge_locally {verbose : Bool} {text after : List Char} {found : Primitive}
    (hread : readWordEdge verbose text = .ok (found, after)) :
    ReadsLocally (fun text after => readWordEdge verbose text = .ok (found, after) ∨
      found = .word .boundary ∧ IsDangling verbose after) text after := by
  unfold readWordEdge at hread
  split at hread
  · next rest =>
      split at hread
      · cases hread
      · next c inside hskip =>
          split at hread
          · next hc =>
              cases hread
              refine .stay fun front behind hcut => ?_
              cases front with
              | nil => exact .inl rfl
              | cons d front =>
                  obtain ⟨rfl, hrest⟩ := List.cons.inj hcut
                  rw [hrest] at hskip
                  cases hfront : skipVerbose verbose front with
                  | nil => exact .inr ⟨rfl, front, rfl, hfront⟩
                  | cons d rest =>
                      obtain ⟨rfl, -⟩ :=
                        List.cons.inj ((skipVerbose_append hfront _).symm.trans hskip)
                      left
                      simp only [readWordEdge, hfront, hc, if_true]
          · next hc =>
              dsimp only at hread
              split at hread
              · next after' edge hafter hedge =>
                  cases hread
                  have hname := readEdgeName_locally verbose (skipVerbose verbose rest)
                  rw [hskip, hafter] at hname
                  have hclose : ReadsLocally (fun text rest => text = '\x7d' :: rest)
                      ('\x7d' :: after) after := head fun _ => rfl
                  have hskipped := skipVerbose_locally verbose rest
                  rw [hskip] at hskipped
                  refine (hskipped.comp (hname.comp hclose)).cons.mono ?_
                  rintro _ after ⟨rest, rfl, inner, hinner, _, hname', rfl⟩
                  left
                  cases inner with
                  | nil => simp [readEdgeName] at hname'
                  | cons d inner =>
                      by_cases hd : isEdgeNameChar d = true
                      · simp only [readWordEdge, hinner, hd, hname', hedge, Bool.not_true,
                          Bool.false_eq_true, if_false]
                      · rw [readEdgeName, if_neg hd] at hname'
                        rw [← (Prod.mk.inj hname').1] at hedge
                        cases hedge
              · cases hread
  · next hbrace =>
      cases hread
      refine .stay fun front behind hcut => ?_
      cases front with
      | nil => exact .inl rfl
      | cons d front =>
          left
          unfold readWordEdge
          split
          · next heq => exact (hbrace _ (by rw [hcut, heq, List.cons_append])).elim
          · rfl

/-- How an escape is read is settled by its first character. -/
inductive ReadsEscape (verbose : Bool) (c : Char) : Prop
  | codePoint (count : Nat)
      (hread : ∀ text, readEscape verbose (c :: text) = readCodePoint verbose count text)
  | property (negated : Bool)
      (hread : ∀ text, readEscape verbose (c :: text) = readProperty verbose negated text)
  | wordEdge (hread : ∀ text, readEscape verbose (c :: text) = readWordEdge verbose text)
  | single (found : Primitive) (hread : ∀ text, readEscape verbose (c :: text) = .ok (found, text))
  | none (hread : ∀ text, readEscape verbose (c :: text) = .error .badEscape)

theorem readsEscape (verbose : Bool) (c : Char) : ReadsEscape verbose c := by
  by_cases hc : c ∈ ['x', 'u', 'U', 'p', 'P', 'b', 'B', 'A', 'z', '<', '>']
  · simp only [List.mem_cons, List.not_mem_nil, or_false] at hc
    rcases hc with rfl | rfl | rfl | rfl | rfl | rfl | rfl | rfl | rfl | rfl | rfl
    · exact .codePoint 2 fun _ => rfl
    · exact .codePoint 4 fun _ => rfl
    · exact .codePoint 8 fun _ => rfl
    · exact .property false fun _ => rfl
    · exact .property true fun _ => rfl
    · exact .wordEdge fun _ => rfl
    all_goals exact .single _ fun _ => rfl
  · simp only [List.mem_cons, List.not_mem_nil, or_false, not_or] at hc
    cases hclass : letterClass? c with
    | some found =>
        exact .single (.letterClass found.1 found.2) fun text => by
          simp only [readEscape, beq_iff_eq, hc, if_false, hclass]
    | none =>
        cases hcontrol : controlLetter? c with
        | some control =>
            exact .single (.literal control false) fun text => by
              simp only [readEscape, beq_iff_eq, hc, if_false, hclass, hcontrol]
        | none =>
            by_cases hescapable : isEscapable c = true
            · exact .single (.literal c false) fun text => by
                simp only [readEscape, beq_iff_eq, hc, if_false, hclass, hcontrol, hescapable,
                  if_true]
            · exact .none fun text => by
                simp only [readEscape, beq_iff_eq, hc, if_false, hclass, hcontrol, hescapable,
                  Bool.false_eq_true]

/-- An escape is read locally, unless it is a word boundary in front of a brace. -/
theorem readEscape_locally {verbose : Bool} {text after : List Char} {found : Primitive}
    (hread : readEscape verbose text = .ok (found, after)) :
    ReadsLocally (fun text after => readEscape verbose text = .ok (found, after) ∨
      found = .word .boundary ∧ IsDangling verbose after) text after := by
  cases text with
  | nil => cases hread
  | cons c rest =>
      cases readsEscape verbose c with
      | codePoint count hescape =>
          rw [hescape] at hread
          refine (readCodePoint_locally hread).cons.mono ?_
          rintro _ _ ⟨rest, rfl, hrest⟩
          exact .inl ((hescape rest).trans hrest)
      | property negated hescape =>
          rw [hescape] at hread
          refine (readProperty_locally hread).cons.mono ?_
          rintro _ _ ⟨rest, rfl, hrest⟩
          exact .inl ((hescape rest).trans hrest)
      | wordEdge hescape =>
          rw [hescape] at hread
          refine (readWordEdge_locally hread).cons.mono ?_
          rintro _ _ ⟨rest, rfl, hrest⟩
          exact hrest.imp_left (hescape rest).trans
      | single found hescape =>
          rw [hescape] at hread
          cases hread
          exact head fun rest => .inl (hescape rest)
      | none hescape =>
          rw [hescape] at hread
          cases hread

/-! ## Classes -/

theorem readPrimitive_locally {verbose : Bool} {c : Char} {rest after : List Char}
    {found : Primitive} (hread : readPrimitive verbose c rest = .ok (found, after)) :
    ReadsLocally (fun rest after => readPrimitive verbose c rest = .ok (found, after) ∨
      found = .word .boundary ∧ IsDangling verbose after) rest after := by
  unfold readPrimitive at hread
  split at hread
  · next hc =>
      refine (readEscape_locally hread).mono fun hescape => ?_
      rwa [readPrimitive, if_pos hc]
  · next hc =>
      cases hread
      exact .stay fun front _ _ => .inl (by rw [readPrimitive, if_neg hc])

/-- What stands behind a closing parenthesis makes no difference to a hyphen. -/
theorem peek_append (verbose : Bool) (front behind : List Char) :
    peek verbose (front ++ ')' :: behind) = peek verbose front ∨
      peek verbose (front ++ ')' :: behind) = some ')' ∧ peek verbose front = none := by
  have hhead : ∀ front : List Char, (front ++ ')' :: behind).head? = front.head? ∨
      (front ++ ')' :: behind).head? = some ')' ∧ front.head? = none := by
    intro front
    cases front <;> simp
  have hdrop : ∀ front : List Char, ((front ++ ')' :: behind).dropWhile isBlank) =
      front.dropWhile isBlank ++ ')' :: behind := by
    intro front
    have hclose : (')' :: behind).dropWhile isBlank = ')' :: behind := rfl
    rw [List.dropWhile_append, hclose]
    split
    · next hempty => rw [List.isEmpty_iff.1 hempty, List.nil_append]
    · rfl
  unfold peek
  split
  · exact hhead front
  · rw [hdrop]
    cases hfront : front.dropWhile isBlank with
    | nil => exact .inr ⟨rfl, rfl⟩
    | cons c rest =>
        by_cases hc : c = '#'
        · subst hc
          simp only [List.cons_append, hdrop]
          exact hhead _
        · simp [hc]

theorem startsRange_append (verbose : Bool) (front behind : List Char) :
    startsRange verbose (front ++ ')' :: behind) = startsRange verbose front := by
  cases front with
  | nil => rfl
  | cons c front =>
      by_cases hc : c = '-'
      · subst hc
        have hpeek := peek_append verbose front behind
        simp only [startsRange, List.cons_append]
        rcases hpeek with hsame | ⟨hclose, hnone⟩
        · rw [hsame]
        · rw [hclose, hnone]
          rfl
      · simp [startsRange, hc]

theorem startsRange_locally (verbose : Bool) (text : List Char) :
    ReadsLocally (fun text' after => text' = after ∧
      startsRange verbose text' = startsRange verbose text) text text :=
  .stay fun front behind hcut => ⟨rfl, by rw [hcut, startsRange_append]⟩

/-- A word boundary is no member of a class, so what stands behind a member has not
been looked at. -/
theorem readPrimitive_locally_of_ne {verbose : Bool} {c : Char} {rest after : List Char}
    {found : Primitive} (hfound : found ≠ .word .boundary)
    (hread : readPrimitive verbose c rest = .ok (found, after)) :
    ReadsLocally (fun rest after => readPrimitive verbose c rest = .ok (found, after)) rest after :=
  (readPrimitive_locally hread).mono fun h => h.resolve_right fun hword => hfound hword.1

theorem readMember_locally {flags : Flags} {c : Char} {rest after : List Char} {set : CharSet}
    (hread : readMember flags c rest = .ok (set, after)) :
    ReadsLocally (fun rest after => readMember flags c rest = .ok (set, after)) rest after := by
  unfold readMember at hread
  split at hread
  · cases hread
  · next low first hlow =>
      dsimp only at hread
      have hskip := skipVerbose_locally flags.verbose first
      have hsame := startsRange_locally flags.verbose (skipVerbose flags.verbose first)
      split at hread
      · next hrange =>
          split at hread
          · cases hread
          · next d second hsecond =>
              split at hread
              · cases hread
              · next high last hhigh =>
                  obtain ⟨members, hmembers, heq⟩ := map_eq_ok hread
                  cases heq
                  have hlow' : low ≠ .word .boundary := by
                    rintro rfl
                    cases hmembers
                  have hhigh' : high ≠ .word .boundary := by
                    rintro rfl
                    unfold rangeMembers at hmembers
                    cases hend : low.rangeEnd flags with
                    | error fault =>
                        rw [hend] at hmembers
                        cases hmembers
                    | ok code =>
                        rw [hend] at hmembers
                        cases hmembers
                  obtain ⟨tail, htail⟩ : ∃ tail, skipVerbose flags.verbose first = '-' :: tail := by
                    unfold startsRange at hrange
                    split at hrange
                    · exact ⟨_, by assumption⟩
                    · cases hrange
                  rw [htail] at hskip hsame hsecond hrange
                  rw [List.tail_cons] at hsecond
                  rw [hrange] at hsame
                  have hrest := ((skipVerbose_cons_locally hsecond).comp
                    (readPrimitive_locally_of_ne hhigh' hhigh)).cons (c := '-')
                  refine ((readPrimitive_locally_of_ne hlow' hlow).comp
                    (hskip.comp (hsame.comp hrest))).mono ?_
                  rintro rest after ⟨_, hlow, _, hskip, _, ⟨rfl, hrange⟩, _, rfl, _, hsecond, hhigh⟩
                  simp only [readMember, hlow, hskip, hrange, if_true, List.tail_cons, hsecond,
                    hhigh, hmembers]
                  rfl
      · next hrange =>
          obtain ⟨members, hmembers, heq⟩ := map_eq_ok hread
          cases heq
          have hlow' : low ≠ .word .boundary := by
            rintro rfl
            cases hmembers
          refine ((readPrimitive_locally_of_ne hlow' hlow).comp (hskip.comp hsame)).mono ?_
          rintro rest after ⟨_, hlow, _, rfl, rfl, hrange'⟩
          simp only [readMember, hlow, hrange', hrange, hmembers]
          rfl

theorem readLeadingHyphens_locally {verbose : Bool} (frame : ClassFrame) (text : List Char) :
    ReadsLocally (fun text' after => readLeadingHyphens verbose frame text' =
      ((readLeadingHyphens verbose frame text).1, after)) text
      (readLeadingHyphens verbose frame text).2 := by
  fun_induction readLeadingHyphens verbose frame text with
  | case1 frame rest ih =>
      refine ((skipVerbose_locally verbose rest).comp ih).cons.mono ?_
      rintro _ _ ⟨_, rfl, _, rfl, hrest⟩
      rw [readLeadingHyphens, hrest]
  | case2 frame text hhyphen =>
      refine .stay fun front behind hcut => ?_
      cases front with
      | nil => simp [readLeadingHyphens]
      | cons c front =>
          rw [readLeadingHyphens.eq_def]
          split
          · next heq => exact (hhyphen _ (by rw [hcut, heq, List.cons_append])).elim
          · rfl

/-- The start of a class behind its sign of negation. -/
def openMembers (verbose negated : Bool) (text : List Char) : ClassFrame × List Char :=
  match text with
  | ']' :: rest =>
      (ClassFrame.add { negated } ⟨CharSet.singleton ']', 0⟩, skipVerbose verbose rest)
  | text => readLeadingHyphens verbose { negated } text

theorem openClass_eq (verbose : Bool) (text : List Char) :
    openClass verbose text = match skipVerbose verbose text with
      | '^' :: rest => openMembers verbose true (skipVerbose verbose rest)
      | text => openMembers verbose false text := by
  unfold openClass
  generalize skipVerbose verbose text = shown
  match shown with
  | [] => rfl
  | c :: rest =>
      by_cases hc : c = '^'
      · subst hc
        rfl
      · grind [openMembers]

theorem openMembers_locally (verbose negated : Bool) (text : List Char) :
    ReadsLocally (fun text' after => openMembers verbose negated text' =
      ((openMembers verbose negated text).1, after)) text (openMembers verbose negated text).2 := by
  unfold openMembers
  split
  · next rest =>
      refine (skipVerbose_locally verbose rest).cons.mono ?_
      rintro _ _ ⟨_, rfl, rfl⟩
      rfl
  · next hbracket =>
      have hfirst : ¬[']'] <+: text := by simpa [singleton_prefix_iff] using hbracket
      refine ((readLeadingHyphens_locally { negated } text).and_not_begins hfirst).mono ?_
      rintro text' after ⟨hread, hfirst⟩
      split
      · exact absurd (singleton_prefix_iff.2 ⟨_, rfl⟩) hfirst
      · exact hread

theorem openClass_locally (verbose : Bool) (text : List Char) :
    ReadsLocally (fun text' after => openClass verbose text' = ((openClass verbose text).1, after))
      text (openClass verbose text).2 := by
  simp only [openClass_eq]
  split
  · next rest hskip =>
      refine ((skipVerbose_cons_locally hskip).comp
        ((skipVerbose_locally verbose rest).comp (openMembers_locally verbose true _))).mono ?_
      rintro text' after ⟨_, hskip', _, rfl, hread⟩
      simpa [hskip'] using hread
  · next hsign =>
      have hfirst : ¬['^'] <+: skipVerbose verbose text := by
        simpa [singleton_prefix_iff] using hsign
      refine ((skipVerbose_locally verbose text).comp
        ((openMembers_locally verbose false _).and_not_begins hfirst)).mono ?_
      rintro text' after ⟨_, rfl, hread, hfirst⟩
      split
      · next hsign' => exact absurd (singleton_prefix_iff.2 ⟨_, hsign'⟩) hfirst
      · exact hread

/-- The name of a class behind its sign of negation. -/
def namedBody? (negated : Bool) (text : List Char) : Option (CharSet × Bool × List Char) :=
  let name := text.takeWhile (· != ':')
  match text.drop name.length, namedClassRanges.lookup (String.ofList name) with
  | ':' :: ']' :: rest, some ranges => some (CharSet.ofRanges ranges, negated, rest)
  | _, _ => none

theorem namedClass?_eq (text : List Char) :
    namedClass? text = match text with
      | ':' :: '^' :: rest => namedBody? true rest
      | ':' :: rest => namedBody? false rest
      | _ => none := by
  unfold namedClass?
  match text with
  | [] => rfl
  | c :: text =>
      by_cases hc : c = ':'
      · subst hc
        match text with
        | [] => rfl
        | d :: rest =>
            by_cases hd : d = '^'
            · subst hd
              rfl
            · grind [namedBody?]
      · simp [hc]

theorem namedBody?_eq_some_iff {negated sign : Bool} {text after : List Char} {set : CharSet} :
    namedBody? negated text = some (set, sign, after) ↔
      ∃ name ranges, text = name ++ ':' :: ']' :: after ∧ ':' ∉ name ∧
        namedClassRanges.lookup (String.ofList name) = some ranges ∧
        CharSet.ofRanges ranges = set ∧ negated = sign := by
  constructor
  · intro hread
    unfold namedBody? at hread
    dsimp only at hread
    split at hread
    · next rest ranges hdrop hlookup =>
        cases hread
        refine ⟨text.takeWhile (· != ':'), ranges, ?_, ?_, hlookup, rfl, rfl⟩
        · rw [← hdrop, drop_length_takeWhile, List.takeWhile_append_dropWhile]
        · intro hmem
          simpa using List.mem_takeWhile_imp hmem
    · cases hread
  · rintro ⟨name, ranges, rfl, hname, hlookup, rfl, rfl⟩
    have htake : (name ++ ':' :: ']' :: after).takeWhile (· != ':') = name := by
      rw [List.takeWhile_append_of_pos (by grind)]
      simp
    simp [namedBody?, htake, hlookup]

theorem namedBody?_locally {negated sign : Bool} {text after : List Char} {set : CharSet}
    (hread : namedBody? negated text = some (set, sign, after)) :
    ReadsLocally (fun text after => namedBody? negated text = some (set, sign, after)) text
      after := by
  obtain ⟨name, ranges, rfl, hname, hlookup, heq⟩ := namedBody?_eq_some_iff.1 hread
  refine ⟨name ++ [':', ']'], by simp, fun front _ _ => ?_⟩
  exact namedBody?_eq_some_iff.2 ⟨name, ranges, by simp, hname, hlookup, heq⟩

theorem namedClass?_locally {text after : List Char} {set : CharSet} {sign : Bool}
    (hread : namedClass? text = some (set, sign, after)) :
    ReadsLocally (fun text after => namedClass? text = some (set, sign, after)) text after := by
  rw [namedClass?_eq] at hread
  split at hread
  · refine (namedBody?_locally hread).cons.cons.mono ?_
    rintro _ _ ⟨_, rfl, _, rfl, hread⟩
    rwa [namedClass?_eq]
  · next rest hsign =>
      have hfirst : ¬['^'] <+: rest := by simpa [singleton_prefix_iff] using hsign
      refine ((namedBody?_locally hread).and_not_begins hfirst).cons.mono ?_
      rintro _ _ ⟨text, rfl, hread, hfirst⟩
      rw [singleton_prefix_iff] at hfirst
      rw [namedClass?_eq]
      split
      · next heq => exact absurd ⟨_, (List.cons.inj heq).2⟩ hfirst
      · next heq =>
          rw [← (List.cons.inj heq).2]
          exact hread
      · next heq => exact (heq _ rfl).elim
  · cases hread

/-- A named class is none the less one with more text behind it. -/
theorem namedClass?_append {text after : List Char} {set : CharSet} {sign : Bool}
    (hread : namedClass? text = some (set, sign, after)) (more : List Char) :
    namedClass? (text ++ more) = some (set, sign, after ++ more) := by
  have hbody : ∀ {negated : Bool} {text : List Char},
      namedBody? negated text = some (set, sign, after) →
        namedBody? negated (text ++ more) = some (set, sign, after ++ more) := by
    intro negated text hread
    obtain ⟨name, ranges, rfl, hname, hlookup, heq⟩ := namedBody?_eq_some_iff.1 hread
    exact namedBody?_eq_some_iff.2 ⟨name, ranges, by simp, hname, hlookup, heq⟩
  rw [namedClass?_eq] at hread
  split at hread
  · rw [namedClass?_eq]
    exact hbody hread
  · next rest hsign =>
      have hmore := hbody hread
      cases rest with
      | nil => cases hread
      | cons d rest =>
          rw [namedClass?_eq]
          split
          · next heq =>
              have hd : d = '^' := (List.cons.inj (List.cons.inj heq).2).1
              exact (hsign rest (by rw [hd])).elim
          · next heq =>
              rw [← (List.cons.inj heq).2]
              exact hmore
          · next heq => exact (heq _ rfl).elim
  · cases hread

theorem opRead?_locally {c : Char} {rest after : List Char} {op : ClassOp}
    (hread : ClassOp.read? (c :: rest) = some (op, after)) :
    ReadsLocally (fun rest after => ClassOp.read? (c :: rest) = some (op, after)) rest after := by
  unfold ClassOp.read? at hread
  split at hread
  · next heq =>
      cases heq
      cases hread
      exact head fun _ => rfl
  · next heq =>
      cases heq
      cases hread
      exact head fun _ => rfl
  · next heq =>
      cases heq
      cases hread
      exact head fun _ => rfl
  · cases hread

theorem opRead?_append {text after : List Char} {op : ClassOp}
    (hread : ClassOp.read? text = some (op, after)) (more : List Char) :
    ClassOp.read? (text ++ more) = some (op, after ++ more) := by
  unfold ClassOp.read? at hread
  split at hread
  all_goals
    cases hread
    try rfl

theorem classStep_locally {flags : Flags} {frame : ClassFrame} {outer : List ClassFrame} {c : Char}
    {rest after : List Char} {state : ClassState}
    (hstep : classStep flags frame outer c rest = .ok (state, after)) :
    ReadsLocally (fun rest after => classStep flags frame outer c rest = .ok (state, after)) rest
      after := by
  unfold classStep at hstep
  dsimp only at hstep
  split at hstep
  · next hc =>
      split at hstep
      · next hnamed =>
          obtain ⟨members, hmembers, heq⟩ := map_eq_ok hstep
          cases heq
          refine (namedClass?_locally hnamed).mono fun hnamed => ?_
          simp only [classStep, hc, if_true, hnamed, hmembers]
          rfl
      · next hnamed =>
          cases hstep
          refine ((openClass_locally flags.verbose rest).and_of_front
            (P := fun cut => namedClass? cut = none) ?_).mono ?_
          · rintro cut ⟨more, rfl⟩
            rcases hcut : namedClass? cut with _ | ⟨set, sign, after⟩
            · rfl
            · rw [namedClass?_append hcut] at hnamed
              cases hnamed
          · rintro rest after ⟨hopen, hnamed⟩
            simp only [classStep, hc, if_true, hnamed, hopen]
  · next hc =>
      split at hstep
      · next hbracket =>
          obtain ⟨closed, hclosed, heq⟩ := map_eq_ok hstep
          cases heq
          refine .stay fun front _ _ => ?_
          simp only [classStep, hc, hbracket, if_true, hclosed]
          rfl
      · next hbracket =>
          split at hstep
          · next hop =>
              cases hstep
              refine (opRead?_locally hop).mono fun hop => ?_
              simp only [classStep, hc, hbracket, hop]
              rfl
          · next hop =>
              obtain ⟨⟨members, behind⟩, hmember, heq⟩ := map_eq_ok hstep
              cases heq
              refine ((readMember_locally hmember).and_of_front
                (P := fun cut => ClassOp.read? (c :: cut) = none) ?_).mono ?_
              · rintro cut ⟨more, rfl⟩
                rcases hcut : ClassOp.read? (c :: cut) with _ | ⟨op, after⟩
                · rfl
                · rw [← List.cons_append, opRead?_append hcut] at hop
                  cases hop
              · rintro rest after ⟨hmember, hop⟩
                simp only [classStep, hc, hbracket, hop, hmember]
                rfl

theorem readClassFrom_locally {flags : Flags} {frame : ClassFrame} {outer : List ClassFrame}
    {text after : List Char} {value : ClassValue}
    (hread : readClassFrom flags frame outer text = .ok (value, after)) :
    ReadsLocally (fun text after => readClassFrom flags frame outer text = .ok (value, after)) text
      after := by
  fun_induction readClassFrom flags frame outer text with
  | case1 => cases hread
  | case2 => cases hread
  | case3 frame outer text c rest htext value' after' hstep =>
      cases hread
      refine ((skipVerbose_cons_locally htext).comp (classStep_locally hstep)).mono ?_
      rintro text after ⟨_, hskip, hstep⟩
      rw [readClassFrom.eq_def]
      grind
  | case4 frame outer text c rest htext frame' outer' after' hstep ih =>
      refine ((skipVerbose_cons_locally htext).comp
        ((classStep_locally hstep).comp (ih hread))).mono ?_
      rintro text after ⟨_, hskip, _, hstep, hrest⟩
      rw [readClassFrom.eq_def]
      grind

theorem readClass_locally {flags : Flags} {text after : List Char} {value : ClassValue}
    (hread : readClass flags text = .ok (value, after)) :
    ReadsLocally (fun text after => readClass flags text = .ok (value, after)) text after := by
  refine ((openClass_locally flags.verbose text).comp (readClassFrom_locally hread)).mono ?_
  rintro text after ⟨_, hopen, hread⟩
  rw [readClass, hopen]
  exact hread

end WorkflowAudit.Regex
