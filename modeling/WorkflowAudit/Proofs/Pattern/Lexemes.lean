import WorkflowAudit.Proofs.Pattern.ClassExtent
import WorkflowAudit.Proofs.Pattern.VerboseText
import WorkflowAudit.Proofs.Regex.Repetition
import WorkflowAudit.Proofs.Text.Pieces

/-!
# Where lexemes end

The screen measures a lexeme without reading what is in it.  Where the reader of
expressions accepts what stands behind a parenthesis, an operator or a backslash,
the screen finds the same end for it, the same flags and the same bound.  Verbose text
is read as plain text is, up to what the reader drops: a lexeme that ends in the same
place in both is the same lexeme.
-/

namespace WorkflowAudit.Pattern

open Text Regex

/-! ## Openings -/

/-- A flag is a letter, and only one letter sets the verbose flag. -/
theorem letter_of_ofChar? {c : Char} {flag : Flag} (hflag : Flag.ofChar? c = some flag) :
    isAsciiLetter c = true ∧ ∀ (flags : Flags) (value : Bool),
      (flags.set flag value).verbose = if c = 'x' then value else flags.verbose := by
  obtain ⟨before, after, htable, -⟩ := List.lookup_eq_some_iff.1 hflag
  have hentry : (c, flag) ∈ before ++ (c, flag) :: after := by simp
  rw [← htable] at hentry
  simp only [List.mem_cons, Prod.mk.injEq, List.not_mem_nil, or_false] at hentry
  rcases hentry with ⟨rfl, rfl⟩ | ⟨rfl, rfl⟩ | ⟨rfl, rfl⟩ | ⟨rfl, rfl⟩ | ⟨rfl, rfl⟩ | ⟨rfl, rfl⟩ |
    ⟨rfl, rfl⟩ <;> exact ⟨by decide, fun flags value => rfl⟩

/-- Flags that can be applied are letters and minus signs, and the screen and the
reader agree on the verbose flag behind them. -/
theorem flagChars_of_apply {flags inner : Flags} {value : Bool} {seen : List Flag}
    {text : List Char} (happly : flags.apply value seen text = .ok inner) :
    (∀ c ∈ text, (isAsciiLetter c || c == '-') = true) ∧
      inner.verbose = (text.foldl verboseStep (flags.verbose, !value)).1 := by
  fun_induction Flags.apply flags value seen text with
  | case1 =>
      cases happly
      exact ⟨fun c hc => absurd hc List.not_mem_nil, rfl⟩
  | case2 => cases happly
  | case3 flags value seen rest hsign ih =>
      obtain ⟨hchars, hverbose⟩ := ih happly
      refine ⟨fun c hc => ?_, ?_⟩
      · rcases List.mem_cons.1 hc with rfl | hc
        · decide
        · exact hchars c hc
      · simpa [verboseStep] using hverbose
  | case4 => cases happly
  | case5 => cases happly
  | case6 flags value seen c rest hsign flag hflag hnew ih =>
      obtain ⟨hchars, hverbose⟩ := ih happly
      refine ⟨fun d hd => ?_, ?_⟩
      · rcases List.mem_cons.1 hd with rfl | hd
        · rw [(letter_of_ofChar? hflag).1, Bool.true_or]
        · exact hchars d hd
      · have hc : c ≠ '-' := fun heq => hsign heq
        rw [hverbose, (letter_of_ofChar? hflag).2, List.foldl_cons, verboseStep, if_neg hc]
        split <;> simp

theorem verbose_of_apply {flags inner : Flags} {text : List Char}
    (happly : flags.apply true [] text = .ok inner) :
    inner.verbose = verboseAfter text flags.verbose :=
  (flagChars_of_apply happly).2

/-- What the screen finds behind a parenthesis, and what the reader makes of it. -/
inductive Opened (s : Reader) : List Char → Reader → List Char → Prop
  | group (names : List (List Char)) (flags : List Char) (extra : Nat) {rest after : List Char}
      {captures : Bool} {inner : Flags} (hnone : flagGroup? rest = none)
      (hopening : groupOpening rest = .ok ⟨extra, flags⟩) (hextent : rest.drop extra = after)
      (happly : s.flags.apply true [] flags = .ok inner) :
      Opened s rest { s.openGroup captures inner with names } after
  | setting (flags : List Char) {rest after : List Char} {inner : Flags}
      (hflags : flagGroup? rest = some flags) (hextent : rest.drop (flags.length + 2) = after)
      (happly : s.flags.apply true [] flags = .ok inner) :
      Opened s rest
        { s.push { regex := .empty, repeatable := false } with flags := inner } after

theorem takeWhile_flags {flags after : List Char}
    (hflags : ∀ c ∈ flags, (isAsciiLetter c || c == '-') = true) (last : Char)
    (hlast : (isAsciiLetter last || last == '-') = false) :
    (flags ++ last :: after).takeWhile (fun c => isAsciiLetter c || c == '-') = flags := by
  rw [List.takeWhile_append_of_pos hflags, List.takeWhile_cons, hlast]
  simp

theorem drop_mark (first mark : Char) (text after : List Char) :
    (first :: (text ++ mark :: after)).drop (text.length + 2) = after := by
  simp

theorem opened_of_readName {s next : Reader} {mark text after : List Char} {opening : Opening}
    (hmark : mark = ['<'] ∨ mark = ['P', '<']) (hread : readName text = .ok (opening, after))
    (hopen : s.applyOpening opening = .ok next) :
    Opened s ('?' :: (mark ++ text)) next after := by
  unfold readName at hread
  split at hread
  · next name rest hsplit =>
      split at hread
      · cases hread
        simp only [Reader.applyOpening] at hopen
        split at hopen
        · cases hopen
        · cases hopen
          obtain ⟨hname, rfl⟩ := splitFirst?_eq_some_iff.1 hsplit
          rw [← List.append_assoc]
          have hnamed : ((mark ++ name ++ '>' :: after).head? = some '<' ||
              (mark ++ name ++ '>' :: after).take 2 = ['P', '<']) = true := by
            rcases hmark with rfl | rfl <;> simp
          have hsplit : splitFirst? '>' (mark ++ name ++ '>' :: after) =
              some (mark ++ name, after) := by
            rw [splitFirst?_eq_some_iff]
            refine ⟨fun hmem => ?_, rfl⟩
            rcases List.mem_append.1 hmem with hmem | hmem
            · rcases hmark with rfl | rfl <;> revert hmem <;> decide
            · exact hname hmem
          refine .group _ [] ((mark ++ name).length + 2) ?_ ?_ (drop_mark _ _ _ _) rfl
          · rcases hmark with rfl | rfl <;> rfl
          · simp only [groupOpening, hnamed, hsplit, if_pos]
      · cases hread
  · cases hread

/-- Flags up to a colon belong to a group. -/
theorem opened_of_flagged {s : Reader} {flags after : List Char} {inner : Flags}
    (happly : s.flags.apply true [] flags = .ok inner) :
    Opened s ('?' :: (flags ++ ':' :: after)) (s.openGroup false inner) after := by
  have hchars := (flagChars_of_apply happly).1
  have hother : ∀ {c : Char}, c ∈ flags → c ≠ '<' ∧ c ≠ ':' := by
    intro c hc
    constructor <;> rintro rfl <;> exact absurd (hchars _ hc) (by decide)
  refine .group s.names flags (flags.length + 2) ?_ ?_ ?_ happly
  · simp [flagGroup?, takeWhile_flags hchars ':' (by decide)]
  · have hnamed : ((flags ++ ':' :: after).head? = some '<' ||
        (flags ++ ':' :: after).take 2 = ['P', '<']) = false := by
      rcases flags with _ | ⟨first, _ | ⟨second, flags⟩⟩ <;> simp_all
    have hsplit : splitFirst? ':' (flags ++ ':' :: after) = some (flags, after) :=
      splitFirst?_eq_some_iff.2 ⟨fun hc => (hother hc).2 rfl, rfl⟩
    simp only [groupOpening, hnamed, hsplit, if_neg Bool.false_ne_true]
  · exact drop_mark _ _ _ _

/-- Flags up to the end of their group are a setting. -/
theorem opened_of_setting {s : Reader} {flags after : List Char} {inner : Flags}
    (happly : s.flags.apply true [] flags = .ok inner) :
    Opened s ('?' :: (flags ++ ')' :: after))
      { s.push { regex := .empty, repeatable := false } with flags := inner } after := by
  have hchars := (flagChars_of_apply happly).1
  refine .setting flags ?_ (drop_mark _ _ _ _) happly
  simp [flagGroup?, takeWhile_flags hchars ')' (by decide)]

theorem opened_of_readFlags {s next : Reader} {text after : List Char} {opening : Opening}
    (hread : readFlags text = .ok (opening, after)) (hopen : s.applyOpening opening = .ok next) :
    Opened s ('?' :: text) next after := by
  unfold readFlags at hread
  dsimp only at hread
  split at hread
  · cases hread
  · next last behind hdrop =>
      have htext := List.takeWhile_append_dropWhile (p := fun c => c != ':' && c != ')') (l := text)
      have hlast := List.head?_dropWhile_not (fun c => c != ':' && c != ')') text
      rw [← drop_length_takeWhile, hdrop] at htext hlast
      cases hread
      generalize text.takeWhile _ = flags at *
      subst htext
      by_cases hcolon : last = ':'
      · subst hcolon
        obtain ⟨inner, happly, rfl⟩ := map_eq_ok hopen
        exact opened_of_flagged happly
      · have hclose : last = ')' := by simpa [hcolon] using hlast
        subst hclose
        have hsetting : s.applyOpening (.setting flags) = .ok next := hopen
        simp only [Reader.applyOpening] at hsetting
        split at hsetting
        · cases hsetting
        · obtain ⟨inner, happly, rfl⟩ := map_eq_ok hsetting
          exact opened_of_setting happly

theorem opened_of_readOpening {s next : Reader} {rest after : List Char} {opening : Opening}
    (hread : readOpening false rest = .ok (opening, after))
    (hopen : s.applyOpening opening = .ok next) : Opened s rest next after := by
  unfold readOpening at hread
  rw [skipVerbose_false] at hread
  split at hread
  case h_5 => exact opened_of_readName (.inl rfl) hread hopen
  case h_6 => exact opened_of_readName (.inr rfl) hread hopen
  case h_7 => exact opened_of_readFlags hread hopen
  case h_8 =>
    cases hread
    cases hopen
    refine .group s.names [] 0 ?_ ?_ rfl rfl
    · simp [flagGroup?]
    · simp [groupOpening]
  -- What is left looks around, which no reader accepts.
  all_goals
    cases hread
    cases hopen

theorem length_lt_of_readOpening {verbose : Bool} {rest after : List Char} {opening : Opening}
    (hread : readOpening verbose rest = .ok (opening, after)) :
    opening = .capture ∨ after.length < (skipVerbose verbose rest).length := by
  unfold readOpening at hread
  generalize skipVerbose verbose rest = text at hread ⊢
  split at hread
  case h_5 =>
    have := length_readName_le hread
    simp only [List.length_cons]
    omega
  case h_6 =>
    have := length_readName_le hread
    simp only [List.length_cons]
    omega
  case h_7 =>
    have := length_readFlags_le hread
    simp only [List.length_cons]
    omega
  case h_8 =>
    cases hread
    exact .inl rfl
  all_goals
    cases hread
    simp only [List.length_cons]
    omega

/-- What opens a group is the same in verbose text and in plain text if it ends in the
same place: a question mark behind a blank would have been left unread. -/
theorem opening_eq_of_readOpening {verbose inner : Bool} {rest after behind : List Char}
    {opening plain : Opening} (hread : readOpening verbose rest = .ok (opening, after))
    (hplain : readOpening false rest = .ok (plain, behind))
    (hskip : skipVerbose inner behind = skipVerbose inner after) : plain = opening := by
  by_cases hsame : skipVerbose verbose rest = rest
  · have heq : readOpening verbose rest = readOpening false rest := by
      unfold readOpening
      rw [hsame, skipVerbose_false]
    rw [heq, hplain] at hread
    cases hread
    rfl
  have hcapture : readOpening false rest = .ok (.capture, rest) := by
    have hmark : ∀ tail, rest ≠ '?' :: tail := by
      rintro tail rfl
      exact hsame (skipVerbose_cons_of_isVisible (fun _ => by decide) tail)
    unfold readOpening
    rw [skipVerbose_false]
    split <;> first | rfl | exact absurd rfl (hmark _)
  rw [hcapture] at hplain
  cases hplain
  rcases length_lt_of_readOpening hread with rfl | hlength
  · rfl
  · refine absurd hskip (skipVerbose_ne_of_length_lt (Nat.lt_of_lt_of_le hlength ?_))
    cases inner with
    | false => exact length_skipVerbose_le verbose rest
    | true =>
        cases verbose with
        | false => exact absurd rfl hsame
        | true => exact Nat.le_refl _

/-! ## Operators -/

theorem readDigits_false {text digits after : List Char}
    (hread : readDigits false text = (digits, after)) :
    text = digits ++ after ∧ ∀ c ∈ digits, isDecimalDigit c = true := by
  fun_induction readDigits false text generalizing digits after with
  | case1 =>
      cases hread
      simp
  | case2 c rest hc digits' after' hrest ih =>
      cases hread
      obtain ⟨hrest', hdigits⟩ := ih hrest
      rw [skipVerbose_false] at hrest'
      refine ⟨by rw [hrest', List.cons_append], ?_⟩
      intro d hd
      rcases List.mem_cons.1 hd with rfl | hd
      · exact hc
      · exact hdigits d hd
  | case3 =>
      cases hread
      simp

/-- A bound is digits among blanks, which the screen trims away. -/
structure IsBound (part : List Char) (bound : Nat) : Prop where
  digits : (trim part).all isDecimalDigit = true
  value : natOfDigits? 10 (trim part) = some bound
  chars : ∀ c ∈ part, isBlank c = true ∨ isDecimalDigit c = true

theorem IsBound.not_mem {part : List Char} {bound : Nat} (hbound : IsBound part bound) {c : Char}
    (hc : c ∈ [',', '\x7d']) : c ∉ part := by
  intro hmem
  simp only [List.mem_cons, List.not_mem_nil, or_false] at hc
  have hchars := hbound.chars c hmem
  rcases hc with rfl | rfl <;> revert hchars <;> decide

/-- A bound in plain text is one number, with blanks on both sides of it. -/
theorem exists_of_readBound {text after : List Char} {bound : Nat}
    (hread : readBound false text = (some bound, after)) :
    ∃ front digits back, text = front ++ (digits ++ (back ++ after)) ∧
      (∀ c ∈ front, isBlank c = true) ∧ (∀ c ∈ digits, isDecimalDigit c = true) ∧
      (∀ c ∈ back, isBlank c = true) ∧ bound ≤ maxRepeat ∧ natOfDigits? 10 digits = some bound := by
  unfold readBound at hread
  cases hfound : readDigits false (text.dropWhile isBlank) with
  | mk digits behind =>
  obtain ⟨hdigits, hchars⟩ := readDigits_false hfound
  simp only [hfound, skipVerbose_false, Prod.mk.injEq] at hread
  obtain ⟨hvalue, rfl⟩ := hread
  obtain ⟨hvalue, hmax⟩ := Option.filter_eq_some_iff.1 hvalue
  refine ⟨text.takeWhile isBlank, digits, behind.takeWhile isBlank, ?_,
    List.all_eq_true.1 List.all_takeWhile, hchars, List.all_eq_true.1 List.all_takeWhile,
    of_decide_eq_true hmax, hvalue⟩
  rw [List.takeWhile_append_dropWhile, ← hdigits, List.takeWhile_append_dropWhile]

theorem isBound_of_readBound {text after : List Char} {bound : Nat}
    (hread : readBound false text = (some bound, after)) :
    ∃ part, text = part ++ after ∧ IsBound part bound := by
  obtain ⟨front, digits, back, rfl, hfront, hdigits, hback, -, hvalue⟩ := exists_of_readBound hread
  have hdigit : ∀ c ∈ digits, isBlank c = false :=
    fun c hc => isBlank_of_isDecimalDigit (hdigits c hc)
  have htrim := trim_blanks_around hfront hdigit hback
  refine ⟨front ++ (digits ++ back), by simp only [List.append_assoc], ?_, ?_, ?_⟩
  · rw [htrim]
    exact List.all_eq_true.2 hdigits
  · rw [htrim]
    exact hvalue
  · intro c hc
    simp only [List.mem_append] at hc
    rcases hc with hc | hc | hc
    · exact .inl (hfront c hc)
    · exact .inr (hdigits c hc)
    · exact .inl (hback c hc)

theorem IsBound.trim_ne_nil {part : List Char} {bound : Nat} (hbound : IsBound part bound) :
    (trim part).isEmpty = false := by
  have hvalue := hbound.value
  unfold natOfDigits? at hvalue
  split at hvalue
  · cases hvalue
  · next hnonempty => simpa using hnonempty

theorem IsBound.splitFirst?_comma {part : List Char} {bound : Nat} (hbound : IsBound part bound)
    (upper : List Char) : splitFirst? ',' (part ++ ',' :: upper) = some (part, upper) :=
  splitFirst?_eq_some_iff.2 ⟨hbound.not_mem (by simp), rfl⟩

theorem IsBound.splitFirst?_brace {part : List Char} {bound : Nat} (hbound : IsBound part bound)
    {upper : List Char} (hupper : '\x7d' ∉ upper) (behind : List Char) :
    splitFirst? '\x7d' (part ++ ',' :: (upper ++ '\x7d' :: behind)) =
      some (part ++ ',' :: upper, behind) := by
  rw [splitFirst?_eq_some_iff]
  refine ⟨fun hmem => ?_, by simp⟩
  rcases List.mem_append.1 hmem with hmem | hmem
  · exact hbound.not_mem (by simp) hmem
  · rcases List.mem_cons.1 hmem with heq | hmem
    · revert heq
      decide
    · exact hupper hmem

theorem IsBound.braceBound?_exactly {part : List Char} {bound : Nat} (hbound : IsBound part bound) :
    Quantifier.braceBound? part = some (some bound) := by
  have hcomma : splitFirst? ',' part = none := splitFirst?_eq_none_iff.2 (hbound.not_mem (by simp))
  simp [Quantifier.braceBound?, hcomma, hbound.digits, hbound.value]

theorem IsBound.braceBound?_atLeast {part : List Char} {bound : Nat} (hbound : IsBound part bound) :
    Quantifier.braceBound? (part ++ [',']) = some none := by
  have htrim : trim [] = [] := rfl
  simp [Quantifier.braceBound?, hbound.splitFirst?_comma, htrim, hbound.digits, hbound.value]

theorem IsBound.braceBound?_between {part upper : List Char} {least most : Nat}
    (hleast : IsBound part least) (hmost : IsBound upper most) :
    Quantifier.braceBound? (part ++ ',' :: upper) = some (some most) := by
  simp [Quantifier.braceBound?, hleast.splitFirst?_comma, hleast.digits, hleast.value,
    hmost.digits, hmost.value, hmost.trim_ne_nil]

/-- The braces of a counted repetition, and the bound that the screen finds in them. -/
theorem braceBound?_of_readBounds {rest behind : List Char} {least : Nat} {most : Option Nat}
    (hread : readBounds false rest = .ok ((least, most), behind)) :
    ∃ body, splitFirst? '\x7d' rest = some (body, behind) ∧
      Quantifier.braceBound? body = some most := by
  unfold readBounds at hread
  rw [skipVerbose_false] at hread
  split at hread
  · next hfirst =>
      cases hread
      obtain ⟨part, rfl, hbound⟩ := isBound_of_readBound hfirst
      exact ⟨part, splitFirst?_eq_some_iff.2 ⟨hbound.not_mem (by simp), rfl⟩,
        hbound.braceBound?_exactly⟩
  · next lower text hfirst =>
      obtain ⟨part, rfl, hbound⟩ := isBound_of_readBound hfirst
      rw [skipVerbose_false] at hread
      split at hread
      · next hclose =>
          cases hread
          exact ⟨part ++ [','], hbound.splitFirst?_brace List.not_mem_nil behind,
            hbound.braceBound?_atLeast⟩
      · split at hread
        · next hsecond =>
            split at hread
            · cases hread
              obtain ⟨part', rfl, hbound'⟩ := isBound_of_readBound hsecond
              exact ⟨part ++ ',' :: part',
                hbound.splitFirst?_brace (hbound'.not_mem (by simp)) behind,
                hbound.braceBound?_between hbound'⟩
            · cases hread
        · cases hread
  · cases hread

theorem drop_withSuffix {most : Option Nat} {extra : Nat} {text following after : List Char}
    {isLazy : Bool} (hextent : text.drop extra = following)
    (hlazy : readLazy following = (isLazy, after))
    (heager : isLazy = false → after.head? ≠ some '+') :
    (Quantifier.withSuffix most extra following).max = most ∧
      text.drop (Quantifier.withSuffix most extra following).extra = after := by
  unfold Quantifier.withSuffix
  split
  · cases hlazy
    exact ⟨rfl, by rw [← List.drop_drop, hextent]; rfl⟩
  · cases hlazy
    exact absurd rfl (heager rfl)
  · next hquestion _ =>
      unfold readLazy at hlazy
      split at hlazy
      · exact absurd rfl (hquestion _)
      · cases hlazy
        exact ⟨rfl, hextent⟩

/-- An operator of the reader is one of the screen's, unless a plus sign follows
that the screen takes for a possessive mark. -/
theorem read?_of_readsOperator {c : Char} {rest after : List Char} {least : Nat}
    {most : Option Nat} {isLazy : Bool}
    (hread : Reader.ReadsOperator false c rest least most isLazy after)
    (heager : isLazy = false → after.head? ≠ some '+') :
    ∃ q, Quantifier.read? c rest = some q ∧ q.max = most ∧ rest.drop q.extra = after := by
  have hplain : ∀ {most : Option Nat}, readLazy rest = (isLazy, after) →
      (Quantifier.withSuffix most 0 rest).max = most ∧
        rest.drop (Quantifier.withSuffix most 0 rest).extra = after :=
    fun hlazy => drop_withSuffix rfl hlazy heager
  cases hread with
  | optional hlazy => exact ⟨_, rfl, hplain hlazy⟩
  | any hlazy => exact ⟨_, rfl, hplain hlazy⟩
  | some hlazy => exact ⟨_, rfl, hplain hlazy⟩
  | @counted _ behind _ _ _ _ hbounds hlazy =>
      obtain ⟨body, hsplit, hbound⟩ := braceBound?_of_readBounds hbounds
      refine ⟨Quantifier.withSuffix most (body.length + 1) behind, ?_, ?_⟩
      · simp [Quantifier.read?, hsplit, hbound]
      · obtain ⟨-, rfl⟩ := splitFirst?_eq_some_iff.1 hsplit
        exact drop_withSuffix (by simp) hlazy heager

/-! ## Operators in verbose text -/

theorem isVisible_of_isDecimalDigit {c : Char} (hc : isDecimalDigit c = true) (verbose : Bool) :
    IsVisible verbose c := by
  refine fun _ => ⟨isBlank_of_isDecimalDigit hc, ?_⟩
  rintro rfl
  revert hc
  decide

theorem readDigits_true {digits blanks rest : List Char} {c : Char} (hnonempty : digits ≠ [])
    (hdigits : ∀ d ∈ digits, isDecimalDigit d = true) (hblanks : ∀ d ∈ blanks, isBlank d = true)
    (hvisible : IsVisible true c) (hc : isDecimalDigit c = false) :
    readDigits true (digits ++ (blanks ++ c :: rest)) = (digits, c :: rest) := by
  induction digits with
  | nil => exact absurd rfl hnonempty
  | cons d digits ih =>
      have hd := hdigits d List.mem_cons_self
      cases digits with
      | nil =>
          have hrest : readDigits true (c :: rest) = ([], c :: rest) := by
            rw [readDigits, if_neg (by simp [hc])]
          rw [List.cons_append, List.nil_append, readDigits, if_pos hd, skipVerbose_blanks hblanks,
            skipVerbose_cons_of_isVisible hvisible, hrest]
      | cons e digits =>
          have he := hdigits e (.tail _ List.mem_cons_self)
          rw [List.cons_append, readDigits, if_pos hd, List.cons_append,
            skipVerbose_cons_of_isVisible (isVisible_of_isDecimalDigit he true), ← List.cons_append,
            ih (by simp) fun d hd => hdigits d (.tail _ hd)]

/-- A bound of plain text is the same bound in verbose text. -/
theorem readBound_true {text rest : List Char} {c : Char} {bound : Nat} (hc : c ∈ [',', '\x7d'])
    (hread : readBound false text = (some bound, c :: rest)) :
    ∃ d tail, skipVerbose true text = d :: tail ∧ isDecimalDigit d = true ∧
      readBound true (d :: tail) = (some bound, c :: rest) := by
  obtain ⟨front, digits, back, rfl, hfront, hdigits, hback, hmax, hvalue⟩ :=
    exists_of_readBound hread
  have hcloses : isBlank c = false ∧ c ≠ '#' ∧ isDecimalDigit c = false := by
    simp only [List.mem_cons, List.not_mem_nil, or_false] at hc
    rcases hc with rfl | rfl <;> decide
  have hvisible : IsVisible true c := fun _ => ⟨hcloses.1, hcloses.2.1⟩
  cases digits with
  | nil => cases hvalue
  | cons d digits =>
      have hd := hdigits d List.mem_cons_self
      refine ⟨d, digits ++ (back ++ c :: rest), ?_, hd, ?_⟩
      · rw [skipVerbose_blanks hfront]
        exact skipVerbose_cons_of_isVisible (isVisible_of_isDecimalDigit hd true) _
      · have hfirst : (d :: (digits ++ (back ++ c :: rest))).dropWhile isBlank =
            (d :: digits) ++ (back ++ c :: rest) := by
          simp [isBlank_of_isDecimalDigit hd]
        have hlast : (c :: rest).dropWhile isBlank = c :: rest := by
          simp [hcloses.1]
        have hbound : (natOfDigits? 10 (d :: digits)).filter (· ≤ maxRepeat) = some bound := by
          simp [hvalue, hmax]
        simp only [readBound, hfirst, hlast, hbound,
          readDigits_true (List.cons_ne_nil d digits) hdigits hback hvisible hcloses.2.2,
          skipVerbose_cons_of_isVisible hvisible]

theorem readBounds_true {text behind : List Char} {bounds : Nat × Option Nat}
    (hread : readBounds false text = .ok (bounds, behind)) :
    readBounds true text = .ok (bounds, behind) := by
  unfold readBounds at hread ⊢
  rw [skipVerbose_false] at hread
  split at hread
  · next hfirst =>
      obtain ⟨d, tail, hskip, -, hbound⟩ := readBound_true (by simp) hfirst
      rw [hskip, hbound]
      exact hread
  · next lower rest hfirst =>
      obtain ⟨d, tail, hskip, -, hbound⟩ := readBound_true (by simp) hfirst
      rw [hskip, hbound]
      rw [skipVerbose_false] at hread
      split at hread
      · next after =>
          have hclose : skipVerbose true ('\x7d' :: after) = '\x7d' :: after :=
            skipVerbose_cons_of_isVisible (fun _ => by decide) after
          simp only [hclose]
          exact hread
      · split at hread
        · next hsecond =>
            obtain ⟨d, tail, hskip, hd, hbound⟩ := readBound_true (by simp) hsecond
            simp only [hskip]
            split
            · next hclose =>
                cases hclose
                cases hd
            · rw [hbound]
              exact hread
        · cases hread
  · cases hread

theorem readLazy_eq_true {text after : List Char} (hlazy : readLazy text = (true, after)) :
    text = '?' :: after := by
  unfold readLazy at hlazy
  split at hlazy <;> cases hlazy
  rfl

theorem readLazy_eq_false {text after : List Char} (hlazy : readLazy text = (false, after)) :
    text = after ∧ ∀ rest, text ≠ '?' :: rest := by
  unfold readLazy at hlazy
  split at hlazy
  · cases hlazy
  · next hmark =>
      cases hlazy
      exact ⟨rfl, hmark⟩

/-- A lazy mark behind a blank would have been left unread in plain text. -/
theorem isLazy_eq_of_readLazy {text after behind : List Char} {isLazy plain : Bool}
    (hread : readLazy (skipVerbose true text) = (isLazy, after))
    (hplain : readLazy text = (plain, behind))
    (hskip : skipVerbose true behind = skipVerbose true after) : plain = isLazy := by
  cases plain with
  | true =>
      rw [readLazy_eq_true hplain, skipVerbose_cons_of_isVisible (fun _ => by decide)] at hread
      exact congrArg Prod.fst hread
  | false =>
      cases isLazy with
      | false => rfl
      | true =>
          obtain ⟨rfl, -⟩ := readLazy_eq_false hplain
          refine absurd hskip (skipVerbose_ne_of_length_lt ?_)
          rw [readLazy_eq_true hread]
          exact Nat.lt_succ_self _

/-- An operator is the same in verbose text and in plain text if it ends in the same
place. -/
theorem readsOperator_false {verbose : Bool} {c : Char} {rest after behind : List Char}
    {least least' : Nat} {most most' : Option Nat} {isLazy isLazy' : Bool}
    (hread : Reader.ReadsOperator verbose c rest least most isLazy after)
    (hplain : Reader.ReadsOperator false c rest least' most' isLazy' behind)
    (hskip : skipVerbose verbose behind = skipVerbose verbose after) :
    Reader.ReadsOperator false c rest least most isLazy behind := by
  cases hplain with
  | optional hplain =>
      cases hread with
      | optional hread =>
          cases hplain.symm.trans hread
          exact .optional hplain
  | any hplain =>
      cases hread with
      | any hread =>
          cases hplain.symm.trans hread
          exact .any hplain
  | some hplain =>
      cases hread with
      | some hread =>
          cases hplain.symm.trans hread
          exact .some hplain
  | counted hbounds' hplain =>
      cases hread with
      | counted hbounds hread =>
          rw [skipVerbose_false] at hplain
          cases verbose with
          | false =>
              cases hbounds'.symm.trans hbounds
              cases hplain.symm.trans hread
              exact .counted hbounds hplain
          | true =>
              cases (readBounds_true hbounds').symm.trans hbounds
              rw [isLazy_eq_of_readLazy hread hplain hskip] at hplain
              exact .counted hbounds' hplain

/-! ## Text, classes and escapes -/

theorem push_push (t : ScreenState) (front back : List Char) :
    (t.push front).push back = t.push (front ++ back) := by
  simp [ScreenState.push]

theorem screenFrom_plain {t : ScreenState} {c : Char} (hvisible : IsVisible t.frame.verbose c)
    (hc : c ∉ Reader.signs) (rest : List Char) :
    screenFrom t (c :: rest) = screenFrom (t.push [c]) rest := by
  have hstep : screenStep t c rest = .ok (t.push [c], 0) := by
    simp only [Reader.signs, List.mem_cons, List.not_mem_nil, or_false, not_or] at hc
    cases hverbose : t.frame.verbose with
    | false => simp [screenStep, hverbose, hc]
    | true => simp [screenStep, hverbose, hvisible hverbose, hc]
  exact screenFrom_of_screenStep hstep

theorem screenFrom_name {t : ScreenState} {front name : List Char}
    (hvisible : ∀ c ∈ name, IsVisible t.frame.verbose c) (hname : ∀ c ∈ name, c ∉ Reader.signs)
    (rest : List Char) :
    screenFrom (t.push front) (name ++ rest) = screenFrom (t.push (front ++ name)) rest := by
  induction name generalizing front with
  | nil => simp
  | cons c name ih =>
      have hpush : IsVisible (t.push front).frame.verbose c := hvisible c List.mem_cons_self
      rw [List.cons_append, screenFrom_plain hpush (hname c List.mem_cons_self), push_push,
        ih (fun d hd => hvisible d (.tail _ hd)) fun d hd => hname d (.tail _ hd),
        List.append_assoc]
      rfl

/-- The screen takes a class for text, whether blanks mean something or not. -/
theorem screenFrom_of_readClass {t : ScreenState} {flags : Flags} (hflags : flags.verbose = false)
    {rest after : List Char} {value : ClassValue} (hplain : IsPlainClass flags rest)
    (hread : readClass flags rest = .ok (value, after)) :
    ∃ text, screenFrom t ('[' :: rest) = screenFrom (t.push text) after := by
  obtain ⟨extent, hextent, hafter⟩ := classExtent_of_readClass hflags hplain hread
  have hblank : isBlank '[' = false := by decide
  refine ⟨'[' :: rest.take extent, ?_⟩
  rw [← hafter]
  apply screenFrom_of_screenStep
  simp [screenStep, hblank, hextent, Except.mapError]

theorem screenFrom_escape {t : ScreenState} {rest after : List Char} {extent : Nat}
    (hextent : escapeExtent rest = .ok extent) (hafter : rest.drop extent = after) :
    ∃ text, screenFrom t ('\\' :: rest) = screenFrom (t.push text) after := by
  have hblank : isBlank '\\' = false := by decide
  refine ⟨'\\' :: rest.take extent, ?_⟩
  rw [← hafter]
  apply screenFrom_of_screenStep
  simp [screenStep, hblank, hextent, Except.mapError]

theorem escapeExtent_braced {kind : Char} (hkind : kind ∈ ['p', 'P', 'x', 'u', 'U'])
    {name : List Char} (hname : '\x7d' ∉ name) (after : List Char) :
    escapeExtent (kind :: '\x7b' :: (name ++ '\x7d' :: after)) = .ok (name.length + 3) := by
  have hsplit : splitFirst? '\x7d' (name ++ '\x7d' :: after) = some (name, after) :=
    splitFirst?_eq_some_iff.2 ⟨hname, rfl⟩
  have hbraced : ['p', 'P', 'x', 'u', 'U'].contains kind = true := List.contains_iff_mem.2 hkind
  simp only [escapeExtent, hbraced, hsplit]

theorem escapeExtent_open {kind c : Char} (hc : c ≠ '\x7b') (after : List Char) :
    escapeExtent (kind :: c :: after) =
      .ok (if kind = 'x' then 3 else if kind = 'u' then 5 else if kind = 'U' then 9 else 1) := by
  simp only [escapeExtent]
  split
  · next heq => exact absurd (List.cons.inj heq).1 hc
  · rfl

theorem ne_brace_of_isHexDigit {c : Char} (hc : isHexDigit c = true) :
    c ≠ '\x7b' ∧ c ≠ '\x7d' := by
  constructor <;> rintro rfl <;> revert hc <;> decide

theorem isNameChar_of_isEdgeNameChar {c : Char} (hc : isEdgeNameChar c = true) :
    Unicode.isNameChar c = true := by
  simp only [isEdgeNameChar, Bool.or_eq_true, beq_iff_eq] at hc
  rcases hc with hletter | rfl
  · simp [Unicode.isNameChar, hletter]
  · decide

theorem not_mem_signs_of_isNameChar {c : Char} (hc : Unicode.isNameChar c = true) :
    c ∉ Reader.signs := by
  intro hmem
  simp only [Reader.signs, List.mem_cons, List.not_mem_nil, or_false] at hmem
  rcases hmem with rfl | rfl | rfl | rfl | rfl | rfl | rfl | rfl | rfl <;> revert hc <;> decide

theorem isDecimalDigit_of_isEdgeNameChar {c : Char} (hc : isEdgeNameChar c = true) :
    isDecimalDigit c = false := by
  simp only [isEdgeNameChar, isAsciiLetter, Bool.or_eq_true, Bool.and_eq_true, decide_eq_true_eq,
    beq_iff_eq, Char.le_def, UInt32.le_iff_toNat_le] at hc
  rcases hc with (⟨hlow, hhigh⟩ | ⟨hlow, hhigh⟩) | rfl
  · simp only [isDecimalDigit, Bool.and_eq_false_iff, decide_eq_false_iff_not, Char.le_def,
      UInt32.le_iff_toNat_le]
    simp_all
    omega
  · simp only [isDecimalDigit, Bool.and_eq_false_iff, decide_eq_false_iff_not, Char.le_def,
      UInt32.le_iff_toNat_le]
    simp_all
    omega
  · decide

/-- The name of a word edge is no bound. -/
theorem braceBound?_edgeName {name : List Char} (hname : ∀ c ∈ name, isEdgeNameChar c = true) :
    Quantifier.braceBound? name = none := by
  have hcomma : splitFirst? ',' name = none := by
    rw [splitFirst?_eq_none_iff]
    intro hmem
    exact absurd (hname _ hmem) (by decide)
  cases htrim : trim name with
  | nil => simp [Quantifier.braceBound?, hcomma, htrim, natOfDigits?]
  | cons c rest =>
      have hc : isDecimalDigit c = false :=
        isDecimalDigit_of_isEdgeNameChar (hname c (mem_of_mem_trim (htrim ▸ List.mem_cons_self)))
      simp [Quantifier.braceBound?, hcomma, htrim, hc]

theorem escapeExtent_digits {kind : Char} {digits : List Char}
    (hkind : (kind, digits.length) ∈ [('x', 2), ('u', 4), ('U', 8)])
    (hdigits : ∀ c ∈ digits, isHexDigit c = true) (after : List Char) :
    escapeExtent (kind :: (digits ++ after)) = .ok (digits.length + 1) := by
  cases digits with
  | nil => simp at hkind
  | cons c digits =>
      have hc := (ne_brace_of_isHexDigit (hdigits c List.mem_cons_self)).1
      rw [List.cons_append, escapeExtent_open hc]
      simp only [List.mem_cons, Prod.mk.injEq, List.not_mem_nil, or_false] at hkind
      rcases hkind with ⟨rfl, hlength⟩ | ⟨rfl, hlength⟩ | ⟨rfl, hlength⟩ <;>
        rw [hlength] <;> rfl

theorem isBlank_of_isEdgeNameChar {c : Char} (hc : isEdgeNameChar c = true) :
    isBlank c = false := by
  simp only [isEdgeNameChar, Bool.or_eq_true, beq_iff_eq] at hc
  rcases hc with hletter | rfl
  · exact isBlank_of_isAsciiLetter hletter
  · decide

/-- The screen ends the escape before the letter, and takes the letter for text. -/
theorem screenFrom_letterProperty {t : ScreenState} {kind c : Char} (hkind : kind ∈ ['p', 'P'])
    (hc : c ≠ '\x7b') {set : CharSet} (hset : Unicode.named? (String.ofList [c]) = some set)
    (after : List Char) :
    ∃ text, screenFrom t ('\\' :: kind :: c :: after) = screenFrom (t.push text) after := by
  have hextent : escapeExtent (kind :: c :: after) = .ok 1 := by
    rw [escapeExtent_open hc]
    rcases List.mem_cons.1 hkind with rfl | hkind
    · rfl
    · rw [List.mem_singleton.1 hkind]
      rfl
  have hname := Unicode.isNameChar_of_named? hset c (by simp)
  have hplain : ∀ d ∈ [c], d ∉ Reader.signs := by
    intro d hd
    rw [List.mem_singleton.1 hd]
    exact not_mem_signs_of_isNameChar hname
  have hvisible : ∀ d ∈ [c], IsVisible t.frame.verbose d := by
    intro d hd _
    rw [List.mem_singleton.1 hd]
    refine ⟨Unicode.isBlank_of_named? hset, ?_⟩
    rintro rfl
    revert hname
    decide
  obtain ⟨text, htext⟩ := screenFrom_escape (t := t) hextent rfl
  refine ⟨text ++ [c], ?_⟩
  rw [htext]
  exact screenFrom_name hvisible hplain after

/-- The braces of a word edge open no repetition, so the screen takes the name for
text. -/
theorem screenFrom_wordEdge {t : ScreenState} {name : List Char}
    (hname : ∀ c ∈ name, isEdgeNameChar c = true) (after : List Char) :
    ∃ text, screenFrom t ('\\' :: 'b' :: '\x7b' :: (name ++ '\x7d' :: after)) =
      screenFrom (t.push text) after := by
  have hextent : escapeExtent ('b' :: '\x7b' :: (name ++ '\x7d' :: after)) = .ok 1 := rfl
  have hclosed : ∀ c ∈ name ++ ['\x7d'], c ∉ Reader.signs := by
    intro c hmem
    rcases List.mem_append.1 hmem with hmem | hmem
    · exact not_mem_signs_of_isNameChar (isNameChar_of_isEdgeNameChar (hname c hmem))
    · rw [List.mem_singleton.1 hmem]
      decide
  have hvisible : ∀ c ∈ name ++ ['\x7d'], IsVisible t.frame.verbose c := by
    intro c hmem _
    rcases List.mem_append.1 hmem with hmem | hmem
    · refine ⟨isBlank_of_isEdgeNameChar (hname c hmem), ?_⟩
      rintro rfl
      exact absurd (hname _ hmem) (by decide)
    · rw [List.mem_singleton.1 hmem]
      decide
  have hsplit : splitFirst? '\x7d' (name ++ '\x7d' :: after) = some (name, after) := by
    refine splitFirst?_eq_some_iff.2 ⟨fun hmem => ?_, rfl⟩
    exact absurd (hname _ hmem) (by decide)
  obtain ⟨text, htext⟩ := screenFrom_escape (t := t) hextent rfl
  have hblank : isBlank '\x7b' = false := by decide
  have hopen : screenStep (t.push text) '\x7b' (name ++ '\x7d' :: after) =
      .ok ((t.push text).push ['\x7b'], 0) := by
    simp [screenStep, hblank, Quantifier.read?, hsplit, braceBound?_edgeName hname]
  refine ⟨text ++ ['\x7b'] ++ (name ++ ['\x7d']), ?_⟩
  rw [htext, ← screenFrom_name hvisible hclosed, ← push_push, List.append_assoc]
  exact screenFrom_of_screenStep hopen

/-- What stands behind a backslash adds text to the screen, and nothing else. -/
theorem screenFrom_of_readEscape {t : ScreenState} {flags : Flags} {rest after : List Char}
    {found : Primitive} {regex : Regex} (hread : readEscape false rest = .ok (found, after))
    (hregex : found.regex flags = .ok regex) :
    ∃ text, screenFrom t ('\\' :: rest) = screenFrom (t.push text) after := by
  cases escaped_of_readEscape hread with
  | @single kind _ _ hkind =>
      have hextent : escapeExtent (kind :: after) = .ok 1 := by
        simp only [List.mem_cons, List.not_mem_nil, or_false, not_or] at hkind
        simp [escapeExtent, hkind]
      exact screenFrom_escape hextent rfl
  | digits hkind hdigits =>
      exact screenFrom_escape (escapeExtent_digits hkind hdigits after) (by simp)
  | bracedDigits hkind hdigits =>
      have hname : '\x7d' ∉ _ := fun hmem => (ne_brace_of_isHexDigit (hdigits _ hmem)).2 rfl
      have hextent := escapeExtent_braced (.tail _ (.tail _ hkind)) hname after
      exact screenFrom_escape hextent (by simp)
  | bracedProperty hkind hname =>
      have hextent := escapeExtent_braced (List.mem_append_left _ hkind) hname after
      exact screenFrom_escape hextent (by simp)
  | @letterProperty _ c _ _ hkind hc =>
      cases hset : Unicode.named? (String.ofList [c]) with
      | none =>
          rw [hset] at hregex
          cases hregex
      | some set => exact screenFrom_letterProperty hkind hc hset after
  | edge hname => exact screenFrom_wordEdge hname after

end WorkflowAudit.Pattern
