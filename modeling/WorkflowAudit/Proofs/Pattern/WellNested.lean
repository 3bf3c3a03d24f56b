import WorkflowAudit.Proofs.Outcome
import WorkflowAudit.Proofs.Pattern.NestedRepetition

/-!
# Accepted patterns are well nested

The screen finds fault with a pattern whose brackets and parentheses do not match as it
counts them.  It counts what the reader of expressions counts, wherever a lexeme shows its
end in its text: then a pattern that the reader accepts is never called malformed, whatever
operators it has.  The screen looks at raw characters within a lexeme, though, and falls out
of step where the reader drops a blank there or takes a bracket for a member.
-/

namespace WorkflowAudit.Pattern

open Text Regex Regex.Reader

/-! ## Nesting -/

/-- A character that opens, closes or quotes nothing. -/
def IsIdle (c : Char) : Prop := c ∉ ['\\', '[', '(', ')']

instance (c : Char) : Decidable (IsIdle c) :=
  inferInstanceAs (Decidable (c ∉ ['\\', '[', '(', ')']))

theorem isIdle_of_not_mem_signs {c : Char} (hc : c ∉ signs) : IsIdle c := by
  have hsubset : ['\\', '[', '(', ')'] ⊆ signs := by decide
  exact fun hmem => hc (hsubset hmem)

/-- Text whose parentheses match when groups are open around it.  The verbose flag of the
group at hand and those of the groups around it tell what is a comment. -/
inductive WellNested : Bool → List Bool → List Char → Prop
  | done {verbose : Bool} : WellNested verbose [] []
  | idle {verbose : Bool} {outer : List Bool} {c : Char} {rest : List Char} (hc : IsIdle c)
      (hsign : verbose = true → c ≠ '#') (hlater : WellNested verbose outer rest) :
      WellNested verbose outer (c :: rest)
  | comment {outer : List Bool} {rest : List Char}
      (hlater : WellNested true outer (rest.drop ((rest.takeWhile (· ≠ '\n')).length + 1))) :
      WellNested true outer ('#' :: rest)
  | escaped {verbose : Bool} {outer : List Bool} {rest : List Char} {extent : Nat}
      (hextent : escapeExtent rest = .ok extent)
      (hlater : WellNested verbose outer (rest.drop extent)) :
      WellNested verbose outer ('\\' :: rest)
  | bracketed {verbose : Bool} {outer : List Bool} {rest : List Char} {extent : Nat}
      (hextent : classExtent rest = .ok extent)
      (hlater : WellNested verbose outer (rest.drop extent)) :
      WellNested verbose outer ('[' :: rest)
  | setting {verbose : Bool} {outer : List Bool} {rest flags : List Char}
      (hflags : flagGroup? rest = some flags)
      (hlater : WellNested (verboseAfter flags verbose) outer (rest.drop (flags.length + 2))) :
      WellNested verbose outer ('(' :: rest)
  | opened {verbose : Bool} {outer : List Bool} {rest : List Char} {opening : GroupOpening}
      (hnone : flagGroup? rest = none) (hopening : groupOpening rest = .ok opening)
      (hlater : WellNested (verboseAfter opening.flags verbose) (verbose :: outer)
        (rest.drop opening.extra)) :
      WellNested verbose outer ('(' :: rest)
  | closed {verbose around : Bool} {outer : List Bool} {rest : List Char}
      (hlater : WellNested around outer rest) : WellNested verbose (around :: outer) (')' :: rest)

variable {verbose : Bool} {outer : List Bool} {c : Char} {text rest after : List Char}

theorem wellNested_cons_idle_iff (hc : IsIdle c) (hsign : verbose = true → c ≠ '#') :
    WellNested verbose outer (c :: rest) ↔ WellNested verbose outer rest := by
  refine ⟨fun hnested => ?_, .idle hc hsign⟩
  cases hnested with
  | idle _ _ hlater => exact hlater
  | comment _ => exact absurd rfl (hsign rfl)
  | _ => exact absurd (by decide) hc

theorem wellNested_append_idle_iff {front : List Char} (hfront : ∀ c ∈ front, IsIdle c)
    (hsign : '#' ∉ front) :
    WellNested verbose outer (front ++ rest) ↔ WellNested verbose outer rest := by
  induction front with
  | nil => rfl
  | cons c front ih =>
      have hc : verbose = true → c ≠ '#' := fun _ heq => hsign (heq ▸ List.mem_cons_self)
      rw [List.cons_append, wellNested_cons_idle_iff (hfront c List.mem_cons_self) hc]
      exact ih (fun d hd => hfront d (.tail _ hd)) fun hmem => hsign (.tail _ hmem)

theorem wellNested_comment_iff :
    WellNested true outer ('#' :: rest) ↔
      WellNested true outer (rest.drop ((rest.takeWhile (· ≠ '\n')).length + 1)) := by
  refine ⟨fun hnested => ?_, .comment⟩
  cases hnested with
  | idle _ hsign _ => exact absurd rfl (hsign rfl)
  | comment hlater => exact hlater

theorem isIdle_of_isBlank (hc : isBlank c = true) : IsIdle c ∧ c ≠ '#' := by
  constructor
  · intro hmem
    simp only [List.mem_cons, List.not_mem_nil, or_false] at hmem
    rcases hmem with rfl | rfl | rfl | rfl <;> revert hc <;> decide
  · rintro rfl
    revert hc
    decide

theorem isIdle_of_isDecimalDigit (hc : isDecimalDigit c = true) : IsIdle c ∧ c ≠ '#' := by
  constructor
  · intro hmem
    simp only [List.mem_cons, List.not_mem_nil, or_false] at hmem
    rcases hmem with rfl | rfl | rfl | rfl <;> revert hc <;> decide
  · rintro rfl
    revert hc
    decide

/-- What means nothing nests nothing. -/
theorem wellNested_skipVerbose_iff :
    WellNested verbose outer (skipVerbose verbose text) ↔ WellNested verbose outer text := by
  cases verbose with
  | false => rfl
  | true =>
      suffices hskip : ∀ inComment, WellNested true outer (skipInsignificant inComment text) ↔
          WellNested true outer
            (if inComment then text.drop ((text.takeWhile (· ≠ '\n')).length + 1) else text) from
        hskip false
      intro inComment
      induction text generalizing inComment with
      | nil => cases inComment <;> rfl
      | cons c rest ih =>
          cases inComment with
          | true =>
              rw [skipInsignificant, if_pos rfl, if_pos rfl, ih]
              by_cases hline : c = '\n' <;> simp [hline]
          | false =>
              rw [skipInsignificant, if_neg Bool.false_ne_true, if_neg Bool.false_ne_true]
              split
              · next hblank =>
                  obtain ⟨hidle, hsign⟩ := isIdle_of_isBlank hblank
                  rw [ih, wellNested_cons_idle_iff hidle fun _ => hsign]
                  rfl
              · split
                · next hsign =>
                    rw [ih, beq_iff_eq.1 hsign, wellNested_comment_iff]
                    rfl
                · rfl

/-! ## The screen reads well-nested text to its end -/

/-- The verbose flags of the groups around the one at hand. -/
def outerVerbose (t : ScreenState) : List Bool := t.outer.map Frame.verbose

theorem mem_of_mem_dropWhile_or {p : Char → Bool} (hmem : c ∈ text) :
    p c = true ∨ c ∈ text.dropWhile p := by
  rw [← List.takeWhile_append_dropWhile (p := p) (l := text)] at hmem
  rcases List.mem_append.1 hmem with hmem | hmem
  · exact .inl (List.mem_takeWhile_imp hmem)
  · exact .inr hmem

/-- Trimming drops blanks only. -/
theorem isBlank_or_mem_trim (hmem : c ∈ text) : isBlank c = true ∨ c ∈ trim text := by
  rcases mem_of_mem_dropWhile_or (p := isBlank) hmem with hblank | hmem
  · exact .inl hblank
  · rcases mem_of_mem_dropWhile_or (p := isBlank) (List.mem_reverse.2 hmem) with hblank | hmem
    · exact .inl hblank
    · exact .inr (List.mem_reverse.2 hmem)

/-- The bounds of a repetition are digits, blanks and a comma. -/
theorem isIdle_of_braceBound? {body : List Char} {most : Option Nat}
    (hbound : Quantifier.braceBound? body = some most) (hmem : c ∈ body) :
    IsIdle c ∧ c ≠ '#' := by
  have hpart : ∀ {part : List Char}, c ∈ part → (trim part).all isDecimalDigit = true →
      IsIdle c ∧ c ≠ '#' := by
    intro part hmem hdigits
    rcases isBlank_or_mem_trim hmem with hblank | hmem
    · exact isIdle_of_isBlank hblank
    · exact isIdle_of_isDecimalDigit (List.all_eq_true.1 hdigits c hmem)
  have hnumber : ∀ {digits : List Char} {n : Nat},
      (if digits.all isDecimalDigit then natOfDigits? 10 digits else none) = some n →
      digits.all isDecimalDigit = true := by
    intro digits n hn
    split at hn
    · next hall => exact hall
    · cases hn
  have hempty : ∀ {digits : List Char}, digits.isEmpty = true →
      digits.all isDecimalDigit = true := by
    intro digits hdigits
    rw [List.isEmpty_iff.1 hdigits]
    rfl
  unfold Quantifier.braceBound? at hbound
  dsimp only at hbound
  split at hbound
  · obtain ⟨_, hall, -⟩ := Option.map_eq_some_iff.1 hbound
    exact hpart hmem (hnumber hall)
  · next least upper hsplit =>
      obtain ⟨-, rfl⟩ := splitFirst?_eq_some_iff.1 hsplit
      have hparts : (trim least).all isDecimalDigit = true ∧
          (trim upper).all isDecimalDigit = true := by
        by_cases hnone : (trim upper).isEmpty = true
        · rw [if_pos hnone] at hbound
          obtain ⟨_, hall, -⟩ := Option.map_eq_some_iff.1 hbound
          exact ⟨hnumber hall, hempty hnone⟩
        rw [if_neg hnone] at hbound
        obtain ⟨hleast, hbound⟩ := Option.ite_none_right_eq_some.1 hbound
        obtain ⟨_, hall, -⟩ := Option.map_eq_some_iff.1 hbound
        refine ⟨?_, hnumber hall⟩
        rcases Bool.or_eq_true_iff.1 hleast with hleast | hleast
        · exact hempty hleast
        · obtain ⟨_, hsome⟩ := Option.isSome_iff_exists.1 hleast
          exact hnumber hsome
      rcases List.mem_append.1 hmem with hmem | hmem
      · exact hpart hmem hparts.1
      · rcases List.mem_cons.1 hmem with rfl | hmem
        · decide
        · exact hpart hmem hparts.2

theorem exists_withSuffix (most : Option Nat) (extra : Nat) (following : List Char) :
    ∃ marks behind, following = marks ++ behind ∧
      (Quantifier.withSuffix most extra following).extra = extra + marks.length ∧
      ∀ c ∈ marks, IsIdle c ∧ c ≠ '#' := by
  unfold Quantifier.withSuffix
  split
  · next behind => exact ⟨['?'], behind, rfl, rfl, List.forall_mem_singleton.2 (by decide)⟩
  · next behind => exact ⟨['+'], behind, rfl, rfl, List.forall_mem_singleton.2 (by decide)⟩
  · exact ⟨[], following, rfl, rfl, List.forall_mem_nil _⟩

/-- What belongs to an operator opens nothing. -/
theorem exists_of_read? {q : Quantifier} (hread : Quantifier.read? c rest = some q) :
    ∃ front behind, rest = front ++ behind ∧ q.extra = front.length ∧
      ∀ c ∈ front, IsIdle c ∧ c ≠ '#' := by
  have hplain : ∀ {most : Option Nat}, some (Quantifier.withSuffix most 0 rest) = some q →
      ∃ front behind, rest = front ++ behind ∧ q.extra = front.length ∧
        ∀ c ∈ front, IsIdle c ∧ c ≠ '#' := by
    rintro most ⟨⟩
    obtain ⟨marks, behind, hrest, hextra, hmarks⟩ := exists_withSuffix most 0 rest
    exact ⟨marks, behind, hrest, by rw [hextra, Nat.zero_add], hmarks⟩
  unfold Quantifier.read? at hread
  split at hread
  · exact hplain hread
  split at hread
  · exact hplain hread
  split at hread
  · cases hread
  · next body following hsplit =>
      obtain ⟨-, rfl⟩ := splitFirst?_eq_some_iff.1 hsplit
      obtain ⟨most, hbound, rfl⟩ := Option.map_eq_some_iff.1 hread
      obtain ⟨marks, behind, rfl, hextra, hmarks⟩ :=
        exists_withSuffix most (body.length + 1) following
      refine ⟨body ++ '\x7d' :: marks, behind, by simp, by rw [hextra]; simp; omega, ?_⟩
      intro d hd
      rcases List.mem_append.1 hd with hd | hd
      · exact isIdle_of_braceBound? hbound hd
      · rcases List.mem_cons.1 hd with rfl | hd
        · decide
        · exact hmarks d hd

theorem screenStep_of_idle {t : ScreenState} (hc : IsIdle c)
    (hsign : t.frame.verbose = true → c ≠ '#')
    (hlater : WellNested t.frame.verbose (outerVerbose t) rest) :
    (∃ next extra, screenStep t c rest = .ok (next, extra) ∧
        WellNested next.frame.verbose (outerVerbose next) (rest.drop extra)) ∨
      ∃ hazard, screenStep t c rest = .error (.hazard hazard) := by
  simp only [IsIdle, List.mem_cons, List.not_mem_nil, or_false, not_or] at hc
  have hcomment : (t.frame.verbose && c == '#') = false := by
    cases hverbose : t.frame.verbose with
    | false => rfl
    | true => simpa using hsign hverbose
  by_cases hblank : (t.frame.verbose && isBlank c) = true
  · exact .inl ⟨t, 0, by simp only [screenStep, if_pos hblank], hlater⟩
  simp only [screenStep, if_neg hblank, hcomment, Bool.false_eq_true, if_false, hc]
  by_cases hbar : c = '|'
  · exact .inl ⟨t.startBranch, 0, if_pos hbar, hlater⟩
  rw [if_neg hbar]
  split
  · split
    · exact .inl ⟨t.push [c], 0, rfl, hlater⟩
    · next q hread =>
        split
        · next hazard _ => exact .inr ⟨hazard, rfl⟩
        · -- What the screen takes for the operator opens nothing.
          obtain ⟨front, behind, rfl, hextra, hfront⟩ := exists_of_read? hread
          refine .inl ⟨_, _, rfl, ?_⟩
          rw [hextra, List.drop_left]
          exact (wellNested_append_idle_iff (fun d hd => (hfront d hd).1)
            fun hmem => (hfront _ hmem).2 rfl).1 hlater
  · exact .inl ⟨t.push [c], 0, rfl, hlater⟩

/-- One step of the screen in well-nested text leaves well-nested text behind it, or finds
a hazard. -/
theorem screenStep_of_wellNested {t : ScreenState}
    (hnested : WellNested t.frame.verbose (outerVerbose t) (c :: rest)) :
    (∃ next extra, screenStep t c rest = .ok (next, extra) ∧
        WellNested next.frame.verbose (outerVerbose next) (rest.drop extra)) ∨
      ∃ hazard, screenStep t c rest = .error (.hazard hazard) := by
  generalize hverbose : t.frame.verbose = verbose at hnested
  generalize houter : outerVerbose t = outer at hnested
  cases hnested with
  | idle hc hsign hlater =>
      exact screenStep_of_idle hc (hverbose ▸ hsign) (hverbose ▸ houter ▸ hlater)
  | comment hlater =>
      have hblank : isBlank '#' = false := by decide
      refine .inl ⟨t, _, ?_, hverbose ▸ houter ▸ hlater⟩
      simp [screenStep, hverbose, hblank]
  | @escaped _ _ _ extent hextent hlater =>
      have hblank : isBlank '\\' = false := by decide
      refine .inl ⟨t.push ('\\' :: rest.take extent), _, ?_, hverbose ▸ houter ▸ hlater⟩
      simp [screenStep, hblank, hextent, Except.mapError]
  | @bracketed _ _ _ extent hextent hlater =>
      have hblank : isBlank '[' = false := by decide
      refine .inl ⟨t.push ('[' :: rest.take extent), _, ?_, hverbose ▸ houter ▸ hlater⟩
      simp [screenStep, hblank, hextent, Except.mapError]
  | @setting _ _ _ flags hflags hlater =>
      have hblank : isBlank '(' = false := by decide
      refine .inl ⟨t.setVerbose flags, _, ?_, hverbose ▸ houter ▸ hlater⟩
      simp [screenStep, hblank, hflags]
  | @opened _ _ _ opening hnone hopening hlater =>
      have hblank : isBlank '(' = false := by decide
      refine .inl ⟨t.openGroup opening.flags, _, ?_, hverbose ▸ houter ▸ hlater⟩
      simp [screenStep, hblank, hnone, hopening, Except.mapError]
  | @closed _ around outer _ hlater =>
      obtain ⟨parent, parents, houter', hparent, hparents⟩ :=
        List.map_eq_cons_iff.1 houter
      have hblank : isBlank ')' = false := by decide
      obtain ⟨closed, hclosed, hframe, hframes⟩ :
          ∃ closed, t.closeGroup = .ok closed ∧ closed.frame.verbose = parent.verbose ∧
            closed.outer = parents := by
        unfold ScreenState.closeGroup
        rw [houter']
        exact ⟨_, rfl, rfl, rfl⟩
      refine .inl ⟨closed, 0, ?_, ?_⟩
      · simp [screenStep, hblank, hclosed, Except.mapError]
      · rw [hframe, hparent, outerVerbose, hframes, hparents]
        exact hlater

/-- In well-nested text the screen finds no fault but hazards. -/
theorem screenFrom_of_wellNested {t : ScreenState}
    (hnested : WellNested t.frame.verbose (outerVerbose t) text) :
    (∃ behind, screenFrom t text = .ok behind) ∨
      ∃ hazard, screenFrom t text = .error (.hazard hazard) := by
  fun_induction screenFrom t text with
  | case1 t hnone => exact .inl ⟨t, rfl⟩
  | case2 t hsome =>
      generalize t.frame.verbose = verbose at hnested
      generalize houter : outerVerbose t = outer at hnested
      cases hnested with
      | done => exact absurd (List.isEmpty_iff.2 (List.map_eq_nil_iff.1 houter)) hsome
  | case3 t c rest objection hstep =>
      rcases screenStep_of_wellNested hnested with ⟨_, _, hok, -⟩ | ⟨hazard, herror⟩
      · cases hstep.symm.trans hok
      · cases hstep.symm.trans herror
        exact .inr ⟨hazard, rfl⟩
  | case4 t c rest next extra hstep ih =>
      rcases screenStep_of_wellNested hnested with ⟨_, _, hok, hlater⟩ | ⟨hazard, herror⟩
      · cases hstep.symm.trans hok
        exact ih hlater
      · cases hstep.symm.trans herror

/-! ## Lexemes that show their end -/

/-- The inside of a class whose brackets match; a backslash quotes the character behind it. -/
inductive Balanced : List Char → Prop
  | nil : Balanced []
  | member {c : Char} {rest : List Char} (hc : IsMember c) (hrest : Balanced rest) :
      Balanced (c :: rest)
  | quoted (c : Char) {rest : List Char} (hrest : Balanced rest) : Balanced ('\\' :: c :: rest)
  | nested {inner rest : List Char} (hinner : Balanced inner) (hrest : Balanced rest) :
      Balanced ('[' :: (inner ++ ']' :: rest))

/-- A lexeme whose end shows in its text.  An opening and an escape end where they would end
in plain text, and a class ends where its brackets match, up to what is dropped behind it.
Of other lexemes nothing is asked. -/
structure ShowsEnd (place : Reader) (c : Char) (rest : List Char) (next : Reader)
    (after : List Char) : Prop where
  extent : c = '(' ∨ c = '\\' → ∃ plain behind,
    (inPlainText place).step c rest = .ok (plain, behind) ∧
      skipVerbose next.flags.verbose behind = skipVerbose next.flags.verbose after
  brackets : c = '[' → ∃ inside behind, classInside rest = inside ++ ']' :: behind ∧
    Balanced inside ∧ skipVerbose next.flags.verbose behind = skipVerbose next.flags.verbose after

/-- A reading all of whose lexemes show their end. -/
def ShowsEndsFrom (s : Reader) (text : List Char) : Prop :=
  ∀ place ahead c rest next after, Reader.Visits s text place ahead →
    skipVerbose place.flags.verbose ahead = c :: rest → place.step c rest = .ok (next, after) →
    ShowsEnd place c rest next after

/-- A pattern in which no blank or comment stands within an opening or an escape, and whose
classes end where their brackets match. -/
def ShowsEnds (pattern : String) : Prop := ShowsEndsFrom {} pattern.toList

theorem classRest_append_balanced {inside : List Char} (hinside : Balanced inside) {depth : Nat}
    (hdepth : 1 ≤ depth) (rest : List Char) :
    classRest depth (inside ++ rest) = classRest depth rest := by
  induction hinside generalizing depth rest with
  | nil => rfl
  | member hc _ ih => rw [List.cons_append, classRest_cons_member hc, ih hdepth]
  | quoted c _ ih => exact ih hdepth rest
  | nested _ _ hinner hrest =>
      rw [List.cons_append, List.append_assoc, classRest, hinner (by omega), List.cons_append,
        classRest, if_neg (by omega)]
      exact hrest hdepth rest

theorem classExtent_of_balanced {inside behind : List Char} (hinside : Balanced inside)
    (htext : classInside text = inside ++ ']' :: behind) :
    ∃ extent, classExtent text = .ok extent ∧ text.drop extent = behind := by
  apply classExtent_of_classRest
  rw [htext, classRest_append_balanced hinside (Nat.le_refl 1)]
  rfl

/-! ## What the reader accepts is well nested -/

/-- The verbose flags of the groups around the one that is read. -/
def openVerbose (s : Reader) : List Bool := s.outer.map fun opened => opened.flags.verbose

/-- What means nothing behind a lexeme may be dropped or left. -/
theorem WellNested.of_skip {behind : List Char} (hnested : WellNested verbose outer after)
    (hskip : skipVerbose verbose behind = skipVerbose verbose after) :
    WellNested verbose outer behind := by
  rw [← wellNested_skipVerbose_iff, hskip, wellNested_skipVerbose_iff]
  exact hnested

theorem wellNested_of_opening {s next : Reader} {opening : Opening}
    (hread : readOpening false rest = .ok (opening, after))
    (hopen : s.applyOpening opening = .ok next)
    (hlater : WellNested next.flags.verbose (openVerbose next) after) :
    WellNested s.flags.verbose (openVerbose s) ('(' :: rest) := by
  cases opened_of_readOpening hread hopen with
  | group names flags extra hnone hopening hextent happly =>
      refine .opened hnone hopening ?_
      rw [hextent, ← verbose_of_apply happly]
      exact hlater
  | setting flags hflags hextent happly =>
      refine .setting hflags ?_
      rw [hextent, ← verbose_of_apply happly]
      exact hlater

theorem wellNested_of_readDigits {digits : List Char}
    (hread : readDigits verbose text = (digits, after)) (hlater : WellNested verbose outer after) :
    WellNested verbose outer text := by
  fun_induction readDigits verbose text generalizing digits after with
  | case1 =>
      cases hread
      exact hlater
  | case2 c rest hc digits' after' hrest ih =>
      cases hread
      obtain ⟨hidle, hsign⟩ := isIdle_of_isDecimalDigit hc
      exact .idle hidle (fun _ => hsign) (wellNested_skipVerbose_iff.1 (ih hrest hlater))
  | case3 =>
      cases hread
      exact hlater

theorem wellNested_dropWhile_isBlank_iff :
    WellNested verbose outer (text.dropWhile isBlank) ↔ WellNested verbose outer text := by
  have hblanks : ∀ c ∈ text.takeWhile isBlank, IsIdle c ∧ c ≠ '#' :=
    fun c hc => isIdle_of_isBlank (List.mem_takeWhile_imp hc)
  conv_rhs => rw [← List.takeWhile_append_dropWhile (p := isBlank) (l := text)]
  exact (wellNested_append_idle_iff (fun c hc => (hblanks c hc).1)
    fun hmem => (hblanks _ hmem).2 rfl).symm

theorem wellNested_of_readBound {bound : Option Nat}
    (hread : readBound verbose text = (bound, after)) (hlater : WellNested verbose outer after) :
    WellNested verbose outer text := by
  cases hread
  rw [wellNested_skipVerbose_iff, wellNested_dropWhile_isBlank_iff] at hlater
  exact wellNested_dropWhile_isBlank_iff.1 (wellNested_of_readDigits rfl hlater)

theorem wellNested_of_readBounds {bounds : Nat × Option Nat}
    (hread : readBounds verbose text = .ok (bounds, after))
    (hlater : WellNested verbose outer after) : WellNested verbose outer text := by
  have hclose : WellNested verbose outer ('\x7d' :: after) :=
    .idle (by decide) (fun _ => by decide) hlater
  unfold readBounds at hread
  split at hread
  · next hfirst =>
      cases hread
      exact wellNested_skipVerbose_iff.1 (wellNested_of_readBound hfirst hclose)
  · next lower rest hfirst =>
      suffices hrest : WellNested verbose outer rest from
        wellNested_skipVerbose_iff.1
          (wellNested_of_readBound hfirst (.idle (by decide) (fun _ => by decide) hrest))
      rw [← wellNested_skipVerbose_iff]
      split at hread
      · next hrest =>
          cases hread
          rw [hrest]
          exact hclose
      · split at hread
        · next hsecond =>
            split at hread
            · cases hread
              exact wellNested_of_readBound hsecond hclose
            · cases hread
        · cases hread
  · cases hread

theorem wellNested_of_readLazy {isLazy : Bool} (hread : readLazy text = (isLazy, after))
    (hlater : WellNested verbose outer after) : WellNested verbose outer text := by
  unfold readLazy at hread
  split at hread
  · cases hread
    exact .idle (by decide) (fun _ => by decide) hlater
  · cases hread
    exact hlater

theorem wellNested_of_readsOperator {least : Nat} {most : Option Nat} {isLazy : Bool}
    (hread : ReadsOperator verbose c rest least most isLazy after)
    (hlater : WellNested verbose outer after) : WellNested verbose outer (c :: rest) := by
  have hrest : WellNested verbose outer rest := by
    cases hread with
    | optional hlazy => exact wellNested_of_readLazy hlazy hlater
    | any hlazy => exact wellNested_of_readLazy hlazy hlater
    | some hlazy => exact wellNested_of_readLazy hlazy hlater
    | counted hbounds hlazy =>
        exact wellNested_of_readBounds hbounds
          (wellNested_skipVerbose_iff.1 (wellNested_of_readLazy hlazy hlater))
  cases hread <;> exact .idle (by decide) (fun _ => by decide) hrest

theorem isIdle_of_isNameChar (hc : Unicode.isNameChar c = true) : IsIdle c ∧ c ≠ '#' := by
  constructor
  · exact isIdle_of_not_mem_signs (not_mem_signs_of_isNameChar hc)
  · rintro rfl
    revert hc
    decide

theorem wellNested_of_readEscape {flags : Flags} {found : Primitive} {regex : Regex}
    (hread : readEscape false rest = .ok (found, after)) (hregex : found.regex flags = .ok regex)
    (hlater : WellNested verbose outer after) : WellNested verbose outer ('\\' :: rest) := by
  have hextent : ∀ extent, escapeExtent rest = .ok extent → rest.drop extent = after →
      WellNested verbose outer ('\\' :: rest) := fun _ hextent hdrop =>
    .escaped hextent (hdrop ▸ hlater)
  cases escaped_of_readEscape hread with
  | @single kind _ _ hkind =>
      refine hextent 1 ?_ rfl
      simp only [List.mem_cons, List.not_mem_nil, or_false, not_or] at hkind
      simp [escapeExtent, hkind]
  | digits hkind hdigits => exact hextent _ (escapeExtent_digits hkind hdigits after) (by simp)
  | bracedDigits hkind hdigits =>
      have hname : '\x7d' ∉ _ := fun hmem => (ne_brace_of_isHexDigit (hdigits _ hmem)).2 rfl
      exact hextent _ (escapeExtent_braced (.tail _ (.tail _ hkind)) hname after) (by simp)
  | bracedProperty hkind hname =>
      exact hextent _ (escapeExtent_braced (List.mem_append_left _ hkind) hname after) (by simp)
  | @letterProperty kind c _ _ hkind hc =>
      cases hset : Unicode.named? (String.ofList [c]) with
      | none =>
          rw [hset] at hregex
          cases hregex
      | some set =>
          -- The screen ends the escape in front of the letter.
          have hone : escapeExtent (kind :: c :: after) = .ok 1 := by
            rw [escapeExtent_open hc]
            rcases List.mem_cons.1 hkind with rfl | hkind
            · rfl
            · rw [List.mem_singleton.1 hkind]
              rfl
          obtain ⟨hidle, hsign⟩ :=
            isIdle_of_isNameChar (Unicode.isNameChar_of_named? hset c (by simp))
          exact .escaped hone (.idle hidle (fun _ => hsign) hlater)
  | @edge name _ _ hname =>
      have hone : escapeExtent ('b' :: '\x7b' :: (name ++ '\x7d' :: after)) = .ok 1 := rfl
      have hidle : ∀ c ∈ name, IsIdle c ∧ c ≠ '#' := fun c hc =>
        isIdle_of_isNameChar (isNameChar_of_isEdgeNameChar (hname c hc))
      refine .escaped hone (.idle (by decide) (fun _ => by decide) ?_)
      rw [wellNested_append_idle_iff (fun c hc => (hidle c hc).1) fun hmem => (hidle _ hmem).2 rfl]
      exact .idle (by decide) (fun _ => by decide) hlater

theorem wellNested_of_step {s next : Reader} (hvisible : IsVisible s.flags.verbose c)
    (hstep : s.step c rest = .ok (next, after)) (hshows : ShowsEnd s c rest next after)
    (hlater : WellNested next.flags.verbose (openVerbose next) after) :
    WellNested s.flags.verbose (openVerbose s) (c :: rest) := by
  cases stepped_of_step hstep with
  | opened hread hopen =>
      obtain ⟨plain, behind, hplain, hskip⟩ := hshows.extent (.inl rfl)
      obtain ⟨opening, hplain⟩ := (stepped_of_step hplain).exists_readOpening
      rw [opening_eq_of_readOpening hread hplain hskip] at hplain
      exact wellNested_of_opening hplain hopen (hlater.of_skip hskip)
  | closed hclose =>
      obtain ⟨opened, around, houter, rfl⟩ := exists_of_closeGroup hclose
      rw [openVerbose, houter]
      exact .closed hlater
  | branched => exact .idle (by decide) (fun _ => by decide) hlater
  | bracketed _ =>
      obtain ⟨inside, behind, hinside, hbalanced, hskip⟩ := hshows.brackets rfl
      obtain ⟨extent, hextent, hdrop⟩ := classExtent_of_balanced hbalanced hinside
      refine .bracketed hextent ?_
      rw [hdrop]
      exact hlater.of_skip hskip
  | repeated hread hrepeat =>
      obtain ⟨_, _, _, _, rfl⟩ := exists_of_repeatLast hrepeat
      exact wellNested_of_readsOperator hread hlater
  | escaped _ hregex =>
      obtain ⟨plain, behind, hplain, hskip⟩ := hshows.extent (.inr rfl)
      obtain ⟨found, regex, hplain, hregex⟩ := (stepped_of_step hplain).exists_readEscape
      exact wellNested_of_readEscape hplain hregex (hlater.of_skip hskip)
  | plain hc _ =>
      exact .idle (isIdle_of_not_mem_signs hc) (fun hverbose => (hvisible hverbose).2) hlater

theorem wellNested_of_run {s final : Reader} (hrun : s.run text = .ok final)
    (hclosed : final.outer = []) (hshows : ShowsEndsFrom s text) :
    WellNested s.flags.verbose (openVerbose s) text := by
  fun_induction run s text with
  | case1 s text htext =>
      cases hrun
      rw [← wellNested_skipVerbose_iff, htext, openVerbose, hclosed]
      exact .done
  | case2 => cases hrun
  | case3 s text c rest htext next after hstep ih =>
      have hlater : ShowsEndsFrom next after := fun place ahead d tail further beyond hvisits =>
        hshows place ahead d tail further beyond (.later htext hstep hvisits)
      rw [← wellNested_skipVerbose_iff, htext]
      exact wellNested_of_step (isVisible_of_skipVerbose htext) hstep
        (hshows s text c rest next after .here htext hstep) (ih hrun hlater)

/-- A pattern that the reader accepts is never called malformed if its lexemes show their
ends: the screen lets it pass or finds a hazard in it. -/
theorem checkSafety_spares_valid_patterns {pattern : String} {regex : Regex}
    (hparse : Regex.parse pattern = .ok regex) (hlength : pattern.utf8ByteSize ≤ maxLength)
    (hshows : ShowsEnds pattern) :
    checkSafety pattern = .ok () ∨
      ∃ hazard, checkSafety pattern = .error (.hazardous pattern hazard) := by
  obtain ⟨final, hrun, houter, -⟩ := exists_run_of_parse hparse
  have hnested : WellNested false [] pattern.toList := wellNested_of_run hrun houter hshows
  rw [checkSafety, if_neg (Nat.not_lt.2 hlength)]
  rcases screenFrom_of_wellNested (t := {}) hnested with ⟨_, hscreen⟩ | ⟨hazard, hscreen⟩
  · rw [hscreen]
    exact .inl rfl
  · rw [hscreen]
    exact .inr ⟨hazard, rfl⟩

/-! ## Which lexemes show their end -/

/-- Counting finds the bracket that matches the last one opened. -/
theorem exists_balanced_of_classRest {depth : Nat} (hdepth : 1 ≤ depth)
    (hrest : classRest depth text = some after) :
    ∃ inside behind, text = inside ++ ']' :: behind ∧ Balanced inside ∧
      (depth ≤ 1 → behind = after) ∧ (1 < depth → classRest (depth - 1) behind = some after) := by
  -- The text behind an inner class is shorter, but not the tail of the text.
  induction hlength : text.length using Nat.strong_induction_on generalizing text depth with
  | _ length ih =>
  subst hlength
  have hmember : ∀ (front : List Char) {rest : List Char}, front ≠ [] → text = front ++ rest →
      (∀ {inside}, Balanced inside → Balanced (front ++ inside)) →
      classRest depth rest = some after → ∃ inside behind, text = inside ++ ']' :: behind ∧
        Balanced inside ∧ (depth ≤ 1 → behind = after) ∧
        (1 < depth → classRest (depth - 1) behind = some after) := by
    rintro front rest hfront rfl hbalanced hrest
    have hlt : rest.length < (front ++ rest).length := by
      have := List.length_pos_iff.2 hfront
      rw [List.length_append]
      omega
    obtain ⟨inside, behind, rfl, hinside, hbehind⟩ := ih _ hlt hdepth hrest rfl
    exact ⟨front ++ inside, behind, by simp, hbalanced hinside, hbehind⟩
  fun_cases classRest depth text with
  | case1 => cases hrest
  | case2 => cases hrest
  | case3 c rest =>
      rw [classRest] at hrest
      exact hmember ['\\', c] (by simp) rfl (.quoted c) hrest
  | case4 rest =>
      rw [classRest] at hrest
      obtain ⟨inner, tail, rfl, hinner, -, htail⟩ :=
        ih _ (by simp) (Nat.le_succ_of_le hdepth) hrest rfl
      exact hmember ('[' :: (inner ++ [']'])) (by simp) (by simp)
        (fun hinside => by simpa using Balanced.nested hinner hinside)
        (htail (Nat.lt_succ_of_le hdepth))
  | case5 rest hone =>
      rw [classRest, if_pos hone] at hrest
      exact ⟨[], rest, rfl, .nil, fun _ => Option.some.inj hrest, fun hlt => by omega⟩
  | case6 rest hmore =>
      rw [classRest, if_neg hmore] at hrest
      exact ⟨[], rest, rfl, .nil, fun hle => absurd hle hmore, fun _ => hrest⟩
  | case7 c rest hlast hescape hopen hclose =>
      have hc : IsMember c := by
        intro hmem
        simp only [List.mem_cons, List.not_mem_nil, or_false] at hmem
        rcases hmem with rfl | rfl | rfl
        · cases rest with
          | nil => exact hlast rfl rfl
          | cons d rest => exact hescape d rest rfl rfl
        · exact hopen rfl
        · exact hclose rfl
      rw [classRest_cons_member hc] at hrest
      exact hmember [c] (by simp) rfl (.member hc) hrest

theorem exists_balanced_iff {P : List Char → Prop} :
    (∃ inside behind, text = inside ++ ']' :: behind ∧ Balanced inside ∧ P behind) ↔
      ∃ behind, classRest 1 text = some behind ∧ P behind := by
  constructor
  · rintro ⟨inside, behind, rfl, hinside, hbehind⟩
    refine ⟨behind, ?_, hbehind⟩
    rw [classRest_append_balanced hinside (Nat.le_refl 1)]
    rfl
  · rintro ⟨behind, hrest, hbehind⟩
    obtain ⟨inside, _, htext, hinside, hone, -⟩ :=
      exists_balanced_of_classRest (Nat.le_refl 1) hrest
    obtain rfl := hone (Nat.le_refl 1)
    exact ⟨inside, _, htext, hinside, hbehind⟩

theorem exists_eq_some_and_iff {α : Type} {found : Option α} {P : α → Prop} [DecidablePred P] :
    (∃ value, found = some value ∧ P value) ↔ found.any (fun value => decide (P value)) = true := by
  cases found <;> simp

theorem exists_eq_ok_and_iff {ε α β : Type} {found : Except ε (α × β)} {P : β → Prop}
    [DecidablePred P] :
    (∃ first second, found = .ok (first, second) ∧ P second) ↔
      found.toOption.any (fun value => decide (P value.2)) = true := by
  cases found with
  | error fault => simp [Except.toOption]
  | ok value =>
      obtain ⟨first, second⟩ := value
      simp [Except.toOption]

instance (place : Reader) (c : Char) (rest : List Char) (next : Reader) (after : List Char) :
    Decidable (ShowsEnd place c rest next after) :=
  decidable_of_iff
    ((c = '(' ∨ c = '\\' → ((inPlainText place).step c rest).toOption.any fun found =>
        decide (skipVerbose next.flags.verbose found.2 = skipVerbose next.flags.verbose after)) ∧
      (c = '[' → (classRest 1 (classInside rest)).any fun behind =>
        decide (skipVerbose next.flags.verbose behind = skipVerbose next.flags.verbose after)))
    ⟨fun ⟨hextent, hbrackets⟩ => ⟨fun hc => exists_eq_ok_and_iff.2 (hextent hc),
        fun hc => exists_balanced_iff.2 (exists_eq_some_and_iff.2 (hbrackets hc))⟩,
      fun ⟨hextent, hbrackets⟩ => ⟨fun hc => exists_eq_ok_and_iff.1 (hextent hc),
        fun hc => exists_eq_some_and_iff.1 (exists_balanced_iff.1 (hbrackets hc))⟩⟩

/-- Follows a reading as far as it goes. -/
def showsEndsFrom (s : Reader) (text : List Char) : Bool :=
  match _htext : skipVerbose s.flags.verbose text with
  | [] => true
  | c :: rest =>
      match _hstep : s.step c rest with
      | .error _ => true
      | .ok (next, after) => decide (ShowsEnd s c rest next after) && showsEndsFrom next after
termination_by text.length
decreasing_by
  have hskip := length_skipVerbose_le s.flags.verbose text
  have hstep := length_readerStep_le _hstep
  rw [_htext, List.length_cons] at hskip
  omega

theorem showsEndsFrom_iff {s : Reader} : showsEndsFrom s text = true ↔ ShowsEndsFrom s text := by
  fun_induction showsEndsFrom s text with
  | case1 s text htext =>
      refine iff_of_true rfl ?_
      intro place ahead c rest next after hvisits hskip _
      cases hvisits with
      | here => cases htext.symm.trans hskip
      | later hskip' => cases htext.symm.trans hskip'
  | case2 s text c rest htext fault hstep =>
      refine iff_of_true rfl ?_
      intro place ahead d tail next after hvisits hskip hstep'
      cases hvisits with
      | here =>
          cases htext.symm.trans hskip
          cases hstep.symm.trans hstep'
      | later hskip' hstep' =>
          cases htext.symm.trans hskip'
          cases hstep.symm.trans hstep'
  | case3 s text c rest htext next after hstep ih =>
      rw [Bool.and_eq_true, decide_eq_true_eq, ih]
      constructor
      · rintro ⟨hhere, hlater⟩ place ahead d tail further beyond hvisits hskip' hstep'
        cases hvisits with
        | here =>
            cases htext.symm.trans hskip'
            cases hstep.symm.trans hstep'
            exact hhere
        | later hskip₁ hstep₁ hvisits =>
            cases htext.symm.trans hskip₁
            cases hstep.symm.trans hstep₁
            exact hlater place ahead d tail further beyond hvisits hskip' hstep'
      · intro hshows
        exact ⟨hshows s text c rest next after .here htext hstep,
          fun place ahead d tail further beyond hvisits =>
            hshows place ahead d tail further beyond (.later htext hstep hvisits)⟩

instance (pattern : String) : Decidable (ShowsEnds pattern) :=
  decidable_of_iff _ showsEndsFrom_iff

/-- A comment that holds a parenthesis, brackets in a class, an operator behind another and
a blank between braces are no fault. -/
theorem checkSafety_spares_valid_patterns_commentedClass :
    ∃ regex, Regex.parse "(?x)([[a]\\]]?+ # (\n ) \x7b2 \x7d" = .ok regex ∧
      "(?x)([[a]\\]]?+ # (\n ) \x7b2 \x7d".utf8ByteSize ≤ maxLength ∧
      ShowsEnds "(?x)([[a]\\]]?+ # (\n ) \x7b2 \x7d" ∧
      (checkSafety "(?x)([[a]\\]]?+ # (\n ) \x7b2 \x7d" = .ok () ∨
        ∃ hazard, checkSafety "(?x)([[a]\\]]?+ # (\n ) \x7b2 \x7d" =
          .error (.hazardous "(?x)([[a]\\]]?+ # (\n ) \x7b2 \x7d" hazard)) := by
  have hsome : (Regex.parse "(?x)([[a]\\]]?+ # (\n ) \x7b2 \x7d").toOption.isSome = true := by
    decide +kernel
  obtain ⟨regex, hparse⟩ := exists_ok_of_isSome hsome
  have hshows : ShowsEnds "(?x)([[a]\\]]?+ # (\n ) \x7b2 \x7d" := by decide +kernel
  exact ⟨regex, hparse, by decide +kernel, hshows,
    checkSafety_spares_valid_patterns hparse (by decide +kernel) hshows⟩

/-- The reader accepts a pattern, and the screen calls it malformed. -/
def IsMiscalled (pattern : String) (fault : Malformation) : Prop :=
  (∃ regex, Regex.parse pattern = .ok regex) ∧ pattern.utf8ByteSize ≤ maxLength ∧
    checkSafety pattern = .error (.malformed pattern fault)

theorem isMiscalled_of_checkSafety {pattern : String} {fault : Malformation}
    (hparse : (Regex.parse pattern).toOption.isSome = true)
    (hlength : pattern.utf8ByteSize ≤ maxLength)
    (hscreen : checkSafety pattern = .error (.malformed pattern fault)) :
    IsMiscalled pattern fault :=
  ⟨exists_ok_of_isSome hparse, hlength, hscreen⟩

/-- A range that ends in a bracket and a closing bracket that is the first member of an inner
class bring the screen out of step; so do, in verbose text, a blank or a comment within a
class, an escape or the opening of a group. -/
theorem checkSafety_miscalls_patterns :
    IsMiscalled "[A-[]" .unterminatedClass ∧
    IsMiscalled "[[]](]" .unclosedGroup ∧
    IsMiscalled "[[]])]" .unbalancedClose ∧
    IsMiscalled "(?x)[ ])]" .unbalancedClose ∧
    IsMiscalled "(?x)[a#[\n]" .unterminatedClass ∧
    IsMiscalled "(?x)\\x4#(\n1" .unclosedGroup ∧
    IsMiscalled "(?x)(\\U \x7b1\x7d)" .unclosedGroup ∧
    IsMiscalled "(?x)( ?-x)(#)" .unclosedGroup := by
  refine ⟨?_, ?_, ?_, ?_, ?_, ?_, ?_, ?_⟩ <;> apply isMiscalled_of_checkSafety <;>
    decide +kernel

end WorkflowAudit.Pattern
