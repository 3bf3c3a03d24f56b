import WorkflowAudit.Proofs.Pattern.NestedRepetition

/-!
# Nested repetitions in verbose text

A comment between two lexemes hides no group and no operator: the screen finds every
nested repetition of a compact pattern, whatever the scope of the verbose flag.  The
screen drops blanks and comments nowhere within a lexeme, though, and what stands
there in a class, an escape, an opening or between braces can hide one.
-/

namespace WorkflowAudit.Pattern

open Text Regex Regex.Reader

/-- A compact pattern whose expression repeats a group widely, directly behind its
parenthesis, and repeats without bound within it, is refused before any engine is
asked to build it. -/
theorem checkSafety_finds_verbose_nesting {pattern : String} {regex : Regex}
    (hparse : Regex.parse pattern = .ok regex) (hcompact : IsCompactPattern pattern)
    (hnested : ∃ found ∈ regex.repetitions, isNested found = true ∧ found.2.isRepeated = false) :
    IsKeptFromEngines pattern := by
  obtain ⟨found, hmem, hfound, hdirect⟩ := hnested
  by_cases hlength : pattern.utf8ByteSize > maxLength
  · refine isKeptFromEngines_of_checkSafety ?_ (.inl ⟨pattern.utf8ByteSize, rfl⟩)
    rw [checkSafety, if_pos hlength]
  suffices hhazard : ∃ hazard, screenFrom {} pattern.toList = .error (.hazard hazard) by
    obtain ⟨hazard, hscreen⟩ := hhazard
    refine isKeptFromEngines_of_checkSafety ?_ (.inr ⟨hazard, rfl⟩)
    simp only [checkSafety, if_neg hlength, hscreen]
  rcases screenFrom_of_isCompactPattern hparse hcompact with
    ⟨_, -, hnone⟩ | ⟨hscreen, -⟩ | ⟨hscreen, -⟩
  · have hfalse := hnone found hmem
    simp [isDirectlyNested, hfound, hdirect] at hfalse
  · exact ⟨_, hscreen⟩
  · exact ⟨_, hscreen⟩

/-! ## Walking through a compact pattern -/

theorem isCompactLexeme_of_step {place next plain : Reader} {c : Char}
    {rest after behind : List Char} (hplain : (inPlainText place).step c rest = .ok (plain, behind))
    (hskip : skipVerbose next.flags.verbose behind = skipVerbose next.flags.verbose after)
    (hplus : behind.head? ≠ some '+') (hbracket : c ≠ '[') :
    IsCompactLexeme place c rest next after where
  extent := ⟨plain, behind, hplain, hskip, fun _ => hplus⟩
  classes heq := absurd heq hbracket

theorem isCompactFrom_of_step {s next : Reader} {c : Char} {text rest after : List Char}
    (hskip : skipVerbose s.flags.verbose text = c :: rest)
    (hstep : s.step c rest = .ok (next, after)) (hhere : IsCompactLexeme s c rest next after)
    (hlater : IsCompactFrom next after) : IsCompactFrom s text := by
  intro place ahead d tail further beyond hvisits hskip' hstep'
  cases hvisits with
  | here =>
      obtain ⟨rfl, rfl⟩ := List.cons.inj (hskip.symm.trans hskip')
      obtain ⟨rfl, rfl⟩ := Prod.mk.inj (Except.ok.inj (hstep.symm.trans hstep'))
      exact hhere
  | later hskip₁ hstep₁ hvisits =>
      obtain ⟨rfl, rfl⟩ := List.cons.inj (hskip.symm.trans hskip₁)
      obtain ⟨rfl, rfl⟩ := Prod.mk.inj (Except.ok.inj (hstep.symm.trans hstep₁))
      exact hlater place ahead d tail further beyond hvisits hskip' hstep'

theorem isCompactFrom_of_end {s : Reader} {text : List Char}
    (hskip : skipVerbose s.flags.verbose text = []) : IsCompactFrom s text := by
  intro place ahead d tail further beyond hvisits hskip' _
  cases hvisits with
  | here => cases hskip.symm.trans hskip'
  | later hskip₁ => cases hskip.symm.trans hskip₁

theorem isCompactPattern_commentedGroup : IsCompactPattern "(?x)(a + # )\n ) +" := by
  refine isCompactFrom_of_step (c := '(') rfl rfl
    (isCompactLexeme_of_step rfl rfl (by decide) (by decide)) ?_
  refine isCompactFrom_of_step (c := '(') rfl rfl
    (isCompactLexeme_of_step rfl rfl (by decide) (by decide)) ?_
  refine isCompactFrom_of_step (c := 'a') rfl rfl
    (isCompactLexeme_of_step rfl rfl (by decide) (by decide)) ?_
  refine isCompactFrom_of_step (c := '+') rfl rfl
    (isCompactLexeme_of_step rfl rfl (by decide) (by decide)) ?_
  refine isCompactFrom_of_step (c := ')') rfl rfl
    (isCompactLexeme_of_step rfl rfl (by decide) (by decide)) ?_
  refine isCompactFrom_of_step (c := '+') rfl rfl
    (isCompactLexeme_of_step rfl rfl (by decide) (by decide)) ?_
  exact isCompactFrom_of_end rfl

/-- A comment that holds a parenthesis does not close the group. -/
theorem checkSafety_finds_commentedGroup :
    ∃ regex, Regex.parse "(?x)(a + # )\n ) +" = .ok regex ∧
      IsCompactPattern "(?x)(a + # )\n ) +" ∧
      (∃ found ∈ regex.repetitions, isNested found = true ∧ found.2.isRepeated = false) ∧
      IsKeptFromEngines "(?x)(a + # )\n ) +" := by
  obtain ⟨regex, hparse, found, hmem, hfound⟩ :=
    exists_of_parse_any "(?x)(a + # )\n ) +" isDirectlyNested (by decide +kernel)
  simp only [isDirectlyNested, Bool.and_eq_true, Bool.not_eq_true'] at hfound
  exact ⟨regex, hparse, isCompactPattern_commentedGroup, ⟨found, hmem, hfound⟩,
    checkSafety_finds_verbose_nesting hparse isCompactPattern_commentedGroup
      ⟨found, hmem, hfound⟩⟩

/-- What means nothing hides a nested repetition: the pattern is missed, and refused
without it. -/
def IsHidden (pattern stripped : String) : Prop :=
  IsMissed pattern ∧ checkSafety stripped = .error (.hazardous stripped .nestedRepetition)

/-- A comment between braces, in a class or in an escape, a blank in front of the
question mark of an opening, between two digits of a bound or behind the bracket of a
class can each hide a nested repetition. -/
theorem checkSafety_misses_verbose_nesting :
    IsHidden "(?x)(a+)\x7b2#\n,\x7d" "(?x)(a+)\x7b2,\x7d" ∧
    IsHidden "(?x)(a+)\x7b1 1\x7d" "(?x)(a+)\x7b11\x7d" ∧
    IsHidden "(?x)[a#[\n](b+)+]" "(?x)[a](b+)+]" ∧
    IsHidden "(?x)(a+[ ](])+[ ])]" "(?x)(a+[](])+[])]" ∧
    IsHidden "(?x)\\x4#[\n1(a+)+]" "(?x)\\x41(a+)+]" ∧
    IsHidden "(?x)( ?-x)#(a+)+" "(?x)(?-x)#(a+)+" := by
  refine ⟨⟨isMissed_of_checkSafety ?_ ?_, ?_⟩, ⟨isMissed_of_checkSafety ?_ ?_, ?_⟩,
    ⟨isMissed_of_checkSafety ?_ ?_, ?_⟩, ⟨isMissed_of_checkSafety ?_ ?_, ?_⟩,
    ⟨isMissed_of_checkSafety ?_ ?_, ?_⟩, ⟨isMissed_of_checkSafety ?_ ?_, ?_⟩⟩ <;> decide +kernel

end WorkflowAudit.Pattern
