import WorkflowAudit.Proofs.Pattern.Enclosing
import WorkflowAudit.Proofs.Regex.Threads
import WorkflowAudit.Proofs.Scan.Library

/-!
# What allowed matches waive

An allowed match is compiled in parentheses between anchors, never by itself.  Where its
pattern is one by itself, it waives exactly the matches that its pattern matches from the
first to the last character, as long as the parentheses around the pattern close where
they should and do not make it too large; and otherwise nothing.  A pattern that closes
the parentheses itself escapes the anchors: it is none by itself, and waives matches all
the same.
-/

namespace WorkflowAudit

open Pattern

/-- An answer can be compared with a refusal even where answers cannot be compared. -/
instance decidableEqError {ε α : Type} [DecidableEq ε] (x : Except ε α) (e : ε) :
    Decidable (x = .error e) :=
  match x with
  | .ok _ => isFalse nofun
  | .error other => decidable_of_iff (other = e) (by simp)

namespace Regex

theorem exists_parse_of_compile {text : String} {program : Program}
    (hcompile : compile text = .ok program) :
    ∃ regex, parse text = .ok regex ∧ program = Program.ofRegex regex := by
  unfold compile at hcompile
  cases hparse : parse text with
  | error fault =>
      rw [hparse] at hcompile
      cases hcompile
  | ok regex =>
      rw [hparse] at hcompile
      dsimp only [bind, Except.bind] at hcompile
      split at hcompile
      · cases hcompile
        exact ⟨regex, rfl, rfl⟩
      · cases hcompile

theorem compile_of_parse {text : String} {regex : Regex} (hparse : parse text = .ok regex)
    (hsmall : compile text ≠ .error .tooLarge) : compile text = .ok (Program.ofRegex regex) := by
  unfold compile at hsmall ⊢
  rw [hparse] at hsmall ⊢
  dsimp only [bind, Except.bind] at hsmall ⊢
  split
  · rfl
  · next hlarge =>
      rw [if_neg hlarge] at hsmall
      exact (hsmall rfl).elim

end Regex

namespace Pattern

theorem compile_standard_eq_ok_iff {pattern : String} {compiled : CompiledPattern} :
    compile .standard pattern = .ok compiled ↔ checkSafety pattern = .ok () ∧
      ∃ program, Regex.compile pattern = .ok program ∧
        compiled = ⟨pattern, Engine.matcherOf program⟩ := by
  unfold compile Engine.standard
  dsimp only
  cases checkSafety pattern with
  | error e => simp
  | ok _ =>
      cases Regex.compile pattern with
      | error fault => simp
      | ok program => simp [eq_comm]

/-- The standard engine has built the pattern. -/
def IsPattern (pattern : String) : Prop := ∃ compiled, compile .standard pattern = .ok compiled

/-- A pattern by itself, which matches a text from its first to its last character. -/
def MatchesAllOf (pattern text : String) : Prop :=
  IsPattern pattern ∧
    ∃ regex, Regex.parse pattern = .ok regex ∧ regex.MatchesWhole text.toList

/-- A pattern in parentheses stays within them: it closes no group that it has not opened,
and is not too large just without them. -/
@[mk_iff]
structure StaysInside (pattern : String) : Prop where
  screened : checkSafety pattern ≠ .error (.malformed pattern .unbalancedClose)
  opened : Regex.parse pattern ≠ .error .unopenedGroup
  small : Regex.compile pattern ≠ .error .tooLarge

/-- A pattern leaves room for parentheses between anchors: a parenthesis behind it closes
nothing of it, and with the parentheses it is not too long, too deep or too large. -/
@[mk_iff]
structure LeavesRoom (pattern : String) : Prop where
  screened : checkSafety (pattern ++ ")$") = .error (.malformed (pattern ++ ")$") .unbalancedClose)
  unopened : Regex.parse (pattern ++ ")$") = .error .unopenedGroup
  short : (wholeMatch pattern).utf8ByteSize ≤ maxLength
  shallow : Regex.parse (wholeMatch pattern) ≠ .error .tooDeep
  small : Regex.compile (wholeMatch pattern) ≠ .error .tooLarge

instance (pattern : String) : Decidable (IsPattern pattern) :=
  decidable_of_iff ((compile .standard pattern).isOk = true) <| by
    unfold IsPattern
    cases compile .standard pattern <;> simp [Except.isOk, Except.toBool]

instance (pattern : String) : Decidable (StaysInside pattern) :=
  decidable_of_iff _ (staysInside_iff pattern).symm

instance (pattern : String) : Decidable (LeavesRoom pattern) :=
  decidable_of_iff _ (leavesRoom_iff pattern).symm

theorem IsPattern.staysInside {pattern : String} (hpattern : IsPattern pattern) :
    StaysInside pattern := by
  obtain ⟨compiled, hcompiled⟩ := hpattern
  obtain ⟨hsafe, program, hcompile, -⟩ := compile_standard_eq_ok_iff.1 hcompiled
  obtain ⟨regex, hparse, -⟩ := Regex.exists_parse_of_compile hcompile
  exact ⟨by simp [hsafe], by simp [hparse], by simp [hcompile]⟩

theorem isPattern_of_wholeMatch {pattern : String} (hinside : StaysInside pattern)
    (hwhole : IsPattern (wholeMatch pattern)) : IsPattern pattern := by
  obtain ⟨compiled, hcompiled⟩ := hwhole
  obtain ⟨hsafe, program, hcompile, -⟩ := compile_standard_eq_ok_iff.1 hcompiled
  obtain ⟨regex, hparse, -⟩ := Regex.exists_parse_of_compile hcompile
  obtain ⟨inner, hinner, -⟩ := Regex.exists_parse_of_parse_anchored hinside.opened hparse
  exact ⟨_, compile_standard_eq_ok_iff.2 ⟨checkSafety_of_anchored hinside.screened hsafe,
    _, Regex.compile_of_parse hinner hinside.small, rfl⟩⟩

theorem isPattern_wholeMatch {pattern : String} (hroom : LeavesRoom pattern)
    (hpattern : IsPattern pattern) : IsPattern (wholeMatch pattern) := by
  obtain ⟨compiled, hcompiled⟩ := hpattern
  obtain ⟨hsafe, program, hcompile, -⟩ := compile_standard_eq_ok_iff.1 hcompiled
  obtain ⟨inner, hinner, -⟩ := Regex.exists_parse_of_compile hcompile
  have hparse := Regex.parse_anchored_of_parse hinner hroom.unopened hroom.shallow
  exact ⟨_, compile_standard_eq_ok_iff.2
    ⟨checkSafety_anchored_of_checkSafety hsafe hroom.screened hroom.short,
      _, Regex.compile_of_parse hparse hroom.small, rfl⟩⟩

theorem leavesRoom_of_wholeMatch {pattern : String} (hwhole : IsPattern (wholeMatch pattern)) :
    LeavesRoom pattern := by
  obtain ⟨compiled, hcompiled⟩ := hwhole
  obtain ⟨hsafe, program, hcompile, -⟩ := compile_standard_eq_ok_iff.1 hcompiled
  obtain ⟨regex, hparse, -⟩ := Regex.exists_parse_of_compile hcompile
  exact
    { screened := checkSafety_eq_unbalanced_of_anchored hsafe
      unopened := Regex.parse_eq_unopened_of_parse_anchored hparse
      short := (checkSafety_eq_ok_iff.1 hsafe).1
      shallow := by simp [hparse]
      small := by simp [hcompile] }

/-- A pattern in parentheses between anchors matches what the pattern matches whole. -/
theorem isMatch_wholeMatch_iff {pattern : String} {compiled : CompiledPattern}
    (hcompiled : compile .standard (wholeMatch pattern) = .ok compiled)
    (hpattern : IsPattern pattern) (text : String) :
    compiled.isMatch text = true ↔ MatchesAllOf pattern text := by
  obtain ⟨-, program, hcompile, rfl⟩ := compile_standard_eq_ok_iff.1 hcompiled
  obtain ⟨regex, hparse, rfl⟩ := Regex.exists_parse_of_compile hcompile
  have hordered := Regex.isOrdered_of_parse hparse
  obtain ⟨inner, hinner, rfl⟩ :=
    Regex.exists_parse_of_parse_anchored hpattern.staysInside.opened hparse
  have hmatches : _ ↔ inner.MatchesWhole text.toList :=
    (Regex.isMatch_ofRegex_iff hordered text.toList).trans Regex.matchesWithin_anchored_iff
  refine hmatches.trans ⟨fun hwhole => ⟨hpattern, inner, hinner, hwhole⟩, ?_⟩
  rintro ⟨-, other, hother, hwhole⟩
  rw [hinner] at hother
  cases hother
  exact hwhole

/-- Whether a pattern matches all of a text is found out by matching its expression
between anchors. -/
theorem matchesAllOf_iff {pattern text : String} :
    MatchesAllOf pattern text ↔ IsPattern pattern ∧
      (Regex.parse pattern).toOption.any (fun regex =>
        (Regex.Program.ofRegex (.sequence [.assertion .textStart, .group false regex,
          .assertion .textEnd])).isMatch text.toList) = true := by
  unfold MatchesAllOf
  cases hparse : Regex.parse pattern with
  | error fault => simp [Except.toOption]
  | ok regex =>
      have hordered := Regex.isOrdered_of_parse hparse
      have hanchored : (Regex.sequence [.assertion .textStart, .group false regex,
          .assertion .textEnd]).IsOrdered :=
        ⟨trivial, hordered, trivial, trivial⟩
      simp [Except.toOption, Regex.isMatch_ofRegex_iff hanchored, Regex.matchesWithin_anchored_iff]

instance (pattern text : String) : Decidable (MatchesAllOf pattern text) :=
  decidable_of_iff _ matchesAllOf_iff.symm

end Pattern

/-- An allowed match covers a match of its specification. -/
def PatternLibrary.covers (library : PatternLibrary) (allow : AllowedMatch) (hit : String) : Bool :=
  (library.compiled? (wholeMatch allow.pattern)).any (·.isMatch hit)

theorem PatternLibrary.firstUncovered?_eq_find? {library : PatternLibrary} {spec : PatternSpec}
    {pattern : CompiledPattern} (hpattern : library.compiled? spec.pattern = some pattern)
    (text : String) :
    library.firstUncovered? spec text =
      (pattern.findAll text).find? fun hit => !spec.allow.any fun allow =>
        library.covers allow hit := by
  simp only [firstUncovered?, hpattern, allowed, List.any_filterMap, covers]
  rfl

/-- A scan reports the first match of a pattern that no allowed match covers.  An allowed
match whose pattern stays within the parentheses that are put around it, as every pattern
by itself does, covers exactly the matches that its pattern matches whole, if the pattern
leaves room for the parentheses, and otherwise none. -/
theorem firstUncovered?_spares_whole_matches {policy : Policy} {rule : Rule} {spec : PatternSpec}
    {pattern : CompiledPattern} (hrule : rule ∈ policy.rules)
    (hspec : spec ∈ rule.check.patternSpecs)
    (hpattern : compile .standard spec.pattern = .ok pattern) :
    let library := policy.patternLibrary .standard
    (∀ text, library.firstUncovered? spec text =
      (pattern.findAll text).find? fun hit => !spec.allow.any fun allow =>
        library.covers allow hit) ∧
    ∀ allow ∈ spec.allow, StaysInside allow.pattern → ∀ hit,
      library.covers allow hit = true ↔
        MatchesAllOf allow.pattern hit ∧ LeavesRoom allow.pattern := by
  intro library
  have hget : ∀ p ∈ spec.patterns, library.get? p = some (compile .standard p) :=
    fun p hp => get?_patternLibrary .standard hrule hspec hp
  have hown : library.compiled? spec.pattern = some pattern := by
    unfold PatternLibrary.compiled?
    rw [hget _ List.mem_cons_self, hpattern]
  refine ⟨PatternLibrary.firstUncovered?_eq_find? hown, fun allow hallow hinside hit => ?_⟩
  have hcovers : library.covers allow hit = true ↔ ∃ compiled,
      compile .standard (wholeMatch allow.pattern) = .ok compiled ∧
        compiled.isMatch hit = true := by
    unfold PatternLibrary.covers PatternLibrary.compiled?
    rw [hget _ (List.mem_cons_of_mem _ (List.mem_map_of_mem hallow))]
    cases compile .standard (wholeMatch allow.pattern) <;> simp
  rw [hcovers]
  constructor
  · rintro ⟨compiled, hcompiled, hmatch⟩
    have hallowed := isPattern_of_wholeMatch hinside ⟨compiled, hcompiled⟩
    exact ⟨(isMatch_wholeMatch_iff hcompiled hallowed hit).1 hmatch,
      leavesRoom_of_wholeMatch ⟨compiled, hcompiled⟩⟩
  · rintro ⟨hmatches, hroom⟩
    obtain ⟨compiled, hcompiled⟩ := isPattern_wholeMatch hroom hmatches.1
    exact ⟨compiled, hcompiled, (isMatch_wholeMatch_iff hcompiled hmatches.1 hit).2 hmatches⟩

/-- An exception that is found within a longer match covers only the match that is all
of it. -/
theorem firstUncovered?_spares_whole_matches_reviewed :
    let allow : AllowedMatch := ⟨"ab", "reviewed"⟩
    let spec : PatternSpec := { id := "letters", pattern := "ab*", allow := [allow] }
    let rule : Rule := { id := "shell", check := .unsafePattern [spec] }
    let library := Policy.patternLibrary .standard { rules := [rule] }
    StaysInside allow.pattern ∧ library.covers allow "ab" = true ∧
      MatchesAllOf allow.pattern "ab" ∧ LeavesRoom allow.pattern ∧
        ¬MatchesAllOf allow.pattern "abb" ∧ library.firstUncovered? spec "ab abb" = some "abb" := by
  intro allow spec rule library
  have hinside : StaysInside allow.pattern := by decide +kernel
  have hcovers : library.covers allow "ab" = true := by decide +kernel
  have hbare : library.covers allow "abb" = false := by decide +kernel
  obtain ⟨pattern, hpattern⟩ : IsPattern spec.pattern := by decide +kernel
  obtain ⟨hfirst, hallowed⟩ := @firstUncovered?_spares_whole_matches { rules := [rule] } rule spec
    pattern List.mem_cons_self List.mem_cons_self hpattern
  have hexact := hallowed allow List.mem_cons_self hinside
  obtain ⟨hmatches, hroom⟩ := (hexact "ab").1 hcovers
  have hother : ¬MatchesAllOf allow.pattern "abb" := fun hmatches =>
    Bool.false_ne_true (hbare.symm.trans ((hexact "abb").2 ⟨hmatches, hroom⟩))
  exact ⟨hinside, hcovers, hmatches, hroom, hother, by decide +kernel⟩

/-- A pattern that closes the parentheses around it is none by itself, and waives every
match that begins as it does; a pattern that ends in a comment matches all of a match,
and the comment hides the end of the parentheses, so that nothing is waived. -/
theorem firstUncovered?_spares_other_matches :
    let escaping : AllowedMatch := ⟨"a)|(?:c", "reviewed"⟩
    let commented : AllowedMatch := ⟨"(?x)abb#", "reviewed"⟩
    let first : PatternSpec := { id := "first", pattern := "ab*", allow := [escaping] }
    let second : PatternSpec := { id := "second", pattern := "ab*", allow := [commented] }
    let library := Policy.patternLibrary .standard
      { rules := [{ id := "shell", check := .unsafePattern [first, second] }] }
    (library.compiled? "ab*").map (·.findAll "abb") = some ["abb"] ∧
      (library.firstUncovered? first "abb" = none ∧ library.covers escaping "abb" = true ∧
        ¬IsPattern escaping.pattern) ∧
      library.firstUncovered? second "abb" = some "abb" ∧
        library.covers commented "abb" = false ∧ MatchesAllOf commented.pattern "abb" := by
  decide +kernel

end WorkflowAudit
