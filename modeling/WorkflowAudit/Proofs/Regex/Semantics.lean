import Mathlib.Logic.Relation
import Mathlib.Tactic.Common
import WorkflowAudit.Regex.Matching

/-!
# What expressions match

An expression relates the positions of a text: it matches what stands between two
of them.  A position knows the character in front of it, which is all that an
assertion can see of the text before.  Nothing here speaks of programs; that they
find just these matches is shown in other modules.
-/

namespace WorkflowAudit.Regex

/-- A position in a text: the character in front of it, and the text ahead. -/
structure Position where
  before : Option Char
  ahead : List Char

/-- The position in front of a whole text. -/
def Position.start (text : List Char) : Position := ⟨none, text⟩

/-- A position does not lie before another one. -/
inductive Position.Leads : Position → Position → Prop
  | here {p : Position} : Leads p p
  | later {before : Option Char} {c : Char} {rest : List Char} {q : Position}
      (hlater : Leads ⟨some c, rest⟩ q) : Leads ⟨before, c :: rest⟩ q

theorem Position.leads_nil {before : Option Char} {q : Position} :
    Position.Leads ⟨before, []⟩ q ↔ q = ⟨before, []⟩ := by
  constructor
  · rintro ⟨⟩
    rfl
  · rintro rfl
    exact .here

theorem Position.leads_cons {before : Option Char} {c : Char} {rest : List Char} {q : Position} :
    Position.Leads ⟨before, c :: rest⟩ q ↔
      q = ⟨before, c :: rest⟩ ∨ Position.Leads ⟨some c, rest⟩ q := by
  constructor
  · rintro (_ | hlater)
    · exact .inl rfl
    · exact .inr hlater
  · rintro (rfl | hlater)
    · exact .here
    · exact .later hlater

/-- So many matches in a row. -/
def Times (R : Position → Position → Prop) : Nat → Position → Position → Prop
  | 0 => Eq
  | count + 1 => Relation.Comp R (Times R count)

/-- At least and at most so many matches in a row. -/
def Within (R : Position → Position → Prop) (least : Nat) (most : Option Nat)
    (p q : Position) : Prop :=
  ∃ count, least ≤ count ∧ (∀ bound ∈ most, count ≤ bound) ∧ Times R count p q

mutual

/-- An expression matches what stands between two positions. -/
def Matches : Regex → Position → Position → Prop
  | .empty => Eq
  | .chars set _ => fun p q =>
      ∃ c rest, p.ahead = c :: rest ∧ set.contains c = true ∧ q = ⟨some c, rest⟩
  | .assertion a => fun p q => a.holds p.before p.ahead.head? = true ∧ p = q
  | .group _ body => Matches body
  | .repeated least most _ body => Within (Matches body) least most
  | .sequence parts => MatchesInOrder parts
  | .choice branches => MatchesOneOf branches

def MatchesInOrder : List Regex → Position → Position → Prop
  | [] => Eq
  | part :: rest => Relation.Comp (Matches part) (MatchesInOrder rest)

def MatchesOneOf : List Regex → Position → Position → Prop
  | [] => fun _ _ => False
  | branch :: rest => fun p q => Matches branch p q ∨ MatchesOneOf rest p q

end

/-- An expression matches a text from its first to its last character. -/
def MatchesWhole (regex : Regex) (text : List Char) : Prop :=
  ∃ before, regex.Matches (Position.start text) ⟨before, []⟩

/-- An expression matches something within a text. -/
def MatchesWithin (regex : Regex) (text : List Char) : Prop :=
  ∃ p q, (Position.start text).Leads p ∧ regex.Matches p q

mutual

/-- No repetition has its least number above its greatest. -/
def IsOrdered : Regex → Prop
  | .empty | .chars _ _ | .assertion _ => True
  | .group _ body => IsOrdered body
  | .repeated least most _ body => (∀ bound ∈ most, least ≤ bound) ∧ IsOrdered body
  | .sequence parts => AllOrdered parts
  | .choice branches => AllOrdered branches

def AllOrdered : List Regex → Prop
  | [] => True
  | part :: rest => IsOrdered part ∧ AllOrdered rest

end

theorem allOrdered_iff {parts : List Regex} :
    AllOrdered parts ↔ ∀ part ∈ parts, part.IsOrdered := by
  induction parts with
  | nil => simp [AllOrdered]
  | cons part parts ih => simp [AllOrdered, ih]

/-! ## Matches in a row -/

variable {R : Position → Position → Prop} {p q : Position}

theorem times_one : Times R 1 = R := Relation.comp_eq

theorem times_add (left right : Nat) :
    Times R (left + right) = Relation.Comp (Times R left) (Times R right) := by
  induction left with
  | zero => rw [Nat.zero_add, Times, Relation.eq_comp]
  | succ left ih => rw [Nat.succ_add, Times, ih, Times, Relation.comp_assoc]

theorem times_succ (count : Nat) : Times R (count + 1) = Relation.Comp (Times R count) R := by
  rw [times_add, times_one]

/-- Any number of matches in a row. -/
theorem reflTransGen_iff_exists_times :
    Relation.ReflTransGen R p q ↔ ∃ count, Times R count p q := by
  constructor
  · intro hmany
    induction hmany using Relation.ReflTransGen.head_induction_on with
    | refl => exact ⟨0, rfl⟩
    | head hfirst _ ih =>
        obtain ⟨count, hrest⟩ := ih
        exact ⟨count + 1, _, hfirst, hrest⟩
  · rintro ⟨count, htimes⟩
    induction count generalizing p with
    | zero =>
        cases htimes
        exact .refl
    | succ count ih =>
        obtain ⟨middle, hfirst, hrest⟩ := htimes
        exact .head hfirst (ih hrest)

theorem within_zero_none : Within R 0 none = Relation.ReflTransGen R := by
  funext p q
  simp [Within, reflTransGen_iff_exists_times]

/-- A least number of matches is a first part of any such row. -/
theorem within_add (first least : Nat) (most : Option Nat) :
    Within R (first + least) (most.map (first + ·)) =
      Relation.Comp (Times R first) (Within R least most) := by
  funext p q
  apply propext
  constructor
  · rintro ⟨count, hleast, hmost, htimes⟩
    obtain ⟨others, rfl⟩ := Nat.exists_eq_add_of_le (Nat.le_of_add_right_le hleast)
    rw [times_add] at htimes
    obtain ⟨middle, hfirst, hothers⟩ := htimes
    refine ⟨middle, hfirst, others, by omega, ?_, hothers⟩
    intro bound hbound
    have := hmost (first + bound) (Option.mem_map_of_mem _ hbound)
    omega
  · rintro ⟨middle, hfirst, others, hleast, hmost, hothers⟩
    refine ⟨first + others, by omega, ?_, ?_⟩
    · intro bound hbound
      obtain ⟨bound, hmem, rfl⟩ := Option.map_eq_some_iff.1 hbound
      exact Nat.add_le_add_left (hmost bound hmem) first
    · rw [times_add]
      exact ⟨middle, hfirst, hothers⟩

/-- Another match in front, or none at all. -/
theorem within_zero_succ (bound : Nat) :
    Within R 0 (some (bound + 1)) =
      fun p q => p = q ∨ Relation.Comp R (Within R 0 (some bound)) p q := by
  funext p q
  apply propext
  constructor
  · rintro ⟨count, -, hmost, htimes⟩
    cases count with
    | zero => exact .inl htimes
    | succ count =>
        obtain ⟨middle, hfirst, hrest⟩ := htimes
        have hle : count ≤ bound := Nat.le_of_succ_le_succ (hmost _ rfl)
        exact .inr ⟨middle, hfirst, count, Nat.zero_le _, by simpa using hle, hrest⟩
  · rintro (rfl | ⟨middle, hfirst, count, -, hmost, hrest⟩)
    · exact ⟨0, Nat.le_refl _, fun _ _ => Nat.zero_le _, rfl⟩
    · have hle : count ≤ bound := hmost _ rfl
      exact ⟨count + 1, Nat.zero_le _, by simpa using hle, middle, hfirst, hrest⟩

theorem within_zero_zero : Within R 0 (some 0) = Eq := by
  funext p q
  apply propext
  constructor
  · rintro ⟨count, -, hmost, htimes⟩
    obtain rfl : count = 0 := Nat.le_zero.1 (hmost _ rfl)
    exact htimes
  · rintro rfl
    exact ⟨0, Nat.le_refl _, fun _ _ => Nat.zero_le _, rfl⟩

/-! ## Matches without a character -/

theorem eq_of_times (hstay : ∀ {p q}, R p q → p = q) {count : Nat} (htimes : Times R count p q) :
    p = q := by
  induction count generalizing p with
  | zero => exact htimes
  | succ count ih =>
      obtain ⟨middle, hfirst, hrest⟩ := htimes
      exact (hstay hfirst).trans (ih hrest)

theorem times_of_self (hself : R p p) (count : Nat) : Times R count p p := by
  induction count with
  | zero => rfl
  | succ count ih => exact ⟨p, hself, ih⟩

mutual

theorem eq_of_maxLength_eq_zero : ∀ (regex : Regex) {p q : Position},
    regex.maxLength = some 0 → regex.Matches p q → p = q
  | .empty, _, _, _, hmatch => hmatch
  | .chars _ _, _, _, hlength, _ => by simp [maxLength] at hlength
  | .assertion _, _, _, _, hmatch => hmatch.2
  | .group _ body, _, _, hlength, hmatch => eq_of_maxLength_eq_zero body hlength hmatch
  | .repeated _ most _ body, _, _, hlength, hmatch => by
      obtain ⟨count, _, hmost, htimes⟩ := hmatch
      unfold maxLength at hlength
      split at hlength
      · have hcount : count = 0 := Nat.le_zero.1 (hmost 0 rfl)
        subst hcount
        exact htimes
      · next hbody => exact eq_of_times (fun h => eq_of_maxLength_eq_zero body hbody h) htimes
      · next hmost' hbody' _ =>
          rw [Option.some.injEq, Nat.mul_eq_zero] at hlength
          rcases hlength with rfl | rfl
          · exact absurd rfl hmost'
          · exact absurd rfl hbody'
      · cases hlength
  | .sequence parts, _, _, hlength, hmatch => eq_of_maxLengthSum_eq_zero parts hlength hmatch
  | .choice branches, _, _, hlength, hmatch => eq_of_maxLengthMax_eq_zero branches hlength hmatch

theorem eq_of_maxLengthSum_eq_zero : ∀ (parts : List Regex) {p q : Position},
    maxLengthSum parts = some 0 → MatchesInOrder parts p q → p = q
  | [], _, _, _, hmatch => hmatch
  | part :: rest, _, _, hlength, hmatch => by
      obtain ⟨middle, hfirst, hothers⟩ := hmatch
      unfold maxLengthSum at hlength
      split at hlength
      · next length others hpart hrest =>
          have hzero : length = 0 ∧ others = 0 := by simpa using hlength
          rw [hzero.1] at hpart
          rw [hzero.2] at hrest
          exact (eq_of_maxLength_eq_zero part hpart hfirst).trans
            (eq_of_maxLengthSum_eq_zero rest hrest hothers)
      · cases hlength

theorem eq_of_maxLengthMax_eq_zero : ∀ (branches : List Regex) {p q : Position},
    maxLengthMax branches = some 0 → MatchesOneOf branches p q → p = q
  | [], _, _, _, hmatch => hmatch.elim
  | branch :: rest, _, _, hlength, hmatch => by
      unfold maxLengthMax at hlength
      split at hlength
      · next length others hbranch hrest =>
          have hzero : length = 0 ∧ others = 0 := by
            rw [Option.some.injEq] at hlength
            omega
          rw [hzero.1] at hbranch
          rw [hzero.2] at hrest
          rcases hmatch with hfirst | hother
          · exact eq_of_maxLength_eq_zero branch hbranch hfirst
          · exact eq_of_maxLengthMax_eq_zero rest hrest hother
      · cases hlength

end

theorem effectiveBounds_ordered {least : Nat} {most : Option Nat} {body : Regex}
    (hordered : ∀ bound ∈ most, least ≤ bound) :
    ∀ bound ∈ (effectiveBounds least most body).2, (effectiveBounds least most body).1 ≤ bound := by
  unfold effectiveBounds
  split
  · cases most with
    | none =>
        rintro bound ⟨⟩
        exact Nat.min_le_right least 1
    | some most =>
        rintro bound ⟨⟩
        have := hordered most rfl
        show min least 1 ≤ min most 1
        omega
  · exact hordered

/-- Cutting a repetition of nothing short changes none of its matches. -/
theorem within_effectiveBounds {least : Nat} {most : Option Nat} {body : Regex}
    (hordered : ∀ bound ∈ most, least ≤ bound) :
    Within body.Matches (effectiveBounds least most body).1 (effectiveBounds least most body).2 =
      Within body.Matches least most := by
  unfold effectiveBounds
  split
  · next hzero =>
      have hstay : ∀ {p q}, body.Matches p q → p = q := fun h =>
        eq_of_maxLength_eq_zero body (by simpa using hzero) h
      funext p q
      apply propext
      constructor
      · rintro ⟨count, hleast, hmost, htimes⟩
        cases count with
        | zero => exact ⟨0, by simpa using hleast, fun _ _ => Nat.zero_le _, htimes⟩
        | succ count =>
            obtain rfl := eq_of_times hstay htimes
            obtain ⟨middle, hfirst, -⟩ := htimes
            obtain rfl := hstay hfirst
            -- One match is as good as any number of them, so the bounds of one suffice.
            by_cases hnone : most = some 0
            · simp [hnone] at hmost
            · refine ⟨max least 1, Nat.le_max_left _ _, ?_, times_of_self hfirst _⟩
              rintro bound rfl
              have := hordered bound rfl
              have : bound ≠ 0 := fun h => hnone (by rw [h])
              omega
      · rintro ⟨count, hleast, hmost, htimes⟩
        cases count with
        | zero => exact ⟨0, by omega, fun _ _ => Nat.zero_le _, htimes⟩
        | succ count =>
            obtain rfl := eq_of_times hstay htimes
            obtain ⟨middle, hfirst, -⟩ := htimes
            obtain rfl := hstay hfirst
            refine ⟨1, Nat.min_le_right _ _, ?_, by rwa [times_one]⟩
            cases most with
            | none => simp
            | some bound =>
                have := hmost bound rfl
                simp
                omega
  · rfl

end WorkflowAudit.Regex
