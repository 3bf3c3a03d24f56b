import Mathlib.Algebra.Order.Ring.Nat
import WorkflowAudit.Proofs.Text.Pieces
import WorkflowAudit.Violation.Basic

/-!
# What a fingerprint tells apart

A fingerprint hashes one text, in which the rule, the code, the path, the job and the step
follow each other with colons between them and a missing part is written `-`.  The message,
the severity and the category do not enter.  The step can always be read off the text.  The
other parts can be read off as long as it is known how many colons stand in three of them;
only a missing job and a job called `-` are then the same.  Whatever the text tells apart the
fingerprint tells apart as well, or two messages with one digest are known.
-/

namespace WorkflowAudit

open Text

/-! ## Digests -/

namespace Sha256

/-- Two messages with the same digest. -/
def Collide (left right : List UInt8) : Prop := left ≠ right ∧ digest left = digest right

theorem hexDigitOf_inj {left right : Nat} (hleft : left < 16) (hright : right < 16)
    (heq : hexDigitOf left = hexDigitOf right) : left = right := by
  have hall : ∀ a < 16, ∀ b < 16, hexDigitOf a = hexDigitOf b → a = b := by decide
  exact hall left hleft right hright heq

theorem hex_injective : Function.Injective hex := by
  intro left right heq
  have hchars := String.ofList_injective heq
  clear heq
  induction left generalizing right with
  | nil => cases right <;> simp_all
  | cons byte left ih =>
      cases right with
      | nil => simp at hchars
      | cons byte' right =>
          simp only [List.flatMap_cons, List.cons_append, List.nil_append,
            List.cons.injEq] at hchars
          obtain ⟨hhigh, hlow, hrest⟩ := hchars
          have hlt := byte.toNat_lt
          have hlt' := byte'.toNat_lt
          have hhigh := hexDigitOf_inj (by omega) (by omega) hhigh
          have hlow := hexDigitOf_inj (by omega) (by omega) hlow
          have hbyte : byte = byte' := by
            rw [← UInt8.toNat_inj]
            omega
          rw [hbyte, ih hrest]

theorem toList_loop_eq (bytes : ByteArray) (i : Nat) (read : List UInt8) :
    ByteArray.toList.loop bytes i read = read.reverse ++ bytes.data.toList.drop i := by
  fun_induction ByteArray.toList.loop bytes i read with
  | case1 i read hi ih =>
      rw [ih, List.reverse_cons, List.append_assoc,
        List.drop_eq_getElem_cons (show i < bytes.data.toList.length from hi)]
      simp [ByteArray.get!, hi]
  | case2 i read hi => rw [List.drop_eq_nil_of_le (Nat.not_lt.1 hi), List.append_nil]

/-- Different texts have different octets. -/
theorem octets_injective : Function.Injective fun text : String => text.toUTF8.toList := by
  intro left right heq
  have hdata : left.toUTF8.data.toList = right.toUTF8.data.toList := by
    simpa [ByteArray.toList, toList_loop_eq] using heq
  exact String.toByteArray_inj.1 (ByteArray.ext (Array.toList_inj.1 hdata))

/-- Texts with the same digest are the same, or their octets collide. -/
theorem eq_or_collide_of_hexOfString {left right : String}
    (heq : hexOfString left = hexOfString right) :
    left = right ∨ Collide left.toUTF8.toList right.toUTF8.toList := by
  by_cases hsame : left = right
  · exact .inl hsame
  · exact .inr ⟨fun hoctets => hsame (octets_injective hoctets), hex_injective heq⟩

end Sha256

/-! ## The text under the hash -/

/-- How a location's job is written. -/
def Location.jobMark (location : Location) : String := location.job.getD "-"

/-- How a location's step is written. -/
def Location.stepMark (location : Location) : String := (location.step.map toString).getD "-"

theorem isDigit_of_mem_repr {n : Nat} {c : Char} (hc : c ∈ n.repr.toList) : c.isDigit = true := by
  rw [Nat.toList_repr] at hc
  exact Nat.isDigit_of_mem_toDigits (by decide) (by decide) hc

theorem Location.colon_not_mem_stepMark (location : Location) :
    ':' ∉ location.stepMark.toList := by
  unfold stepMark
  cases location.step with
  | none => decide
  | some step => exact fun hc => absurd (isDigit_of_mem_repr hc) (by decide)

theorem Location.stepMark_eq_iff {l l' : Location} :
    l.stepMark = l'.stepMark ↔ l.step = l'.step := by
  have hdash : ∀ step : Nat, step.repr ≠ "-" := fun step heq =>
    absurd (@isDigit_of_mem_repr step '-' (heq ▸ List.mem_singleton.2 rfl)) (by decide)
  have hnumber : ∀ step step' : Nat, step.repr = step'.repr → step = step' := by
    intro step step' heq
    have hdigits := congrArg (fun text => Nat.ofDigitChars 10 text.toList 0) heq
    simpa [Nat.toList_repr] using hdigits
  refine ⟨fun heq => ?_, fun heq => by rw [stepMark, stepMark, heq]⟩
  unfold stepMark at heq
  cases hstep : l.step with
  | none =>
      cases hstep' : l'.step with
      | none => rfl
      | some step' =>
          rw [hstep, hstep'] at heq
          exact absurd heq.symm (hdash step')
  | some step =>
      cases hstep' : l'.step with
      | none =>
          rw [hstep, hstep'] at heq
          exact absurd heq (hdash step)
      | some step' =>
          rw [hstep, hstep'] at heq
          rw [hnumber step step' heq]

/-- Jobs that are written alike: the same, or one missing and the other one called `-`. -/
theorem Location.jobMark_eq_iff {l l' : Location} :
    l.jobMark = l'.jobMark ↔ l.job = l'.job ∨ (l.job = none ∧ l'.job = some "-") ∨
      (l.job = some "-" ∧ l'.job = none) := by
  unfold jobMark
  cases l.job <;> cases l'.job <;> simp [eq_comm]

/-! ## Parts and their colons -/

theorem count_joinWith (separator : Char) {pieces : List (List Char)} (hpieces : pieces ≠ []) :
    (joinWith [separator] pieces).count separator + 1 =
      (pieces.map (List.count separator)).sum + pieces.length := by
  induction pieces with
  | nil => exact absurd rfl hpieces
  | cons piece pieces ih =>
      cases pieces with
      | nil => simp [joinWith]
      | cons next pieces =>
          have hrest := ih (List.cons_ne_nil _ _)
          simp only [joinWith, List.count_append, List.count_singleton_self, List.map_cons,
            List.sum_cons, List.length_cons] at hrest ⊢
          omega

/-- Pieces can be told from what they are joined to, once it is known how many separators
each of them holds itself. -/
theorem joinWith_inj_of_count {separator : Char} {pieces pieces' : List (List Char)}
    (hcount : pieces.map (List.count separator) = pieces'.map (List.count separator))
    (heq : joinWith [separator] pieces = joinWith [separator] pieces') : pieces = pieces' := by
  induction pieces generalizing pieces' with
  | nil => exact (List.map_eq_nil_iff.1 hcount.symm).symm
  | cons piece pieces ih =>
      obtain ⟨piece', rest', rfl⟩ : ∃ piece' rest', pieces' = piece' :: rest' := by
        cases pieces' with
        | nil => cases hcount
        | cons piece' rest' => exact ⟨piece', rest', rfl⟩
      obtain ⟨hfirst, hrest⟩ := List.cons.inj hcount
      cases pieces with
      | nil =>
          obtain rfl := List.map_eq_nil_iff.1 hrest.symm
          rw [show piece = piece' from heq]
      | cons next pieces =>
          cases rest' with
          | nil => cases hrest
          | cons next' rest' =>
              simp only [joinWith, List.append_assoc, List.singleton_append] at heq
              obtain ⟨rfl, hjoined⟩ := append_separator_inj_of_count hfirst heq
              rw [ih hrest hjoined]

/-- Lists with the same length and the same sum that agree at all positions but one. -/
theorem eq_of_sum_eq {counts counts' : List Nat} (hlength : counts.length = counts'.length)
    (hsum : counts.sum = counts'.sum) {i : Nat} (hothers : ∀ k ≠ i, counts[k]? = counts'[k]?) :
    counts = counts' := by
  induction counts generalizing counts' i with
  | nil => exact (List.length_eq_zero_iff.1 hlength.symm).symm
  | cons count counts ih =>
      cases counts' with
      | nil => cases hlength
      | cons count' counts' =>
          rw [List.sum_cons, List.sum_cons] at hsum
          cases i with
          | zero =>
              obtain rfl : counts = counts' :=
                List.ext_getElem? fun k => by simpa using hothers (k + 1) (Nat.succ_ne_zero k)
              rw [Nat.add_right_cancel hsum]
          | succ i =>
              obtain rfl : count = count' := by simpa using hothers 0 (Nat.succ_ne_zero i).symm
              rw [ih (Nat.succ.inj hlength) (Nat.add_left_cancel hsum) (i := i)
                fun k hk => by simpa using hothers (k + 1) fun heq => hk (Nat.succ.inj heq)]

namespace Violation

/-- The violation was built, with the fingerprint of what it says. -/
def IsMade (v : Violation) : Prop :=
  v = make v.ruleId v.category v.code v.severity v.message v.location

/-- Both are findings of the same rule and code at the same location. -/
structure Agrees (v w : Violation) : Prop where
  ruleId : v.ruleId = w.ruleId
  code : v.code = w.code
  location : v.location = w.location

/-- The text under the fingerprint of a violation. -/
def hashedText (v : Violation) : String := fingerprintText v.ruleId v.code v.location

/-- The parts of the text in front of the step. -/
def parts (v : Violation) : List (List Char) :=
  [v.ruleId.toList, v.code.toList, v.location.path.toList, v.location.jobMark.toList]

/-- How many colons stand in each of these parts. -/
def colons (v : Violation) : List Nat := v.parts.map (List.count ':')

variable {v w : Violation}

theorem toList_hashedText (v : Violation) :
    v.hashedText.toList = joinWith [':'] v.parts ++ ':' :: v.location.stepMark.toList := by
  simp [hashedText, fingerprintText, Location.key, Location.jobMark, Location.stepMark, parts,
    joinWith, toString, String.toList_append]

/-- Two texts are the same if and only if the step is, and what stands in front of it. -/
theorem hashedText_eq_iff :
    v.hashedText = w.hashedText ↔ v.location.step = w.location.step ∧
      joinWith [':'] v.parts = joinWith [':'] w.parts := by
  rw [← String.toList_inj, toList_hashedText, toList_hashedText]
  constructor
  · intro heq
    obtain ⟨hparts, hstep⟩ := append_last_inj v.location.colon_not_mem_stepMark
      w.location.colon_not_mem_stepMark heq
    exact ⟨Location.stepMark_eq_iff.1 (String.toList_inj.1 hstep), hparts⟩
  · rintro ⟨hstep, hparts⟩
    rw [hparts, Location.stepMark_eq_iff.2 hstep]

/-- At most one part in front of the step holds more colons in the one text than in the other. -/
def ColonsAgree (v w : Violation) : Prop := ∃ i : Nat, ∀ k ≠ i, v.colons[k]? = w.colons[k]?

/-- Two violations that differ at most in that one has no job and the other the job `-`. -/
structure AgreesInWriting (v w : Violation) : Prop where
  ruleId : v.ruleId = w.ruleId
  code : v.code = w.code
  path : v.location.path = w.location.path
  step : v.location.step = w.location.step
  job : v.location.job = w.location.job ∨ (v.location.job = none ∧ w.location.job = some "-") ∨
    (v.location.job = some "-" ∧ w.location.job = none)

theorem hashedText_eq_iff_of_colonsAgree (hcolons : v.ColonsAgree w) :
    v.hashedText = w.hashedText ↔ v.AgreesInWriting w := by
  rw [hashedText_eq_iff]
  constructor
  · rintro ⟨hstep, hjoined⟩
    have htotal := congrArg (List.count ':') hjoined
    have hcount : _ = v.colons.sum + v.parts.length := count_joinWith ':' (List.cons_ne_nil _ _)
    have hcount' : _ = w.colons.sum + w.parts.length := count_joinWith ':' (List.cons_ne_nil _ _)
    rw [← htotal, hcount] at hcount'
    obtain ⟨i, hothers⟩ := hcolons
    have hcolons : v.colons = w.colons :=
      eq_of_sum_eq rfl (Nat.add_right_cancel hcount') hothers
    have hparts := joinWith_inj_of_count hcolons hjoined
    simp only [parts, List.cons.injEq, String.toList_inj, and_true] at hparts
    obtain ⟨hrule, hcode, hpath, hjob⟩ := hparts
    exact ⟨hrule, hcode, hpath, hstep, Location.jobMark_eq_iff.1 hjob⟩
  · rintro ⟨hrule, hcode, hpath, hstep, hjob⟩
    rw [parts, parts, hrule, hcode, hpath, Location.jobMark_eq_iff.2 hjob]
    exact ⟨hstep, rfl⟩

theorem IsMade.fingerprint_eq (hv : v.IsMade) :
    v.fingerprint = "sha256:" ++ Sha256.hexOfString v.hashedText := by
  rw [hv]
  rfl

theorem IsMade.fingerprint_eq_iff (hv : v.IsMade) (hw : w.IsMade) :
    v.fingerprint = w.fingerprint ↔
      Sha256.hexOfString v.hashedText = Sha256.hexOfString w.hashedText := by
  rw [hv.fingerprint_eq, hw.fingerprint_eq, String.append_right_inj]

/-- Findings of one rule and code at one location share their fingerprint, whatever else they
say.  A shared fingerprint means a shared text, or a collision of SHA-256.  A shared text means
the same step, and it means the same rule, code, path and job, as far as a missing job can be
told from the job `-`, whenever at most one of these four holds more colons in the one finding
than in the other. -/
theorem fingerprints_tell_apart (hv : v.IsMade) (hw : w.IsMade) :
    (v.Agrees w → v.fingerprint = w.fingerprint) ∧
      (v.fingerprint = w.fingerprint → v.hashedText = w.hashedText ∨
        Sha256.Collide v.hashedText.toUTF8.toList w.hashedText.toUTF8.toList) ∧
      (v.hashedText = w.hashedText → v.location.step = w.location.step) ∧
      (v.ColonsAgree w → (v.hashedText = w.hashedText ↔ v.AgreesInWriting w)) := by
  refine ⟨fun hagree => ?_, fun heq => ?_, fun heq => (hashedText_eq_iff.1 heq).1,
    hashedText_eq_iff_of_colonsAgree⟩
  · rw [hv.fingerprint_eq_iff hw, hashedText, hashedText, hagree.ruleId, hagree.code,
      hagree.location]
  · exact Sha256.eq_or_collide_of_hexOfString ((hv.fingerprint_eq_iff hw).1 heq)

/-- Two jobs of a file whose path holds a colon, one of them with a colon of its own. -/
theorem fingerprints_tell_apart_two_jobs :
    let v := make "a" .permissions "missing" .error "no permissions" (.inJob "c:/ci.yml" "b:test")
    let w := make "a" .dockerPinning "missing" .warning "" (.inJob "c:/ci.yml" "test")
    v.IsMade ∧ w.IsMade ∧ v.ColonsAgree w ∧ v.hashedText ≠ w.hashedText := by
  intro v w
  have hothers : ∀ k ≠ 3, v.colons[k]? = w.colons[k]?
    | 0, _ | 1, _ | 2, _ => by decide +kernel
    | 3, h => absurd rfl h
    | k + 4, _ => rfl
  have hcolons : v.ColonsAgree w := ⟨3, hothers⟩
  refine ⟨rfl, rfl, hcolons, fun heq => ?_⟩
  have hagree := (@fingerprints_tell_apart v w rfl rfl).2.2.2 hcolons |>.1 heq
  exact absurd hagree.job (by decide)

/-- Findings of different rules and codes, in different files and jobs, and in a file and in
its job `-`, each pair with one text and one fingerprint. -/
theorem fingerprints_confuse_colons :
    let confused (v w : Violation) : Prop :=
      v.IsMade ∧ w.IsMade ∧ ¬v.Agrees w ∧ v.hashedText = w.hashedText ∧
        v.fingerprint = w.fingerprint
    confused (make "a:c" .permissions "c" .error "" (.file "ci.yml"))
        (make "a" .permissions "c:c" .error "" (.file "ci.yml")) ∧
      confused (make "a" .permissions "c" .error "" (.inJob "a.yml" "b.yml:c"))
        (make "a" .permissions "c" .error "" (.inJob "a.yml:b.yml" "c")) ∧
      confused (make "a" .permissions "c" .error "" (.file "ci.yml"))
        (make "a" .permissions "c" .error "" (.inJob "ci.yml" "-")) := by
  intro confused
  have hconfused : ∀ {v w : Violation}, v.IsMade → w.IsMade → ¬v.Agrees w →
      v.hashedText = w.hashedText → confused v w := fun hv hw hdiffer heq =>
    ⟨hv, hw, hdiffer, heq, (hv.fingerprint_eq_iff hw).2 (congrArg Sha256.hexOfString heq)⟩
  refine ⟨hconfused rfl rfl (fun hagree => ?_) (by decide +kernel),
    hconfused rfl rfl (fun hagree => ?_) (by decide +kernel),
    hconfused rfl rfl (fun hagree => ?_) (by decide +kernel)⟩
  · exact absurd hagree.ruleId (by decide)
  · exact absurd hagree.location (by decide)
  · exact absurd hagree.location (by decide)

end Violation

end WorkflowAudit
