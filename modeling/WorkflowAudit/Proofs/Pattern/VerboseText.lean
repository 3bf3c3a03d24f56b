import WorkflowAudit.Pattern.Screen
import WorkflowAudit.Proofs.Regex.Escape

/-!
# Verbose text

In verbose text blanks and comments mean nothing.  The screen drops them where it
looks for the next lexeme, exactly as the reader of expressions does there, so a
comment between two lexemes hides nothing from it.  Within a lexeme only the reader
drops them.
-/

namespace WorkflowAudit.Pattern

open Text Regex

/-- A character that is read, and not dropped, where a lexeme may begin. -/
def IsVisible (verbose : Bool) (c : Char) : Prop :=
  verbose = true → isBlank c = false ∧ c ≠ '#'

theorem head_of_skipInsignificant {inComment : Bool} {text rest : List Char} {c : Char}
    (hskip : skipInsignificant inComment text = c :: rest) : isBlank c = false ∧ c ≠ '#' := by
  fun_induction skipInsignificant inComment text with
  | case1 => cases hskip
  | case2 _ _ ih => exact ih hskip
  | case3 _ _ _ _ _ ih => exact ih hskip
  | case4 _ _ _ _ _ _ ih => exact ih hskip
  | case5 _ _ _ _ hblank hsign =>
      cases hskip
      exact ⟨by simpa using hblank, by simpa using hsign⟩

theorem isVisible_of_skipVerbose {verbose : Bool} {text rest : List Char} {c : Char}
    (hskip : skipVerbose verbose text = c :: rest) : IsVisible verbose c := by
  rintro rfl
  exact head_of_skipInsignificant hskip

theorem skipVerbose_cons_of_isVisible {verbose : Bool} {c : Char} (hvisible : IsVisible verbose c)
    (rest : List Char) : skipVerbose verbose (c :: rest) = c :: rest := by
  cases verbose with
  | false => rfl
  | true =>
      obtain ⟨hblank, hsign⟩ := hvisible rfl
      simp [skipVerbose, skipInsignificant, hblank, hsign]

theorem skipVerbose_blanks {blanks : List Char} (hblanks : ∀ c ∈ blanks, isBlank c = true)
    (rest : List Char) : skipVerbose true (blanks ++ rest) = skipVerbose true rest := by
  induction blanks with
  | nil => rfl
  | cons c blanks ih =>
      have hc := hblanks c List.mem_cons_self
      rw [← ih fun d hd => hblanks d (.tail _ hd)]
      simp [skipVerbose, skipInsignificant, hc]

/-- What has been read is gone: text that begins with a visible character is not what
is left of it. -/
theorem skipVerbose_ne_of_length_lt {verbose : Bool} {text after : List Char}
    (hlength : after.length < (skipVerbose verbose text).length) :
    skipVerbose verbose text ≠ skipVerbose verbose after := by
  intro heq
  have hle := length_skipVerbose_le verbose after
  rw [← heq] at hle
  omega

theorem screenFrom_of_screenStep {t next : ScreenState} {c : Char} {rest : List Char} {extra : Nat}
    (hstep : screenStep t c rest = .ok (next, extra)) :
    screenFrom t (c :: rest) = screenFrom next (rest.drop extra) := by
  rw [screenFrom, hstep]

/-- What means nothing changes nothing.  In a comment the screen has dropped the rest
of the line at once, and the reader drops it character by character. -/
theorem screenFrom_skipVerbose (t : ScreenState) (text : List Char) :
    screenFrom t (skipVerbose t.frame.verbose text) = screenFrom t text := by
  cases hverbose : t.frame.verbose with
  | false => rfl
  | true =>
      suffices hskip : ∀ inComment, screenFrom t (skipInsignificant inComment text) =
          screenFrom t
            (if inComment then text.drop ((text.takeWhile (· ≠ '\n')).length + 1) else text) from
        hskip false
      intro inComment
      induction text generalizing inComment with
      | nil => cases inComment <;> rfl
      | cons c rest ih =>
          cases inComment with
          | true =>
              rw [skipInsignificant, if_pos rfl, if_pos rfl, ih]
              by_cases hline : c = '\n' <;> simp [hline]
          | false =>
              rw [skipInsignificant, if_neg Bool.false_ne_true, if_neg Bool.false_ne_true]
              split
              · next hblank =>
                  have hstep : screenStep t c rest = .ok (t, 0) := by
                    simp [screenStep, hverbose, hblank]
                  rw [ih, screenFrom_of_screenStep hstep]
                  rfl
              · next hblank =>
                  split
                  · next hsign =>
                      have hstep : screenStep t c rest =
                          .ok (t, (rest.takeWhile (· ≠ '\n')).length + 1) := by
                        simp [screenStep, hverbose, hblank, hsign]
                      rw [ih, screenFrom_of_screenStep hstep]
                      rfl
                  · rfl

end WorkflowAudit.Pattern
