import WorkflowAudit.Proofs.Text.Pieces

/-!
# Readings that look no further than they read

A reading uses up the front of a text and leaves its rest.  It is local when what
it has read depends on the rest as little as can be: wherever the rest is cut off in
front of a closing parenthesis, the reading stays the same.  Local readings compose,
so a text can be taken out of the parentheses around it and is read as before.
-/

namespace WorkflowAudit.Text

/-- A reading, as a relation of a text to the rest that is left of it, stays the same
when the rest is cut off in front of a closing parenthesis. -/
def ReadsLocally (R : List Char → List Char → Prop) (text after : List Char) : Prop :=
  ∃ used, text = used ++ after ∧
    ∀ front behind, after = front ++ ')' :: behind → R (used ++ front) front

namespace ReadsLocally

variable {R S : List Char → List Char → Prop} {text middle after : List Char}

theorem mono (hlocal : ReadsLocally R text after)
    (hRS : ∀ {text after}, R text after → S text after) :
    ReadsLocally S text after := by
  obtain ⟨used, htext, hcut⟩ := hlocal
  exact ⟨used, htext, fun front behind hafter => hRS (hcut front behind hafter)⟩

theorem comp (hfirst : ReadsLocally R text middle) (hrest : ReadsLocally S middle after) :
    ReadsLocally (fun text after => ∃ middle, R text middle ∧ S middle after) text after := by
  obtain ⟨used, rfl, hfirst⟩ := hfirst
  obtain ⟨more, rfl, hrest⟩ := hrest
  refine ⟨used ++ more, (List.append_assoc ..).symm, ?_⟩
  rintro front behind rfl
  refine ⟨more ++ front, ?_, hrest front behind rfl⟩
  rw [List.append_assoc]
  exact hfirst (more ++ front) behind (List.append_assoc ..).symm

/-- Reading a character, and then the text behind it. -/
theorem cons {c : Char} (hrest : ReadsLocally R text after) :
    ReadsLocally (fun text after => ∃ rest, text = c :: rest ∧ R rest after) (c :: text) after := by
  obtain ⟨used, rfl, hcut⟩ := hrest
  exact ⟨c :: used, rfl, fun front behind hafter => ⟨_, rfl, hcut front behind hafter⟩⟩

/-- Reading nothing. -/
theorem stay (hcut : ∀ front behind, text = front ++ ')' :: behind → R front front) :
    ReadsLocally R text text :=
  ⟨[], rfl, hcut⟩

/-- Reading one character. -/
theorem head {c : Char} (hcut : ∀ rest, R (c :: rest) rest) : ReadsLocally R (c :: text) text :=
  ⟨[c], rfl, fun front _ _ => hcut front⟩

/-- What holds of everything that a text begins with still holds once it has been cut. -/
theorem and_of_front {P : List Char → Prop} (hlocal : ReadsLocally R text after)
    (hP : ∀ cut, cut <+: text → P cut) :
    ReadsLocally (fun text after => R text after ∧ P text) text after := by
  obtain ⟨used, rfl, hcut⟩ := hlocal
  refine ⟨used, rfl, ?_⟩
  rintro front behind rfl
  refine ⟨hcut front behind rfl, hP _ ?_⟩
  rw [← List.append_assoc]
  exact List.prefix_append _ _

theorem and_not_begins {first : List Char} (hlocal : ReadsLocally R text after)
    (hfirst : ¬first <+: text) :
    ReadsLocally (fun text after => R text after ∧ ¬first <+: text) text after :=
  hlocal.and_of_front fun _ hcut hbegins => hfirst (hbegins.trans hcut)

/-- A local reading of a text with a closing parenthesis behind it, which leaves some
text in front of a closing parenthesis: either this is the one behind the text, or
the text itself holds it.  In both cases the text by itself is read alike. -/
theorem at_close {blanks behind : List Char}
    (hlocal : ReadsLocally R (text ++ ')' :: behind) (blanks ++ ')' :: after))
    (hbehind : ')' ∉ behind) :
    (after = behind ∧ R text blanks) ∨
      ∃ rest, after = rest ++ ')' :: behind ∧ R text (blanks ++ ')' :: rest) := by
  obtain ⟨used, htext, hcut⟩ := hlocal
  rw [← List.append_assoc] at htext
  rcases List.append_eq_append_iff.1 htext with ⟨more, hused, hafter⟩ | ⟨more, rfl, hafter⟩
  · cases more with
    | nil =>
        obtain ⟨-, rfl⟩ := List.cons.inj hafter
        rw [List.append_nil] at hused
        exact .inl ⟨rfl, hused ▸ hcut blanks behind rfl⟩
    | cons c more =>
        obtain ⟨-, rfl⟩ := List.cons.inj hafter
        simp at hbehind
  · cases more with
    | nil =>
        obtain ⟨-, rfl⟩ := List.cons.inj hafter
        rw [List.append_nil]
        exact .inl ⟨rfl, hcut blanks after rfl⟩
    | cons c more =>
        obtain ⟨rfl, rfl⟩ := List.cons.inj hafter
        refine .inr ⟨more, rfl, ?_⟩
        rw [List.append_assoc]
        exact hcut (blanks ++ ')' :: more) behind (by simp)

end ReadsLocally

/-- Dropping what satisfies a test looks at nothing behind the first character that
does not. -/
theorem dropWhile_locally (p : Char → Bool) (text : List Char) :
    ReadsLocally (fun text after => text.dropWhile p = after) text (text.dropWhile p) := by
  induction text with
  | nil => exact .stay fun _ _ h => by simp at h
  | cons c rest ih =>
      by_cases hc : p c = true
      · rw [List.dropWhile_cons_of_pos hc]
        refine ih.cons.mono ?_
        rintro _ _ ⟨rest, rfl, hrest⟩
        rw [List.dropWhile_cons_of_pos hc, hrest]
      · rw [List.dropWhile_cons_of_neg hc]
        refine .stay fun front behind hcut => ?_
        cases front with
        | nil => rfl
        | cons d front =>
            obtain ⟨rfl, -⟩ := List.cons.inj hcut
            rw [List.dropWhile_cons_of_neg hc]

/-- What has been taken is taken again from any text that it is put in front of. -/
theorem takeWhile_takeWhile_append (p : Char → Bool) {c : Char} (hc : ¬p c = true)
    (text rest : List Char) : (text.takeWhile p ++ c :: rest).takeWhile p = text.takeWhile p := by
  rw [List.takeWhile_append_of_pos fun _ hmem => List.mem_takeWhile_imp hmem,
    List.takeWhile_cons_of_neg hc, List.append_nil]

theorem splitFirst?_locally {separator : Char} {text before after : List Char}
    (hsplit : splitFirst? separator text = some (before, after)) :
    ReadsLocally (fun text after => splitFirst? separator text = some (before, after)) text
      after := by
  obtain ⟨hbefore, rfl⟩ := splitFirst?_eq_some_iff.1 hsplit
  refine ⟨before ++ [separator], by simp, fun front _ _ => ?_⟩
  exact splitFirst?_eq_some_iff.2 ⟨hbefore, by simp⟩

end WorkflowAudit.Text
