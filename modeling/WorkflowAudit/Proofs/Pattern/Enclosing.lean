import WorkflowAudit.Proofs.Pattern.Lexemes
import WorkflowAudit.Proofs.Regex.Enclosing

/-!
# Patterns in parentheses between anchors

The screen looks no further than to the end of the lexeme at hand.  So it takes a pattern
in parentheses between anchors for what it is by itself, as long as the pattern closes no
group that it has not opened, and does not take the closing parenthesis for its own.
-/

namespace WorkflowAudit.Pattern

open Text Regex

/-! ## Lexemes of a text that is cut off -/

section

variable {read front more : List Char}

theorem length_takeWhile_of_append {p : Char → Bool}
    (hlength : ((read ++ (front ++ more)).takeWhile p).length + 1 = read.length) :
    ((read ++ front).takeWhile p).length + 1 = read.length := by
  rw [List.takeWhile_append] at hlength ⊢
  split at hlength
  · simp only [List.length_append] at hlength
    omega
  · next hstops => rwa [if_neg hstops]

theorem exists_eq_append (start : List Char) {rest tail : List Char}
    (htext : read ++ tail = start ++ rest) (hlength : start.length ≤ read.length) :
    ∃ last, read = start ++ last ∧ rest = last ++ tail := by
  rcases List.append_eq_append_iff.1 htext with ⟨last, rfl, rfl⟩ | ⟨last, rfl, rfl⟩
  · have hnil : last.length = 0 := by
      rw [List.length_append] at hlength
      omega
    obtain rfl := List.length_eq_zero_iff.1 hnil
    exact ⟨[], by simp, rfl⟩
  · exact ⟨last, rfl, rfl⟩

theorem splitFirst?_of_append {separator : Char} {before after : List Char}
    (hsplit : splitFirst? separator (read ++ (front ++ more)) = some (before, after))
    (hlength : before.length < read.length) :
    ∃ last, read = before ++ separator :: last ∧ after = last ++ (front ++ more) ∧
      splitFirst? separator (read ++ front) = some (before, last ++ front) := by
  obtain ⟨hbefore, htext⟩ := splitFirst?_eq_some_iff.1 hsplit
  rw [List.append_cons] at htext
  obtain ⟨last, rfl, rfl⟩ := exists_eq_append _ htext (by simpa using Nat.succ_le_of_lt hlength)
  exact ⟨last, by simp, rfl, splitFirst?_eq_some_iff.2 ⟨hbefore, by simp⟩⟩

theorem escapeExtent_pos {text : List Char} {extra : Nat}
    (hextent : escapeExtent text = .ok extra) : 0 < extra := by
  unfold escapeExtent at hextent
  grind

theorem escapeExtent_of_append
    (hextent : escapeExtent (read ++ (front ++ more)) = .ok read.length) :
    escapeExtent (read ++ front) = .ok read.length := by
  cases read with
  | nil => exact absurd (escapeExtent_pos hextent) (Nat.lt_irrefl 0)
  | cons kind read =>
      cases read with
      | nil =>
          simp only [List.cons_append, List.nil_append, escapeExtent] at hextent ⊢
          cases front with
          | nil => grind
          | cons c front => grind
      | cons c read =>
          by_cases hbraced : c = '\x7b' ∧ ['p', 'P', 'x', 'u', 'U'].contains kind = true
          · obtain ⟨rfl, hkind⟩ := hbraced
            simp only [List.cons_append, escapeExtent, hkind] at hextent ⊢
            split at hextent
            · next name after hsplit =>
                have hlength := Except.ok.inj hextent
                simp only [List.length_cons] at hlength
                obtain ⟨last, -, -, hsplit⟩ := splitFirst?_of_append hsplit (by omega)
                rw [hsplit]
                exact hextent
            · cases hextent
          · simp only [List.cons_append, escapeExtent] at hextent ⊢
            grind

theorem classTail_pos {depth extra : Nat} {text : List Char}
    (hextent : classTail depth text = .ok extra) : 0 < extra := by
  have hmap : ∀ {rest : Except Malformation Nat} {more : Nat}, 0 < more →
      rest.map (· + more) = .ok extra → 0 < extra := by
    intro rest more hmore hrest
    obtain ⟨_, -, rfl⟩ := map_eq_ok hrest
    omega
  unfold classTail at hextent
  split at hextent
  · cases hextent
  · cases hextent
  · exact hmap (by decide) hextent
  · exact hmap (by decide) hextent
  · split at hextent
    · cases hextent
      decide
    · exact hmap (by decide) hextent
  · exact hmap (by decide) hextent

theorem classTail_of_append {depth : Nat}
    (hextent : classTail depth (read ++ (front ++ more)) = .ok read.length) :
    classTail depth (read ++ front) = .ok read.length := by
  generalize htext : read ++ (front ++ more) = text at hextent
  fun_induction classTail depth text generalizing read with
  | case1 => cases hextent
  | case2 => cases hextent
  | case3 depth c rest ih =>
      obtain ⟨_, hrest, hlength⟩ := map_eq_ok hextent
      obtain ⟨last, rfl, rfl⟩ :=
        exists_eq_append ['\\', c] htext (by simp [← hlength])
      obtain rfl : _ = last.length := by simpa using hlength
      simp [classTail, ih rfl hrest, Except.map]
  | case4 depth rest ih =>
      obtain ⟨_, hrest, hlength⟩ := map_eq_ok hextent
      obtain ⟨last, rfl, rfl⟩ := exists_eq_append ['['] htext (by simp [← hlength])
      obtain rfl : _ = last.length := by simpa using hlength
      simp [classTail, ih rfl hrest, Except.map]
  | case5 depth rest hdepth =>
      obtain ⟨last, rfl, rfl⟩ :=
        exists_eq_append [']'] htext (by simp [← Except.ok.inj hextent])
      obtain rfl : last = [] := by simpa using hextent
      simp [classTail, hdepth]
  | case6 depth rest hdepth ih =>
      obtain ⟨_, hrest, hlength⟩ := map_eq_ok hextent
      obtain ⟨last, rfl, rfl⟩ := exists_eq_append [']'] htext (by simp [← hlength])
      obtain rfl : _ = last.length := by simpa using hlength
      simp [classTail, hdepth, ih rfl hrest, Except.map]
  | case7 depth c rest hlast hpair hopen hclose ih =>
      obtain ⟨_, hrest, hlength⟩ := map_eq_ok hextent
      obtain ⟨last, rfl, rfl⟩ := exists_eq_append [c] htext (by simp [← hlength])
      obtain rfl : _ = last.length := by simpa using hlength
      have hslash : c ≠ '\\' := by
        rintro rfl
        rcases htail : last ++ (front ++ more) with _ | ⟨d, tail⟩
        · exact hlast rfl htail
        · exact hpair _ _ rfl htail
      have htail := ih rfl hrest
      rw [List.singleton_append, List.cons_append, classTail, htail]
      · rfl
      · exact fun hc => (hslash hc).elim
      · exact fun _ _ hc => (hslash hc).elim
      · exact hopen
      · exact hclose

theorem classExtent_of_append
    (hextent : classExtent (read ++ (front ++ more)) = .ok read.length) :
    classExtent (read ++ front) = .ok read.length := by
  generalize htext : read ++ (front ++ more) = text at hextent
  unfold classExtent at hextent
  split at hextent
  · obtain ⟨_, hrest, hlength⟩ := map_eq_ok hextent
    obtain ⟨last, rfl, rfl⟩ := exists_eq_append ['^', ']'] htext (by simp [← hlength])
    obtain rfl : _ = last.length := by simpa using hlength
    simp [classExtent, classTail_of_append hrest, Except.map]
  · next hmember =>
    obtain ⟨_, hrest, hlength⟩ := map_eq_ok hextent
    obtain ⟨last, rfl, rfl⟩ := exists_eq_append ['^'] htext (by simp [← hlength])
    obtain rfl : _ = last.length := by simpa using hlength
    rcases last with _ | ⟨c, last⟩
    · exact absurd (classTail_pos hrest) (Nat.lt_irrefl 0)
    · have hc : c ≠ ']' := by
        rintro rfl
        exact hmember _ rfl
      have htail := classTail_of_append hrest
      simp only [List.cons_append, List.length_cons] at htail
      simp [classExtent, hc, htail, Except.map]
  · obtain ⟨_, hrest, hlength⟩ := map_eq_ok hextent
    obtain ⟨last, rfl, rfl⟩ := exists_eq_append [']'] htext (by simp [← hlength])
    obtain rfl : _ = last.length := by simpa using hlength
    simp [classExtent, classTail_of_append hrest, Except.map]
  · next hpair hcaret hmember =>
    subst htext
    rcases read with _ | ⟨c, read⟩
    · exact absurd (classTail_pos hextent) (Nat.lt_irrefl 0)
    · have hc : c ≠ '^' ∧ c ≠ ']' := by
        constructor <;> rintro rfl
        · exact hcaret _ rfl
        · exact hmember _ rfl
      simpa [classExtent, hc] using classTail_of_append hextent

theorem flagGroup?_eq_some_iff {rest flags : List Char} :
    flagGroup? rest = some flags ↔ (∀ c ∈ flags, (isAsciiLetter c || c == '-') = true) ∧
      ∃ after, rest = '?' :: (flags ++ ')' :: after) := by
  constructor
  · intro hflags
    unfold flagGroup? at hflags
    split at hflags
    · next tail =>
        dsimp only at hflags
        split at hflags
        · next hhead =>
            cases hflags
            refine ⟨fun c hc => ?_, ?_⟩
            · simpa using List.mem_takeWhile_imp hc
            · obtain ⟨after, hafter⟩ := List.head?_eq_some_iff.1 hhead
              refine ⟨after, ?_⟩
              rw [← hafter, drop_length_takeWhile, List.takeWhile_append_dropWhile]
        · cases hflags
    · cases hflags
  · rintro ⟨hflags, after, rfl⟩
    simp [flagGroup?, takeWhile_flags hflags ')' (by decide)]

theorem flagGroup?_of_append {flags : List Char} (hlength : flags.length + 2 = read.length)
    (hflags : flagGroup? (read ++ (front ++ more)) = some flags) :
    flagGroup? (read ++ front) = some flags := by
  obtain ⟨hall, after, htext⟩ := flagGroup?_eq_some_iff.1 hflags
  rw [List.append_cons] at htext
  obtain ⟨last, rfl, -⟩ := exists_eq_append ('?' :: (flags ++ [')'])) htext (by simp [← hlength])
  exact flagGroup?_eq_some_iff.2 ⟨hall, last ++ front, by simp⟩

theorem flagGroup?_none_of_append (hflags : flagGroup? (front ++ more) = none) :
    flagGroup? front = none := by
  by_contra hsome
  obtain ⟨flags, hfront⟩ := Option.ne_none_iff_exists'.1 hsome
  obtain ⟨hall, after, rfl⟩ := flagGroup?_eq_some_iff.1 hfront
  have hlonger := flagGroup?_eq_some_iff.2 ⟨hall, after ++ more, rfl⟩
  simp_all

theorem groupOpening_of_append {flags : List Char}
    (hopening : groupOpening (read ++ (front ++ more)) = .ok ⟨read.length, flags⟩) :
    groupOpening (read ++ front) = .ok ⟨read.length, flags⟩ := by
  rcases read with _ | ⟨c, read⟩
  · rcases front with _ | ⟨c, front⟩
    · unfold groupOpening at hopening
      grind [groupOpening]
    · unfold groupOpening at hopening ⊢
      grind
  · by_cases hc : c = '?'
    · subst hc
      simp only [List.cons_append, groupOpening] at hopening ⊢
      split at hopening
      · cases hopening
      · next before after hsplit =>
          have hlength := congrArg GroupOpening.extra (Except.ok.inj hopening)
          simp only [List.length_cons] at hlength
          generalize hmark : (if ((read ++ (front ++ more)).head? = some '<' ||
            (read ++ (front ++ more)).take 2 = ['P', '<'] : Bool) then '>' else ':') = mark
            at hsplit
          obtain ⟨last, rfl, -, hcut⟩ := splitFirst?_of_append hsplit (by omega)
          obtain rfl : last = [] := by simpa using hlength
          -- Whether the group is named shows in the text up to the mark.
          have hother : mark ≠ '<' ∧ mark ≠ 'P' := by grind
          have hnamed : ∀ rest : List Char,
              ((before ++ [mark] ++ rest).head? = some '<' ||
                (before ++ [mark] ++ rest).take 2 = ['P', '<'] : Bool) =
              ((before ++ [mark]).head? = some '<' ||
                (before ++ [mark]).take 2 = ['P', '<'] : Bool) := by
            intro rest
            rcases before with _ | ⟨c, _ | ⟨d, before⟩⟩ <;> simp [hother]
          rw [hnamed] at hmark hopening ⊢
          rw [hmark, hcut]
          exact hopening
    · simp [groupOpening, hc] at hopening

theorem withSuffix_of_append {bound max : Option Nat} {extra : Nat}
    (hsuffix : Quantifier.withSuffix bound extra (read ++ (front ++ more)) =
      ⟨max, extra + read.length⟩) :
    Quantifier.withSuffix bound extra (read ++ front) = ⟨max, extra + read.length⟩ := by
  rcases read with _ | ⟨c, read⟩
  · rw [List.nil_append, List.length_nil] at *
    cases front with
    | nil =>
        unfold Quantifier.withSuffix at *
        grind
    | cons c front =>
        unfold Quantifier.withSuffix at *
        grind
  · unfold Quantifier.withSuffix at *
    grind

theorem read?_of_append {c : Char} {max : Option Nat}
    (hread : Quantifier.read? c (read ++ (front ++ more)) = some ⟨max, read.length⟩) :
    Quantifier.read? c (read ++ front) = some ⟨max, read.length⟩ := by
  unfold Quantifier.read? at hread ⊢
  split at hread
  · next hc =>
      rw [if_pos hc, ← Nat.zero_add read.length]
      rw [← Nat.zero_add read.length] at hread
      rw [withSuffix_of_append (Option.some.inj hread)]
  next hquestion =>
  rw [if_neg hquestion]
  split at hread
  · next hc =>
      rw [if_pos hc, ← Nat.zero_add read.length]
      rw [← Nat.zero_add read.length] at hread
      rw [withSuffix_of_append (Option.some.inj hread)]
  next hop =>
  rw [if_neg hop]
  split at hread
  · cases hread
  · next body following hsplit =>
      obtain ⟨bound, hbound, hsuffix⟩ := Option.map_eq_some_iff.1 hread
      have hlength : body.length + 1 ≤ read.length := by
        have hextra := congrArg Quantifier.extra hsuffix
        unfold Quantifier.withSuffix at hextra
        grind
      obtain ⟨last, rfl, rfl, hcut⟩ := splitFirst?_of_append hsplit hlength
      rw [hcut]
      simp only [hbound, Option.map_some, Option.some.injEq]
      have hsum : (body ++ '\x7d' :: last).length = body.length + 1 + last.length := by
        simp
        omega
      rw [hsum] at hsuffix ⊢
      exact withSuffix_of_append hsuffix

theorem read?_none_of_append {c : Char} (hread : Quantifier.read? c (front ++ more) = none) :
    Quantifier.read? c front = none := by
  unfold Quantifier.read? at hread ⊢
  split at hread
  · cases hread
  next hquestion =>
  rw [if_neg hquestion]
  split at hread
  · cases hread
  next hop =>
  rw [if_neg hop]
  cases hsplit : splitFirst? '}' front with
  | none => rfl
  | some split =>
      obtain ⟨body, after⟩ := split
      obtain ⟨hbody, rfl⟩ := splitFirst?_eq_some_iff.1 hsplit
      have hlonger : splitFirst? '}' (body ++ '}' :: after ++ more) = some (body, after ++ more) :=
        splitFirst?_eq_some_iff.2 ⟨hbody, by simp⟩
      rw [hlonger] at hread
      rw [Option.map_eq_none_iff] at hread ⊢
      exact hread

theorem mapError_bind_eq_ok {α β : Type} {x : Except Malformation α}
    {f : α → Except Objection β} {b : β} :
    (x.mapError Objection.malformed >>= f) = .ok b ↔ ∃ a, x = .ok a ∧ f a = .ok b := by
  cases x <;> simp [Except.mapError, bind, Except.bind]

/-- A choice that does not look at the text ends alike where each of its branches does. -/
theorem ite_eq_of_imp {α : Type} {condition : Prop} [Decidable condition] {a a' b b' result : α}
    (hthen : a = result → a' = result) (helse : b = result → b' = result)
    (heq : (if condition then a else b) = result) : (if condition then a' else b') = result := by
  split at heq
  · next hc => exact (if_pos hc).trans (hthen heq)
  · next hc => exact (if_neg hc).trans (helse heq)

section

variable {t next : ScreenState} {c : Char}

theorem commentStep_of_append
    (hstep : (.ok (t, ((read ++ (front ++ more)).takeWhile (· ≠ '\n')).length + 1) :
      Except Objection (ScreenState × Nat)) = .ok (next, read.length)) :
    (.ok (t, ((read ++ front).takeWhile (· ≠ '\n')).length + 1) :
      Except Objection (ScreenState × Nat)) = .ok (next, read.length) := by
  obtain ⟨hnext, hlength⟩ := Prod.mk.inj (Except.ok.inj hstep)
  rw [hnext, length_takeWhile_of_append hlength]

/-- A lexeme of known extent, an escape or a class. -/
theorem extentStep_of_append {extent : List Char → Except Malformation Nat}
    (hextent : extent (read ++ (front ++ more)) = .ok read.length →
      extent (read ++ front) = .ok read.length)
    (hstep : (do
      let extra ← (extent (read ++ (front ++ more))).mapError .malformed
      return (t.push (c :: (read ++ (front ++ more)).take extra), extra) :
      Except Objection (ScreenState × Nat)) = .ok (next, read.length)) :
    (do
      let extra ← (extent (read ++ front)).mapError .malformed
      return (t.push (c :: (read ++ front).take extra), extra) :
      Except Objection (ScreenState × Nat)) = .ok (next, read.length) := by
  obtain ⟨extra, hread, heq⟩ := mapError_bind_eq_ok.1 hstep
  cases heq
  exact mapError_bind_eq_ok.2 ⟨_, hextent hread, by simp [pure, Except.pure]⟩

theorem openingStep_of_append
    (hstep : (match flagGroup? (read ++ (front ++ more)) with
      | some flags => .ok (t.setVerbose flags, flags.length + 2)
      | none => do
          let opening ← (groupOpening (read ++ (front ++ more))).mapError .malformed
          return (t.openGroup opening.flags, opening.extra) :
      Except Objection (ScreenState × Nat)) = .ok (next, read.length)) :
    (match flagGroup? (read ++ front) with
      | some flags => .ok (t.setVerbose flags, flags.length + 2)
      | none => do
          let opening ← (groupOpening (read ++ front)).mapError .malformed
          return (t.openGroup opening.flags, opening.extra) :
      Except Objection (ScreenState × Nat)) = .ok (next, read.length) := by
  split at hstep
  · next flags hflags =>
      obtain ⟨rfl, hlength⟩ := Prod.mk.inj (Except.ok.inj hstep)
      rw [flagGroup?_of_append hlength hflags]
      exact hstep
  · next hnone =>
      obtain ⟨⟨extra, flags⟩, hopening, heq⟩ := mapError_bind_eq_ok.1 hstep
      cases heq
      rw [← List.append_assoc] at hnone
      rw [flagGroup?_none_of_append hnone]
      exact mapError_bind_eq_ok.2 ⟨_, groupOpening_of_append hopening, rfl⟩

theorem operatorStep_of_append
    (hstep : (match Quantifier.read? c (read ++ (front ++ more)) with
      | none => .ok (t.push [c], 0)
      | some q =>
          match t.hazard? q with
          | some hazard => .error (.hazard hazard)
          | none =>
              .ok (t.repeatLast q (c :: (read ++ (front ++ more)).take q.extra), q.extra) :
      Except Objection (ScreenState × Nat)) = .ok (next, read.length)) :
    (match Quantifier.read? c (read ++ front) with
      | none => .ok (t.push [c], 0)
      | some q =>
          match t.hazard? q with
          | some hazard => .error (.hazard hazard)
          | none => .ok (t.repeatLast q (c :: (read ++ front).take q.extra), q.extra) :
      Except Objection (ScreenState × Nat)) = .ok (next, read.length) := by
  split at hstep
  · next hnone =>
      obtain ⟨rfl, hlength⟩ := Prod.mk.inj (Except.ok.inj hstep)
      obtain rfl := List.length_eq_zero_iff.1 hlength.symm
      rw [List.nil_append] at hnone ⊢
      rw [read?_none_of_append hnone]
      rfl
  · next q hq =>
      split at hstep
      · cases hstep
      · next hhazard =>
          obtain ⟨max, extra⟩ := q
          obtain ⟨rfl, rfl⟩ := Prod.mk.inj (Except.ok.inj hstep)
          rw [read?_of_append hq]
          simp [hhazard]

/-- What a step takes does not depend on the text behind it. -/
theorem screenStep_of_append
    (hstep : screenStep t c (read ++ (front ++ more)) = .ok (next, read.length)) :
    screenStep t c (read ++ front) = .ok (next, read.length) := by
  unfold screenStep at hstep ⊢
  exact ite_eq_of_imp id (ite_eq_of_imp commentStep_of_append
    (ite_eq_of_imp (extentStep_of_append escapeExtent_of_append)
      (ite_eq_of_imp (extentStep_of_append classExtent_of_append)
        (ite_eq_of_imp openingStep_of_append (ite_eq_of_imp id (ite_eq_of_imp id
          (ite_eq_of_imp operatorStep_of_append id))))))) hstep

end

end

/-! ## Places of the screen -/

/-- The places that the screen comes to: what it has read, and the text ahead. -/
inductive Reaches : ScreenState → List Char → ScreenState → List Char → Prop
  | here {t : ScreenState} {text : List Char} : Reaches t text t text
  | later {t next place : ScreenState} {c : Char} {rest ahead : List Char} {extra : Nat}
      (hstep : screenStep t c rest = .ok (next, extra))
      (hlater : Reaches next (rest.drop extra) place ahead) : Reaches t (c :: rest) place ahead

theorem Reaches.next {t place next : ScreenState} {c : Char} {text rest : List Char} {extra : Nat}
    (hreaches : Reaches t text place (c :: rest))
    (hstep : screenStep place c rest = .ok (next, extra)) :
    Reaches t text next (rest.drop extra) := by
  generalize hahead : c :: rest = ahead at hreaches
  induction hreaches with
  | here =>
      subst hahead
      exact .later hstep .here
  | later hstep' _ ih => exact .later hstep' (ih hstep hahead)

theorem screenStep_locally {t next : ScreenState} {c : Char} {rest : List Char} {extra : Nat}
    (hstep : screenStep t c rest = .ok (next, extra)) :
    ReadsLocally (fun text after => ∃ rest extra, text = c :: rest ∧
      screenStep t c rest = .ok (next, extra) ∧ rest.drop extra = after) (c :: rest)
      (rest.drop extra) := by
  -- Where text is left, the lexeme ends within the text.
  refine ⟨c :: rest.take extra, by simp, fun front behind hcut => ?_⟩
  have hextra : (rest.take extra).length = extra := by
    have hdrop := congrArg List.length hcut
    simp only [List.length_drop, List.length_append, List.length_cons] at hdrop
    rw [List.length_take]
    omega
  have hrest : screenStep t c (rest.take extra ++ (front ++ ')' :: behind)) =
      .ok (next, (rest.take extra).length) := by
    rw [← hcut, List.take_append_drop, hextra, hstep]
  exact ⟨_, _, rfl, screenStep_of_append hrest, by simp⟩

theorem Reaches.locally {t place : ScreenState} {text ahead : List Char}
    (hreaches : Reaches t text place ahead) :
    ReadsLocally (fun text ahead => Reaches t text place ahead) text ahead := by
  induction hreaches with
  | here => exact .stay fun _ _ _ => .here
  | later hstep _ ih =>
      refine ((screenStep_locally hstep).comp ih).mono ?_
      rintro _ ahead ⟨_, ⟨rest, extra, rfl, hstep, rfl⟩, hlater⟩
      exact .later hstep hlater

theorem screenFrom_of_reaches {t place : ScreenState} {text ahead : List Char}
    (hreaches : Reaches t text place ahead) : screenFrom t text = screenFrom place ahead := by
  induction hreaches with
  | here => rfl
  | later hstep _ ih => rw [screenFrom_of_screenStep hstep, ih]

theorem exists_reaches_of_screenFrom_malformed {t : ScreenState} {text : List Char}
    (hscreen : screenFrom t text = .error (.malformed .unbalancedClose)) :
    ∃ place c rest, Reaches t text place (c :: rest) ∧
      screenStep place c rest = .error (.malformed .unbalancedClose) := by
  fun_induction screenFrom t text with
  | case1 => cases hscreen
  | case2 => cases hscreen
  | case3 t c rest objection hstep =>
      cases hscreen
      exact ⟨t, c, rest, .here, hstep⟩
  | case4 t c rest next extra hstep ih =>
      obtain ⟨place, d, behind, hreaches, hend⟩ := ih hscreen
      exact ⟨place, d, behind, .later hstep hreaches, hend⟩

theorem mapError_bind_eq_error {α β : Type} {x : Except Malformation α}
    {f : α → Except Objection β} {objection : Objection}
    (herror : (x.mapError Objection.malformed >>= f) = .error objection) :
    (∃ fault, x = .error fault ∧ objection = .malformed fault) ∨
      ∃ a, x = .ok a ∧ f a = .error objection := by
  cases x with
  | error fault => exact .inl ⟨fault, rfl, (Except.error.inj herror).symm⟩
  | ok a => exact .inr ⟨a, rfl, herror⟩

theorem escapeExtent_ne_unbalanced (text : List Char) :
    escapeExtent text ≠ .error .unbalancedClose := by
  unfold escapeExtent
  grind

theorem map_ne_error {α β ε : Type} {f : α → β} {x : Except ε α} {fault : ε}
    (hx : x ≠ .error fault) : x.map f ≠ .error fault := by
  cases x with
  | error other => simpa [Except.map] using hx
  | ok a => simp [Except.map]

theorem classTail_ne_unbalanced (depth : Nat) (text : List Char) :
    classTail depth text ≠ .error .unbalancedClose := by
  fun_induction classTail depth text with
  | case1 => simp
  | case2 => simp
  | case5 => simp
  | _ => exact map_ne_error ‹_›

theorem classExtent_ne_unbalanced (text : List Char) :
    classExtent text ≠ .error .unbalancedClose := by
  unfold classExtent
  split <;> grind [map_ne_error, classTail_ne_unbalanced]

theorem groupOpening_ne_unbalanced (text : List Char) :
    groupOpening text ≠ .error .unbalancedClose := by
  unfold groupOpening
  grind

/-- Only a parenthesis that closes no open group is refused as unbalanced. -/
theorem eq_close_of_screenStep_eq_unbalanced {t : ScreenState} {c : Char} {rest : List Char}
    (hstep : screenStep t c rest = .error (.malformed .unbalancedClose)) :
    c = ')' ∧ t.outer = [] := by
  unfold screenStep at hstep
  split at hstep
  · cases hstep
  split at hstep
  · cases hstep
  split at hstep
  · rcases mapError_bind_eq_error hstep with ⟨_, hextent, heq⟩ | ⟨_, -, hok⟩
    · cases heq
      exact (escapeExtent_ne_unbalanced rest hextent).elim
    · cases hok
  split at hstep
  · rcases mapError_bind_eq_error hstep with ⟨_, hextent, heq⟩ | ⟨_, -, hok⟩
    · cases heq
      exact (classExtent_ne_unbalanced rest hextent).elim
    · cases hok
  split at hstep
  · split at hstep
    · cases hstep
    · rcases mapError_bind_eq_error hstep with ⟨_, hopening, heq⟩ | ⟨_, -, hok⟩
      · cases heq
        exact (groupOpening_ne_unbalanced rest hopening).elim
      · cases hok
  split at hstep
  · next hclose =>
      refine ⟨hclose, ?_⟩
      cases houter : t.outer with
      | nil => rfl
      | cons parent outer =>
          rcases mapError_bind_eq_error hstep with ⟨_, hclosed, -⟩ | ⟨_, -, hok⟩
          · simp [ScreenState.closeGroup, houter] at hclosed
          · cases hok
  split at hstep
  · cases hstep
  split at hstep
  · grind
  · cases hstep

theorem screenStep_unopened {t : ScreenState} (houter : t.outer = []) (rest : List Char) :
    screenStep t ')' rest = .error (.malformed .unbalancedClose) := by
  have hblank : isBlank ')' = false := by decide
  simp [screenStep, hblank, ScreenState.closeGroup, houter, Except.mapError, bind, Except.bind]

/-! ## Screens within a group -/

namespace ScreenState

/-- The screen with one more group around all that it has read. -/
def within (t : ScreenState) (base : Frame) : ScreenState := { t with outer := t.outer ++ [base] }

/-- What closing the group around all that has been read leaves. -/
def closeInto (t : ScreenState) (base : Frame) : ScreenState :=
  let branches := t.frame.branches ++ [t.frame.current]
  { frame := { base with
      current := base.current ++ ('(' :: joinWith ['|'] branches ++ [')'])
      unbounded := base.unbounded || t.frame.unbounded }
    lastGroup := some ⟨t.frame.unbounded, overlapping branches⟩ }

theorem closeGroup_within {t : ScreenState} (houter : t.outer ≠ []) (base : Frame) :
    (t.within base).closeGroup = t.closeGroup.map (·.within base) := by
  obtain ⟨parent, outer, houter⟩ := List.exists_cons_of_ne_nil houter
  simp only [closeGroup, within, houter, List.cons_append]
  rfl

end ScreenState

/-- A step within a group, unless it closes that group, is the step without it. -/
theorem screenStep_within {t : ScreenState} {c : Char} {rest : List Char}
    (hopen : ¬(c = ')' ∧ t.outer = [])) (base : Frame) :
    screenStep (t.within base) c rest =
      (screenStep t c rest).map fun (next, extra) => (next.within base, extra) := by
  have hframe : (t.within base).frame = t.frame := rfl
  have hhazard : ∀ q, (t.within base).hazard? q = t.hazard? q := fun _ => rfl
  unfold screenStep
  simp only [hframe, hhazard]
  split
  · rfl
  split
  · rfl
  split
  · cases escapeExtent rest <;> rfl
  split
  · cases classExtent rest <;> rfl
  split
  · cases flagGroup? rest with
    | some flags => rfl
    | none => cases groupOpening rest <;> rfl
  split
  · next hclose =>
      rw [ScreenState.closeGroup_within (fun houter => hopen ⟨hclose, houter⟩)]
      cases t.closeGroup <;> rfl
  split
  · rfl
  split
  · cases Quantifier.read? c rest with
    | none => rfl
    | some q =>
        dsimp only
        cases t.hazard? q <;> rfl
  · rfl

theorem screenStep_close_within {t : ScreenState} (houter : t.outer = []) (base : Frame)
    (rest : List Char) : screenStep (t.within base) ')' rest = .ok (t.closeInto base, 0) := by
  have hblank : isBlank ')' = false := by decide
  have hclosed : (t.within base).closeGroup = .ok (t.closeInto base) := by
    simp only [ScreenState.closeGroup, ScreenState.within, houter, List.nil_append]
    rfl
  simp [screenStep, hblank, hclosed, Except.mapError]

/-- A screening goes on alike within a group. -/
theorem Reaches.within {t place : ScreenState} {text ahead : List Char}
    (hreaches : Reaches t text place ahead) (base : Frame) :
    Reaches (t.within base) text (place.within base) ahead := by
  induction hreaches with
  | here => exact .here
  | @later t next place c rest ahead extra hstep _ ih =>
      refine .later ?_ ih
      have hopen : ¬(c = ')' ∧ t.outer = []) := by
        rintro ⟨rfl, houter⟩
        simp [screenStep_unopened houter] at hstep
      rw [screenStep_within hopen, hstep]
      rfl

/-- A screening within a group that finds nothing open has closed that group: up to
there it is the screening without it. -/
theorem exists_close_of_screenFrom_within {t final : ScreenState} {text : List Char} {base : Frame}
    (hscreen : screenFrom (t.within base) text = .ok final) :
    ∃ place after, Reaches t text place (')' :: after) ∧ place.outer = [] ∧
      screenFrom (place.closeInto base) after = .ok final := by
  -- The first parenthesis that finds no group of `t` open closes the group around it.
  generalize ht : t.within base = inner at hscreen
  fun_induction screenFrom inner text generalizing t with
  | case1 inner houter =>
      simp [← ht, ScreenState.within] at houter
  | case2 => cases hscreen
  | case3 => cases hscreen
  | case4 inner c rest next extra hstep ih =>
      subst ht
      by_cases hclose : c = ')' ∧ t.outer = []
      · obtain ⟨rfl, houter⟩ := hclose
        rw [screenStep_close_within houter] at hstep
        cases hstep
        exact ⟨t, rest, .here, houter, hscreen⟩
      · rw [screenStep_within hclose] at hstep
        obtain ⟨⟨next', extra'⟩, hstep', heq⟩ := map_eq_ok hstep
        cases heq
        obtain ⟨place, after, hreaches, hend⟩ := ih rfl hscreen
        exact ⟨place, after, .later hstep' hreaches, hend⟩

/-! ## Patterns in parentheses between anchors -/

/-- The screen refuses a text where it comes to a closing parenthesis and no group is
open. -/
theorem Reaches.screenFrom_eq_unbalanced {t place : ScreenState} {text after : List Char}
    (hreaches : Reaches t text place (')' :: after)) (houter : place.outer = []) :
    screenFrom t text = .error (.malformed .unbalancedClose) := by
  rw [screenFrom_of_reaches hreaches, screenFrom, screenStep_unopened houter]

/-- The screen, where it comes to a closing parenthesis and no group is open, either
has come to the one behind the text, or has refused the text itself. -/
theorem Reaches.at_close {t place : ScreenState} {text after : List Char}
    (hreaches : Reaches t (text ++ [')', '$']) place (')' :: after)) (houter : place.outer = []) :
    (after = ['$'] ∧ screenFrom t text = .ok place) ∨
      screenFrom t text = .error (.malformed .unbalancedClose) := by
  have hlocal : ReadsLocally _ (text ++ ')' :: ['$']) ([] ++ ')' :: after) := hreaches.locally
  rcases hlocal.at_close (by simp) with ⟨hafter, hreaches⟩ | ⟨rest, -, hreaches⟩
  · left
    refine ⟨hafter, ?_⟩
    rw [screenFrom_of_reaches hreaches, screenFrom, houter]
    rfl
  · exact .inr (hreaches.screenFrom_eq_unbalanced houter)

/-- The frame around a pattern that is to match all of a text. -/
def anchored : Frame := { current := ['^'] }

theorem screenFrom_anchored (text : List Char) :
    screenFrom {} ('^' :: '(' :: '?' :: ':' :: text) =
      screenFrom (({} : ScreenState).within anchored) text := by
  have hcaret : screenStep {} '^' ('(' :: '?' :: ':' :: text) =
      .ok (({} : ScreenState).push ['^'], 0) := rfl
  have hopen : screenStep (({} : ScreenState).push ['^']) '(' ('?' :: ':' :: text) =
      .ok (({} : ScreenState).within anchored, 2) := rfl
  exact (screenFrom_of_screenStep hcaret).trans (screenFrom_of_screenStep hopen)

theorem screenFrom_closeInto_anchored (place : ScreenState) :
    ∃ final, screenFrom (place.closeInto anchored) ['$'] = .ok final := by
  have hstep : screenStep (place.closeInto anchored) '$' [] =
      .ok ((place.closeInto anchored).push ['$'], 0) := rfl
  rw [screenFrom_of_screenStep hstep, List.drop_nil, screenFrom]
  exact ⟨_, rfl⟩

/-- What the screen lets pass in parentheses between anchors it lets pass by itself. -/
theorem exists_of_screenFrom_anchored {text : List Char} {final : ScreenState}
    (hopens : screenFrom {} text ≠ .error (.malformed .unbalancedClose))
    (hscreen : screenFrom (({} : ScreenState).within anchored) (text ++ [')', '$']) = .ok final) :
    ∃ place, screenFrom {} text = .ok place := by
  obtain ⟨place, after, hreaches, houter, -⟩ := exists_close_of_screenFrom_within hscreen
  exact ⟨place, ((hreaches.at_close houter).resolve_right hopens).2⟩

/-- What the screen lets pass by itself it lets pass in parentheses between anchors,
unless it takes the closing parenthesis for a part of the text. -/
theorem exists_screenFrom_anchored {text : List Char} {place : ScreenState}
    (hends : screenFrom {} (text ++ [')', '$']) = .error (.malformed .unbalancedClose))
    (hscreen : screenFrom {} text = .ok place) :
    ∃ final, screenFrom (({} : ScreenState).within anchored) (text ++ [')', '$']) = .ok final := by
  obtain ⟨place', c, after, hreaches, hstep⟩ := exists_reaches_of_screenFrom_malformed hends
  obtain ⟨rfl, houter⟩ := eq_close_of_screenStep_eq_unbalanced hstep
  obtain ⟨rfl, -⟩ := (hreaches.at_close houter).resolve_right (by simp [hscreen])
  rw [screenFrom_of_reaches ((hreaches.within anchored).next
    (screenStep_close_within houter anchored ['$']))]
  exact screenFrom_closeInto_anchored place'

theorem checkSafety_eq_ok_iff {pattern : String} :
    checkSafety pattern = .ok () ↔ pattern.utf8ByteSize ≤ maxLength ∧
      ∃ final, screenFrom {} pattern.toList = .ok final := by
  unfold checkSafety
  grind

theorem checkSafety_eq_unbalanced_iff {pattern : String} :
    checkSafety pattern = .error (.malformed pattern .unbalancedClose) ↔
      pattern.utf8ByteSize ≤ maxLength ∧
        screenFrom {} pattern.toList = .error (.malformed .unbalancedClose) := by
  unfold checkSafety
  grind

/-- A pattern that passes the screen in parentheses between anchors passes it by itself,
unless it closes a group that it has not opened. -/
theorem checkSafety_of_anchored {pattern : String}
    (hopens : checkSafety pattern ≠ .error (.malformed pattern .unbalancedClose))
    (hsafe : checkSafety s!"^(?:{pattern})$" = .ok ()) : checkSafety pattern = .ok () := by
  obtain ⟨hshort, final, hscreen⟩ := checkSafety_eq_ok_iff.1 hsafe
  have hlength : pattern.utf8ByteSize ≤ maxLength := by
    change ("^(?:" ++ pattern ++ ")$").utf8ByteSize ≤ maxLength at hshort
    rw [String.utf8ByteSize_append, String.utf8ByteSize_append] at hshort
    omega
  rw [Ne, checkSafety_eq_unbalanced_iff] at hopens
  rw [Regex.toList_anchored, screenFrom_anchored] at hscreen
  exact checkSafety_eq_ok_iff.2
    ⟨hlength, exists_of_screenFrom_anchored (fun hopen => hopens ⟨hlength, hopen⟩) hscreen⟩

/-- A pattern that passes the screen in parentheses between anchors leaves the closing
parenthesis alone. -/
theorem checkSafety_eq_unbalanced_of_anchored {pattern : String}
    (hsafe : checkSafety s!"^(?:{pattern})$" = .ok ()) :
    checkSafety (pattern ++ ")$") = .error (.malformed (pattern ++ ")$") .unbalancedClose) := by
  obtain ⟨hshort, final, hscreen⟩ := checkSafety_eq_ok_iff.1 hsafe
  rw [Regex.toList_anchored, screenFrom_anchored] at hscreen
  obtain ⟨place, after, hreaches, houter, -⟩ := exists_close_of_screenFrom_within hscreen
  refine checkSafety_eq_unbalanced_iff.2 ⟨?_, ?_⟩
  · change ("^(?:" ++ pattern ++ ")$").utf8ByteSize ≤ maxLength at hshort
    rw [String.utf8ByteSize_append, String.utf8ByteSize_append] at hshort
    rw [String.utf8ByteSize_append]
    omega
  · rw [String.toList_append]
    exact hreaches.screenFrom_eq_unbalanced houter

/-- A pattern that passes the screen passes it in parentheses between anchors, unless it
takes the closing parenthesis for its own or the parentheses make it too long. -/
theorem checkSafety_anchored_of_checkSafety {pattern : String}
    (hsafe : checkSafety pattern = .ok ())
    (hends : checkSafety (pattern ++ ")$") = .error (.malformed (pattern ++ ")$") .unbalancedClose))
    (hshort : (s!"^(?:{pattern})$").utf8ByteSize ≤ maxLength) :
    checkSafety s!"^(?:{pattern})$" = .ok () := by
  obtain ⟨-, place, hscreen⟩ := checkSafety_eq_ok_iff.1 hsafe
  obtain ⟨-, hunbalanced⟩ := checkSafety_eq_unbalanced_iff.1 hends
  rw [String.toList_append] at hunbalanced
  obtain ⟨final, hfinal⟩ := exists_screenFrom_anchored hunbalanced hscreen
  rw [← screenFrom_anchored, ← Regex.toList_anchored] at hfinal
  exact checkSafety_eq_ok_iff.2 ⟨hshort, final, hfinal⟩

end WorkflowAudit.Pattern
