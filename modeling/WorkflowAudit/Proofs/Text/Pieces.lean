import Mathlib.Data.List.DropRight
import Mathlib.Tactic.Common
import WorkflowAudit.Text.Ascii
import WorkflowAudit.Text.Blank
import WorkflowAudit.Text.Pieces

/-!
# Pieces of texts, put together again

Cutting a text at a separator loses nothing: the pieces hold no separator, and
joined with it they are the text.  Trimming stops at the last character that it
keeps, so it never reaches what stands before that character.
-/

namespace WorkflowAudit.Text

theorem drop_length_takeWhile {α : Type} (p : α → Bool) (items : List α) :
    items.drop (items.takeWhile p).length = items.dropWhile p := by
  induction items with
  | nil => rfl
  | cons item items ih =>
      cases hitem : p item <;> simp [hitem, ih]

theorem splitFirst?_eq_none_iff {separator : Char} {text : List Char} :
    splitFirst? separator text = none ↔ separator ∉ text := by
  induction text with
  | nil => simp [splitFirst?]
  | cons c rest ih =>
      by_cases hc : c = separator
      · simp [splitFirst?, hc]
      · simp [splitFirst?, hc, ih, Ne.symm hc]

theorem splitFirst?_eq_some_iff {separator : Char} {text before after : List Char} :
    splitFirst? separator text = some (before, after) ↔
      separator ∉ before ∧ text = before ++ separator :: after := by
  induction text generalizing before with
  | nil => simp [splitFirst?]
  | cons c rest ih =>
      by_cases hc : c = separator
      · subst hc
        cases before with
        | nil => simp [splitFirst?, eq_comm]
        | cons first before =>
            simp only [splitFirst?, if_pos, Option.some.injEq, Prod.mk.injEq, List.mem_cons,
              List.cons_append, List.cons.injEq]
            constructor
            · rintro ⟨hnil, -⟩
              cases hnil
            · rintro ⟨hfirst, heq, -⟩
              exact absurd (.inl heq) hfirst
      · simp only [splitFirst?, if_neg hc, Option.map_eq_some_iff, Prod.exists, Prod.mk.injEq]
        constructor
        · rintro ⟨front, back, hsplit, rfl, rfl⟩
          obtain ⟨hfront, rfl⟩ := ih.1 hsplit
          refine ⟨fun hmem => ?_, rfl⟩
          rcases List.mem_cons.1 hmem with heq | hmem
          · exact hc heq.symm
          · exact hfront hmem
        · rintro ⟨hbefore, heq⟩
          cases before with
          | nil =>
              cases heq
              exact absurd rfl hc
          | cons first before =>
              obtain ⟨rfl, rfl⟩ := List.cons.inj heq
              exact ⟨before, after, ih.2 ⟨fun hmem => hbefore (.tail _ hmem), rfl⟩, rfl, rfl⟩

/-- A text without a separator is kept whole when it is cut there. -/
theorem keeps_of_not_mem {separator : Char} {text : List Char} (htext : separator ∉ text) :
    ∀ c ∈ text, decide (c ≠ separator) = true :=
  fun _ hc => decide_eq_true fun heq => htext (heq ▸ hc)

/-- A text is cut at its first separator, if it has one. -/
theorem splitFirst?_eq_ite (separator : Char) (text : List Char) :
    splitFirst? separator text = if separator ∈ text then
      some (text.takeWhile (· ≠ separator), (text.dropWhile (· ≠ separator)).tail) else none := by
  induction text with
  | nil => rfl
  | cons c rest ih =>
      by_cases hc : c = separator
      · simp [splitFirst?, hc]
      · rw [splitFirst?, if_neg hc, ih, apply_ite (Option.map _)]
        simp [hc, Ne.symm hc]

/-- Two texts that begin with a part without separator agree in that part. -/
theorem append_separator_inj {separator : Char} {before before' after after' : List Char}
    (hbefore : separator ∉ before) (hbefore' : separator ∉ before')
    (heq : before ++ separator :: after = before' ++ separator :: after') :
    before = before' ∧ after = after' := by
  have hleft : splitFirst? separator (before ++ separator :: after) = some (before, after) :=
    splitFirst?_eq_some_iff.2 ⟨hbefore, rfl⟩
  have hright : splitFirst? separator (before' ++ separator :: after') = some (before', after') :=
    splitFirst?_eq_some_iff.2 ⟨hbefore', rfl⟩
  rw [heq, hright] at hleft
  simpa [eq_comm] using hleft

/-- Two texts agree in the part before a separator if these parts hold equally many. -/
theorem append_separator_inj_of_count {separator : Char} {before before' after after' : List Char}
    (hcount : before.count separator = before'.count separator)
    (heq : before ++ separator :: after = before' ++ separator :: after') :
    before = before' ∧ after = after' := by
  rcases List.append_eq_append_iff.1 heq with ⟨rest, rfl, hrest⟩ | ⟨rest, rfl, hrest⟩
  all_goals
    cases rest with
    | nil => simpa [eq_comm] using hrest
    | cons c rest =>
        obtain ⟨rfl, -⟩ := List.cons.inj hrest
        simp at hcount

/-- Two texts that end in a part without separator agree in that part. -/
theorem append_last_inj {separator : Char} {front front' last last' : List Char}
    (hlast : separator ∉ last) (hlast' : separator ∉ last')
    (heq : front ++ separator :: last = front' ++ separator :: last') :
    front = front' ∧ last = last' := by
  have htotal := congrArg (List.count separator) heq
  simp only [List.count_append, List.count_cons_self, List.count_eq_zero_of_not_mem hlast,
    List.count_eq_zero_of_not_mem hlast', Nat.add_right_cancel_iff] at htotal
  exact append_separator_inj_of_count htotal heq

theorem splitOn_ne_nil (separator : Char) (text : List Char) : splitOn separator text ≠ [] := by
  induction text with
  | nil => simp [splitOn]
  | cons c rest ih =>
      simp only [splitOn]
      split
      · simp
      · split <;> simp

theorem splitOn_eq (separator : Char) (text : List Char) :
    splitOn separator text = text.splitOn separator := by
  induction text with
  | nil => rfl
  | cons c rest ih =>
      rw [List.splitOn_eq_splitOnP] at ih ⊢
      rw [List.splitOnP_cons_eq_if_modifyHead, splitOn, ← ih]
      by_cases hc : c = separator
      · simp [hc]
      · rw [if_neg hc, if_neg (by simpa using hc)]
        cases hpieces : splitOn separator rest with
        | nil => exact absurd hpieces (splitOn_ne_nil separator rest)
        | cons piece pieces => rfl

theorem splitOn_of_not_mem {separator : Char} {text : List Char} (htext : separator ∉ text) :
    splitOn separator text = [text] := by
  induction text with
  | nil => rfl
  | cons c rest ih =>
      rw [List.mem_cons, not_or] at htext
      rw [splitOn, if_neg (Ne.symm htext.1), ih htext.2]

theorem not_mem_of_mem_splitOn {separator : Char} {text piece : List Char}
    (hpiece : piece ∈ splitOn separator text) : separator ∉ piece := by
  induction text generalizing piece with
  | nil =>
      rw [splitOn, List.mem_singleton] at hpiece
      simp [hpiece]
  | cons c rest ih =>
      rw [splitOn] at hpiece
      split at hpiece
      · rcases List.mem_cons.1 hpiece with rfl | hpiece
        · exact List.not_mem_nil
        · exact ih hpiece
      · next hc =>
          split at hpiece
          · simpa [List.mem_singleton.1 hpiece] using Ne.symm hc
          · next first pieces hpieces =>
              rcases List.mem_cons.1 hpiece with rfl | hpiece
              · rw [List.mem_cons, not_or]
                exact ⟨Ne.symm hc, ih (hpieces ▸ List.mem_cons_self)⟩
              · exact ih (hpieces ▸ List.mem_cons_of_mem _ hpiece)

theorem splitOn_append_separator {separator : Char} {piece : List Char}
    (hpiece : separator ∉ piece) (rest : List Char) :
    splitOn separator (piece ++ separator :: rest) = piece :: splitOn separator rest := by
  induction piece with
  | nil => rw [List.nil_append, splitOn, if_pos rfl]
  | cons c piece ih =>
      rw [List.mem_cons, not_or] at hpiece
      rw [List.cons_append, splitOn, if_neg (Ne.symm hpiece.1), ih hpiece.2]

theorem joinWith_splitOn (separator : Char) (text : List Char) :
    joinWith [separator] (splitOn separator text) = text := by
  induction text with
  | nil => rfl
  | cons c rest ih =>
      rw [splitOn]
      split
      · next heq =>
          cases hpieces : splitOn separator rest with
          | nil => exact absurd hpieces (splitOn_ne_nil separator rest)
          | cons piece pieces =>
              rw [hpieces] at ih
              rw [joinWith, ih, heq]
              · rfl
              · simp
      · cases hpieces : splitOn separator rest with
        | nil => exact absurd hpieces (splitOn_ne_nil separator rest)
        | cons piece pieces =>
            rw [hpieces] at ih
            cases pieces <;> simp_all [joinWith]

theorem splitOn_append (separator : Char) (front back : List Char) :
    splitOn separator (front ++ separator :: back) =
      splitOn separator front ++ splitOn separator back := by
  induction front with
  | nil => simp [splitOn]
  | cons c front ih =>
      by_cases hc : c = separator
      · simp [splitOn, hc, ih]
      · rw [List.cons_append, splitOn, if_neg hc, ih, splitOn, if_neg hc]
        cases hpieces : splitOn separator front with
        | nil => exact absurd hpieces (splitOn_ne_nil separator front)
        | cons piece pieces => rfl

/-- A text with a separator has a last one. -/
theorem exists_last_piece {separator : Char} {text : List Char} (hmem : separator ∈ text) :
    ∃ front last, text = front ++ separator :: last ∧ separator ∉ last := by
  have hback : splitFirst? separator text.reverse ≠ none := by
    rw [Ne, splitFirst?_eq_none_iff, List.mem_reverse]
    exact not_not_intro hmem
  obtain ⟨⟨last, front⟩, hsplit⟩ := Option.ne_none_iff_exists'.1 hback
  obtain ⟨hlast, hreverse⟩ := splitFirst?_eq_some_iff.1 hsplit
  refine ⟨front.reverse, last.reverse, ?_, by simpa using hlast⟩
  rw [← List.reverse_reverse text, hreverse]
  simp

theorem joinWith_concat (separator : Char) {pieces : List (List Char)} (hpieces : pieces ≠ [])
    (last : List Char) :
    joinWith [separator] (pieces ++ [last]) = joinWith [separator] pieces ++ separator :: last := by
  induction pieces with
  | nil => exact absurd rfl hpieces
  | cons piece pieces ih =>
      cases pieces with
      | nil => simp [joinWith]
      | cons next pieces =>
          have hrest := ih (List.cons_ne_nil _ _)
          simp only [List.cons_append, joinWith] at hrest ⊢
          rw [hrest]
          simp

theorem dropLead?_eq_some_iff {lead text rest : List Char} :
    dropLead? lead text = some rest ↔ text = lead ++ rest := by
  induction lead generalizing text with
  | nil => simp [dropLead?]
  | cons l lead ih =>
      cases text with
      | nil => simp [dropLead?]
      | cons c text =>
          by_cases hc : l = c
          · simp [dropLead?, hc, ih]
          · simp [dropLead?, hc, Ne.symm hc]

theorem isNone_dropLead?_iff {lead text : List Char} :
    (dropLead? lead text).isNone ↔ ¬ lead <+: text := by
  rw [Option.isNone_iff_eq_none, Option.eq_none_iff_forall_ne_some, List.IsPrefix, not_exists]
  exact forall_congr' fun rest => not_congr (dropLead?_eq_some_iff.trans eq_comm)

theorem occursIn_iff {part text : List Char} : occursIn part text = true ↔ part <:+: text := by
  induction text with
  | nil => simp [occursIn]
  | cons c rest ih =>
      have hlead : (dropLead? part (c :: rest)).isSome = true ↔ part <+: c :: rest := by
        rw [← not_iff_not, ← isNone_dropLead?_iff, Bool.not_eq_true, Option.isSome_eq_false_iff]
      rw [occursIn, Bool.or_eq_true, hlead, ih, List.infix_cons_iff]

/-- What does not begin within the front of a text occurs behind it or nowhere. -/
theorem infix_append_iff_of_not_mem {c : Char} {part front : List Char} (hc : c ∉ front)
    (back : List Char) : c :: part <:+: front ++ back ↔ c :: part <:+: back := by
  induction front with
  | nil => rfl
  | cons first front ih =>
      rw [List.mem_cons, not_or] at hc
      rw [List.cons_append, List.infix_cons_iff, ih hc.2, or_iff_right]
      rintro ⟨rest, hrest⟩
      exact hc.1 (List.cons.inj hrest).1

/-- A visible ASCII character is not blank. -/
theorem isBlank_of_visible {c : Char} (hlow : 0x21 ≤ c.toNat) (hhigh : c.toNat ≤ 0x7E) :
    isBlank c = false := by
  simp only [isBlank, Bool.or_eq_false_iff, Bool.and_eq_false_iff, decide_eq_false_iff_not,
    beq_eq_false_iff_ne]
  omega

theorem isBlank_of_isDecimalDigit {c : Char} (hc : isDecimalDigit c = true) :
    isBlank c = false := by
  simp only [isDecimalDigit, Bool.and_eq_true, decide_eq_true_eq, Char.le_def,
    UInt32.le_iff_toNat_le] at hc
  have hval : c.val.toNat = c.toNat := rfl
  apply isBlank_of_visible <;> simp_all <;> omega

theorem isBlank_of_isAsciiLetter {c : Char} (hc : isAsciiLetter c = true) :
    isBlank c = false := by
  simp only [isAsciiLetter, Bool.or_eq_true, Bool.and_eq_true, decide_eq_true_eq, Char.le_def,
    UInt32.le_iff_toNat_le] at hc
  have hval : c.val.toNat = c.toNat := rfl
  apply isBlank_of_visible <;> simp_all <;> omega

theorem trimEndWith_append_keep {drops : Char → Bool} {c : Char} (hc : drops c = false)
    (front back : List Char) :
    trimEndWith drops (front ++ c :: back) = front ++ c :: trimEndWith drops back := by
  simp only [trimEndWith, List.reverse_append, List.reverse_cons, List.append_assoc,
    List.singleton_append, List.dropWhile_append]
  split
  · next hempty => simp_all
  · simp

theorem trimEndWith_of_all {drops : Char → Bool} {text : List Char}
    (htext : ∀ c ∈ text, drops c = false) : trimEndWith drops text = text := by
  rcases List.eq_nil_or_concat text with rfl | ⟨front, c, rfl⟩
  · rfl
  · rw [List.concat_eq_append, trimEndWith_append_keep (htext c (by simp))]
    rfl

theorem trimEndWith_sublist (drops : Char → Bool) (text : List Char) :
    (trimEndWith drops text).Sublist text := by
  rw [trimEndWith, ← List.reverse_sublist, List.reverse_reverse]
  exact (List.dropWhile_suffix _).sublist

theorem mem_of_mem_trim {text : List Char} {c : Char} (hmem : c ∈ trim text) : c ∈ text :=
  (List.dropWhile_suffix _).subset ((trimEndWith_sublist isBlank _).subset hmem)

theorem trim_of_all {text : List Char} (htext : ∀ c ∈ text, isBlank c = false) :
    trim text = text := by
  have hfront : text.dropWhile isBlank = text := by
    cases text with
    | nil => rfl
    | cons c rest => rw [List.dropWhile_cons, htext c List.mem_cons_self, if_neg Bool.false_ne_true]
  rw [trim, hfront, trimEndWith_of_all htext]

/-- Blanks on both sides of a text without blanks are all that is dropped. -/
theorem trim_blanks_around {front text back : List Char} (hfront : ∀ c ∈ front, isBlank c = true)
    (htext : ∀ c ∈ text, isBlank c = false) (hback : ∀ c ∈ back, isBlank c = true) :
    trim (front ++ (text ++ back)) = text := by
  have hend : trimEndWith isBlank (text ++ back) = text := by
    rw [trimEndWith, List.reverse_append,
      List.dropWhile_append_of_pos fun c hc => hback c (List.mem_reverse.1 hc)]
    exact trimEndWith_of_all htext
  rw [trim, List.dropWhile_append_of_pos hfront]
  cases text with
  | nil =>
      rw [List.nil_append, ← List.append_nil back, List.dropWhile_append_of_pos hback]
      rfl
  | cons c rest =>
      rw [List.cons_append, List.dropWhile_cons, htext c List.mem_cons_self,
        if_neg Bool.false_ne_true]
      exact hend

theorem trimEndWith_trimEndWith (drops : Char → Bool) (text : List Char) :
    trimEndWith drops (trimEndWith drops text) = trimEndWith drops text := by
  simp only [trimEndWith, List.reverse_reverse, List.dropWhile_idempotent]

theorem trimEndWith_eq_nil_iff {drops : Char → Bool} {text : List Char} :
    trimEndWith drops text = [] ↔ text.all drops = true := by
  simp [trimEndWith, List.dropWhile_eq_nil_iff]

theorem trim_of_head {c : Char} (hc : isBlank c = false) (rest : List Char) :
    trim (c :: rest) = c :: trimEndWith isBlank rest := by
  rw [trim, List.dropWhile_cons, hc, if_neg Bool.false_ne_true]
  exact trimEndWith_append_keep hc [] rest

/-- Blanks at the end can be dropped before both ends are trimmed. -/
theorem trim_trimEndWith (text : List Char) : trim (trimEndWith isBlank text) = trim text := by
  cases hfront : text.dropWhile isBlank with
  | nil =>
      rw [trimEndWith_eq_nil_iff.2 (by simpa using hfront), trim, trim, hfront]
      rfl
  | cons c rest =>
      have hc : isBlank c = false := by
        have hhead := List.head_dropWhile_not isBlank (l := text) (by simp [hfront])
        simpa [hfront] using hhead
      have hblank : ∀ b ∈ text.takeWhile isBlank, isBlank b = true :=
        fun b hb => List.mem_takeWhile_imp hb
      have htrim : ∀ back, trim (text.takeWhile isBlank ++ c :: back) =
          c :: trimEndWith isBlank back := by
        intro back
        rw [trim, List.dropWhile_append_of_pos hblank, ← trim_of_head hc, trim]
      have htext : text = text.takeWhile isBlank ++ c :: rest := by
        rw [← hfront, List.takeWhile_append_dropWhile]
      rw [htext, trimEndWith_append_keep hc, htrim, htrim, trimEndWith_trimEndWith]

theorem trim_trim (text : List Char) : trim (trim text) = trim text :=
  calc
    trim (trim text) = trim (text.dropWhile isBlank) := trim_trimEndWith _
    _ = trim text := by rw [trim, trim, List.dropWhile_idempotent]

end WorkflowAudit.Text
