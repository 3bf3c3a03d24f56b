import WorkflowAudit.Proofs.Text.Pieces
import WorkflowAudit.Proofs.Unicode.Names
import WorkflowAudit.Regex.Class

/-!
# The shape of escapes

An escape that has been read in plain text has one of six shapes.  What stands in
its braces is digits, a word, or the name of a property; where that property
exists, the name holds no bracket, no backslash and no operator.
-/

namespace WorkflowAudit.Regex

open Text

@[simp]
theorem skipVerbose_false (text : List Char) : skipVerbose false text = text := rfl

/-- The text behind a backslash, what it stands for, and the text after it. -/
inductive Escaped : List Char → Primitive → List Char → Prop
  | single {kind : Char} {found : Primitive} {after : List Char}
      (hkind : kind ∉ ['p', 'P', 'x', 'u', 'U']) : Escaped (kind :: after) found after
  | digits {kind : Char} {digits after : List Char} {found : Primitive}
      (hkind : (kind, digits.length) ∈ [('x', 2), ('u', 4), ('U', 8)])
      (hdigits : ∀ c ∈ digits, isHexDigit c = true) :
      Escaped (kind :: (digits ++ after)) found after
  | bracedDigits {kind : Char} {digits after : List Char} {found : Primitive}
      (hkind : kind ∈ ['x', 'u', 'U']) (hdigits : ∀ c ∈ digits, isHexDigit c = true) :
      Escaped (kind :: '\x7b' :: (digits ++ '\x7d' :: after)) found after
  | bracedProperty {kind : Char} {name after : List Char} {negated : Bool}
      (hkind : kind ∈ ['p', 'P']) (hname : '\x7d' ∉ name) :
      Escaped (kind :: '\x7b' :: (name ++ '\x7d' :: after))
        (.property (propertyQuery name).1 negated) after
  | letterProperty {kind c : Char} {after : List Char} {negated : Bool}
      (hkind : kind ∈ ['p', 'P']) (hc : c ≠ '\x7b') :
      Escaped (kind :: c :: after) (.property (Unicode.named? (String.ofList [c])) negated) after
  | edge {name after : List Char} {edge : WordEdge}
      (hname : ∀ c ∈ name, isEdgeNameChar c = true) :
      Escaped ('b' :: '\x7b' :: (name ++ '\x7d' :: after)) (.word edge) after

/-! ## Reading gives one of the shapes -/

theorem readHexDigits_false {count : Nat} {text digits after : List Char}
    (hread : readHexDigits false count text = .ok (digits, after)) :
    text = digits ++ after ∧ digits.length = count ∧ ∀ c ∈ digits, isHexDigit c = true := by
  induction count generalizing text digits after with
  | zero =>
      cases hread
      simp
  | succ count ih =>
      cases text with
      | nil => cases hread
      | cons c rest =>
          unfold readHexDigits at hread
          split at hread
          · cases hread
          · next hc =>
              cases hrest : readHexDigits false count rest with
              | error fault =>
                  rw [skipVerbose_false, hrest] at hread
                  cases hread
              | ok found =>
                  rw [skipVerbose_false, hrest] at hread
                  cases hread
                  obtain ⟨rfl, hlength, hdigits⟩ := ih hrest
                  refine ⟨rfl, by rw [List.length_cons, hlength], ?_⟩
                  intro d hd
                  rcases List.mem_cons.1 hd with rfl | hd
                  · simpa using hc
                  · exact hdigits d hd

theorem readBraced_false {text inside after : List Char}
    (hread : readBraced false text = .ok (inside, after)) :
    '\x7d' ∉ inside ∧ text = inside ++ '\x7d' :: after := by
  fun_induction readBraced false text generalizing inside after with
  | case1 => cases hread
  | case2 text rest htext =>
      cases hread
      exact ⟨List.not_mem_nil, htext⟩
  | case3 text c rest hc htext inside' after' hrest ih =>
      cases hread
      obtain ⟨hinside, rfl⟩ := ih hrest
      refine ⟨fun hmem => ?_, htext⟩
      rcases List.mem_cons.1 hmem with rfl | hmem
      · exact hc rfl
      · exact hinside hmem
  | case4 => cases hread

theorem escaped_of_readCodePoint (kind : Char) (count : Nat) {text after : List Char}
    {found : Primitive} (hkind : (kind, count) ∈ [('x', 2), ('u', 4), ('U', 8)])
    (hread : readCodePoint false count text = .ok (found, after)) :
    Escaped (kind :: text) found after := by
  have hletter : kind ∈ ['x', 'u', 'U'] := by
    simp only [List.mem_cons, Prod.mk.injEq, List.not_mem_nil, or_false] at hkind ⊢
    tauto
  have hdigits : ∀ {digits rest : List Char}, readCodeDigits false count text = .ok (digits, rest) →
      Escaped (kind :: text) found rest := by
    intro digits rest hdigits
    unfold readCodeDigits at hdigits
    split at hdigits
    · next inside htext =>
        rw [skipVerbose_false] at htext
        subst htext
        cases hbraced : readBraced false inside with
        | error fault => simp [hbraced] at hdigits
        | ok braced =>
            obtain ⟨-, rfl⟩ := readBraced_false hbraced
            simp only [hbraced] at hdigits
            split at hdigits
            · next hhex =>
                cases hdigits
                exact .bracedDigits hletter (List.all_eq_true.1 hhex)
            · cases hdigits
    · obtain ⟨rfl, rfl, hhex⟩ := readHexDigits_false hdigits
      exact .digits hkind hhex
  unfold readCodePoint at hread
  split at hread
  · cases hread
  · next hcode =>
      dsimp only at hread
      split at hread
      · cases hread
        exact hdigits hcode
      · cases hread

theorem escaped_of_readProperty {kind : Char} {negated : Bool} {text after : List Char}
    {found : Primitive} (hkind : kind ∈ ['p', 'P'])
    (hread : readProperty false negated text = .ok (found, after)) :
    Escaped (kind :: text) found after := by
  unfold readProperty at hread
  split at hread
  · cases hread
  · cases hread
  · next inside htext =>
      rw [skipVerbose_false] at htext
      subst htext
      cases hbraced : readBraced false inside with
      | error fault => simp [hbraced] at hread
      | ok braced =>
          obtain ⟨hname, rfl⟩ := readBraced_false hbraced
          simp only [hbraced] at hread
          cases hread
          exact .bracedProperty hkind hname
  · next c rest hbackslash hbrace htext =>
      rw [skipVerbose_false] at htext
      subst htext
      cases hread
      exact .letterProperty hkind fun heq => hbrace (heq ▸ rfl)

theorem readEdgeName_false {text name after : List Char}
    (hread : readEdgeName false text = (name, after)) :
    text = name ++ after ∧ ∀ c ∈ name, isEdgeNameChar c = true := by
  fun_induction readEdgeName false text generalizing name after with
  | case1 =>
      cases hread
      simp
  | case2 c rest hc name' after' hrest ih =>
      cases hread
      obtain ⟨hrest', hname⟩ := ih hrest
      rw [skipVerbose_false] at hrest'
      refine ⟨by rw [hrest', List.cons_append], ?_⟩
      intro d hd
      rcases List.mem_cons.1 hd with rfl | hd
      · exact hc
      · exact hname d hd
  | case3 =>
      cases hread
      simp

theorem escaped_of_readWordEdge {text after : List Char} {found : Primitive}
    (hread : readWordEdge false text = .ok (found, after)) : Escaped ('b' :: text) found after := by
  have hsingle : ∀ {found : Primitive} {after : List Char}, Escaped ('b' :: after) found after :=
    .single (by decide)
  unfold readWordEdge at hread
  split at hread
  · next rest =>
      rw [skipVerbose_false] at hread
      cases rest with
      | nil => cases hread
      | cons c inside =>
          dsimp only at hread
          split at hread
          · cases hread
            exact hsingle
          · next hc =>
              obtain ⟨htext, hname⟩ :=
                readEdgeName_false (Prod.eta (readEdgeName false (c :: inside))).symm
              split at hread
              · next hafter hedge =>
                  cases hread
                  rw [hafter] at htext
                  rw [htext]
                  exact .edge hname
              · cases hread
  · cases hread
    exact hsingle

theorem escaped_of_readEscape {text after : List Char} {found : Primitive}
    (hread : readEscape false text = .ok (found, after)) : Escaped text found after := by
  unfold readEscape at hread
  split at hread
  · cases hread
  · next c rest =>
      by_cases hc : c ∈ ['x', 'u', 'U', 'p', 'P', 'b']
      · simp only [List.mem_cons, List.not_mem_nil, or_false] at hc
        rcases hc with rfl | rfl | rfl | rfl | rfl | rfl
        · exact escaped_of_readCodePoint 'x' 2 (by simp) hread
        · exact escaped_of_readCodePoint 'u' 4 (by simp) hread
        · exact escaped_of_readCodePoint 'U' 8 (by simp) hread
        · exact escaped_of_readProperty (by simp) hread
        · exact escaped_of_readProperty (by simp) hread
        · exact escaped_of_readWordEdge hread
      · have hafter : after = rest := by
          simp only [List.mem_cons, List.not_mem_nil, or_false, not_or] at hc
          obtain ⟨hx, hu, hU, hp, hP, hb⟩ := hc
          simp only [beq_iff_eq, hx, hu, hU, hp, hP, hb, if_false] at hread
          repeat' split at hread
          all_goals first | cases hread; rfl | cases hread
        subst hafter
        exact .single fun hmem => hc (by simp_all)

/-! ## Names of properties that exist -/

/-- A character that means the same to every reader wherever it stands in text. -/
def isPlainChar (c : Char) : Bool := "\\[](|)*+?\x7b\x7d".toList.all (· != c)

theorem isPlainChar_of_isNameChar {c : Char} (hc : Unicode.isNameChar c = true) :
    isPlainChar c = true := by
  have hsigns : "\\[](|)*+?\x7b\x7d".toList.all (fun d => !Unicode.isNameChar d) = true := by
    decide
  rw [isPlainChar, List.all_eq_true]
  intro d hd
  rw [bne_iff_ne]
  rintro rfl
  have hnot := List.all_eq_true.1 hsigns d hd
  rw [hc] at hnot
  cases hnot

theorem eq_of_drop_takeWhile {separator c : Char} {name value : List Char}
    (hdrop : name.drop (name.takeWhile (· != separator)).length = c :: value) :
    c = separator := by
  have hhead := List.head?_dropWhile_not (· != separator) name
  rw [← drop_length_takeWhile, hdrop] at hhead
  simpa using hhead

theorem isPlainChar_of_propertyQuery {name : List Char} {set : CharSet}
    (hfound : (propertyQuery name).1 = some set) : ∀ c ∈ name, isPlainChar c = true := by
  have hsign : ∀ c ∈ ['!', ':', '='], isPlainChar c = true := by
    rw [← List.all_eq_true]
    decide
  have hnames : ∀ {text : List Char}, (∀ c ∈ (String.ofList text).toList,
      Unicode.isNameChar c = true) → ∀ c ∈ text, isPlainChar c = true := by
    intro text htext c hmem
    rw [String.toList_ofList] at htext
    exact isPlainChar_of_isNameChar (htext c hmem)
  -- A name is what stands before the sign, the sign, and what stands behind it.
  have hparts : ∀ (p : Char → Bool) (sign value : List Char),
      name.drop (name.takeWhile p).length = sign ++ value →
      (∀ c ∈ sign, c ∈ ['!', ':', '=']) →
      (∃ set, Unicode.valued? (String.ofList (name.takeWhile p)) (String.ofList value) =
        some set) → ∀ c ∈ name, isPlainChar c = true := by
    rintro p sign value hdrop hchars ⟨_, hvalued⟩ c hmem
    obtain ⟨hproperty, hvalue⟩ := Unicode.isNameChar_of_valued? hvalued
    rw [drop_length_takeWhile] at hdrop
    rw [← List.takeWhile_append_dropWhile (p := p) (l := name), hdrop] at hmem
    rcases List.mem_append.1 hmem with hmem | hmem
    · exact hnames hproperty c hmem
    · rcases List.mem_append.1 hmem with hmem | hmem
      · exact hsign c (hchars c hmem)
      · exact hnames hvalue c hmem
  unfold propertyQuery at hfound
  dsimp only at hfound
  split at hfound
  · next value hdrop => exact hparts _ ['!', '='] value hdrop (by simp) ⟨_, hfound⟩
  · split at hfound
    · next c value hdrop =>
        refine hparts _ [c] value hdrop (fun d hd => ?_) ⟨_, hfound⟩
        rw [List.mem_singleton.1 hd, eq_of_drop_takeWhile hdrop]
        decide
    · next c value hcolon hdrop =>
        refine hparts _ [c] value hdrop (fun d hd => ?_) ⟨_, hfound⟩
        rw [List.mem_singleton.1 hd, eq_of_drop_takeWhile hdrop]
        decide
    · exact hnames (Unicode.isNameChar_of_named? hfound)

end WorkflowAudit.Regex
