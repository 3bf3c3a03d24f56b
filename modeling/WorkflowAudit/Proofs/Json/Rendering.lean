import Mathlib.Data.List.Basic
import WorkflowAudit.Json.Basic
import WorkflowAudit.Proofs.Violation.Fingerprints
import WorkflowAudit.Proofs.Yaml.NumberText

/-!
# Values and their text

A value is determined by its text, and by any text that begins with it: what follows a value
begins with a comma or a line feed, and neither continues a number.  An integer is written
with digits only, and another number with a point or an exponent.
-/

namespace WorkflowAudit.Json

open Text Decimal Yaml

/-! ## Quoted text -/

/-- The character at the beginning of a quoted text, with what is behind it. -/
def unescape? : List Char → Option (Char × List Char)
  | '\\' :: '"' :: rest => some ('"', rest)
  | '\\' :: '\\' :: rest => some ('\\', rest)
  | '\\' :: 'n' :: rest => some ('\n', rest)
  | '\\' :: 'r' :: rest => some ('\r', rest)
  | '\\' :: 't' :: rest => some ('\t', rest)
  | '\\' :: 'b' :: rest => some (Char.ofNat 8, rest)
  | '\\' :: 'f' :: rest => some (Char.ofNat 12, rest)
  | '\\' :: 'u' :: '0' :: '0' :: high :: low :: rest => do
      return (Char.ofNat (16 * (← digitValue? high) + (← digitValue? low)), rest)
  | c :: rest => some (c, rest)
  | [] => none

theorem digitValue?_hexDigitOf {n : Nat} (hn : n < 16) : digitValue? (hexDigitOf n) = some n := by
  have hall : ∀ n < 16, digitValue? (hexDigitOf n) = some n := by decide
  exact hall n hn

theorem unescape?_escapeChar (c : Char) (rest : List Char) :
    unescape? (escapeChar c ++ rest) = some (c, rest) := by
  have hcode : ∀ n, c.toNat = n → Char.ofNat n = c := by
    rintro _ rfl
    exact Char.ofNat_toNat c
  unfold escapeChar
  split_ifs with hquote hbackslash hfeed hreturn htab hback hform hcontrol
  · rw [hquote]; rfl
  · rw [hbackslash]; rfl
  · rw [hfeed]; rfl
  · rw [hreturn]; rfl
  · rw [htab]; rfl
  · rw [← hcode 8 hback]; rfl
  · rw [← hcode 12 hform]; rfl
  · have hhigh := digitValue?_hexDigitOf (show c.toNat / 16 < 16 by omega)
    have hlow := digitValue?_hexDigitOf (show c.toNat % 16 < 16 by omega)
    simp only [List.cons_append, List.nil_append, unescape?, hhigh, hlow]
    simp [hcode _ (Nat.div_add_mod c.toNat 16).symm]
  · simp [unescape?, hbackslash]

theorem escapeChar_append_inj {c d : Char} {s t : List Char}
    (heq : escapeChar c ++ s = escapeChar d ++ t) : c = d ∧ s = t := by
  have hread := congrArg unescape? heq
  rw [unescape?_escapeChar, unescape?_escapeChar] at hread
  exact Prod.mk.inj (Option.some.inj hread)

theorem escapeChar_append_ne_quote (c : Char) (s t : List Char) :
    escapeChar c ++ s ≠ '"' :: t := by
  intro heq
  have hread := congrArg unescape? heq
  rw [unescape?_escapeChar] at hread
  obtain ⟨rfl, -⟩ := Prod.mk.inj (Option.some.inj hread)
  cases heq

theorem quote_append_inj {a b s t : List Char} (heq : quote a ++ s = quote b ++ t) :
    a = b ∧ s = t := by
  simp only [quote, List.cons_append, List.append_assoc, List.nil_append, List.cons.injEq,
    true_and] at heq
  induction a generalizing b with
  | nil =>
      cases b with
      | nil => exact ⟨rfl, (List.cons.inj heq).2⟩
      | cons d b =>
          rw [List.flatMap_cons, List.append_assoc] at heq
          exact absurd heq.symm (escapeChar_append_ne_quote _ _ _)
  | cons c a ih =>
      cases b with
      | nil =>
          rw [List.flatMap_cons, List.append_assoc] at heq
          exact absurd heq (escapeChar_append_ne_quote _ _ _)
      | cons d b =>
          rw [List.flatMap_cons, List.flatMap_cons, List.append_assoc, List.append_assoc] at heq
          obtain ⟨rfl, hrest⟩ := escapeChar_append_inj heq
          obtain ⟨rfl, hst⟩ := ih hrest
          exact ⟨rfl, hst⟩

/-! ## Numbers -/

/-- What cannot continue a number. -/
def EndsValue (text : List Char) : Prop := ∀ c ∈ text.head?, isDecimalMark c = false

theorem marks_append_inj {a b s t : List Char} (ha : ∀ c ∈ a, isDecimalMark c = true)
    (hb : ∀ c ∈ b, isDecimalMark c = true) (hs : EndsValue s) (ht : EndsValue t)
    (heq : a ++ s = b ++ t) : a = b ∧ s = t := by
  have htake : ∀ {a s}, (∀ c ∈ a, isDecimalMark c = true) → EndsValue s →
      (a ++ s).takeWhile isDecimalMark = a := by
    intro a s ha hs
    rw [List.takeWhile_append_of_pos ha]
    cases s with
    | nil => simp
    | cons c s => rw [List.takeWhile_cons_of_neg (by simp [hs c rfl]), List.append_nil]
  have htext := congrArg (List.takeWhile isDecimalMark) heq
  rw [htake ha hs, htake hb ht] at htext
  subst htext
  exact ⟨rfl, List.append_cancel_left heq⟩

theorem toList_negSucc (n : Nat) :
    (toString (Int.negSucc n)).toList = '-' :: (n + 1).repr.toList := by
  have hnegative : toString (Int.negSucc n) = "-" ++ (n + 1).repr := rfl
  rw [hnegative, String.toList_append]
  rfl

theorem toString_ne_nil (n : Int) : (toString n).toList ≠ [] := by
  cases n with
  | ofNat n => exact fun hempty => Nat.toDigits_ne_nil ((Nat.toList_repr).symm.trans hempty)
  | negSucc n => exact toList_negSucc n ▸ List.cons_ne_nil _ _

theorem toString_inj {m n : Int} (heq : (toString m).toList = (toString n).toList) : m = n := by
  have hdigits : ∀ {a b : Nat}, a.repr.toList = b.repr.toList → a = b := by
    intro a b hab
    have hread := congrArg (Nat.ofDigitChars 10 · 0) hab
    simpa [Nat.toList_repr] using hread
  have hsign : ∀ {a : Nat} {text}, a.repr.toList ≠ '-' :: text := fun {a _} hsign =>
    absurd (isDigit_of_mem_repr (n := a) (hsign ▸ List.mem_cons_self)) (by decide)
  cases m with
  | ofNat m =>
      cases n with
      | ofNat n => exact congrArg Int.ofNat (hdigits heq)
      | negSucc n => exact absurd (heq.trans (toList_negSucc n)) hsign
  | negSucc m =>
      rw [toList_negSucc] at heq
      cases n with
      | ofNat n => exact absurd heq.symm hsign
      | negSucc n =>
          rw [toList_negSucc] at heq
          exact congrArg Int.negSucc (Nat.succ.inj (hdigits (List.cons.inj heq).2))

/-- No integer is written like a number with a fraction or an exponent. -/
theorem toString_ne_text (n : Int) (x : Binary64) : (toString n).toList ≠ x.text := by
  intro heq
  have hkind : ∀ {m : Number}, m.text = toString n → m.kind = .real := fun hm =>
    (Number.isNegative_eq_of_text_eq (m := .real x)
      (hm.trans (String.toList_inj.1 (heq.trans String.toList_ofList.symm)))).2.2
  cases n with
  | ofNat n => cases hkind (m := .natural n) rfl
  | negSucc n => cases hkind (m := .minus (n + 1)) rfl

/-! ## Lists between brackets -/

/-- Items between brackets, each on its own line; the text of an item begins with its line. -/
def bracketed {α : Type} (opening closing : Char) (depth : Nat) (itemText : α → List Char) :
    List α → List Char
  | [] => [opening, closing]
  | item :: rest =>
      opening :: itemText item ++ rest.flatMap (',' :: itemText ·) ++ indent depth ++ [closing]

section

variable {α : Type} {itemText : α → List Char} {items items' : List α} {s t : List Char}

/-- Two texts of items that are the same in front of any text that ends a value. -/
def DeterminesItem (itemText : α → List Char) (item item' : α) : Prop :=
  ∀ s t, EndsValue s → EndsValue t → itemText item ++ s = itemText item' ++ t →
    item = item' ∧ s = t

theorem endsValue_items (items : List α) (depth : Nat) (s : List Char) :
    EndsValue (items.flatMap (',' :: itemText ·) ++ (indent depth ++ s)) := by
  cases items with
  | nil => rintro _ ⟨⟩; rfl
  | cons item rest => rintro _ ⟨⟩; rfl

theorem items_append_inj {depth : Nat}
    (hitems : ∀ item ∈ items, ∀ item' ∈ items', DeterminesItem itemText item item')
    (heq : items.flatMap (',' :: itemText ·) ++ (indent depth ++ s) =
      items'.flatMap (',' :: itemText ·) ++ (indent depth ++ t)) : items = items' ∧ s = t := by
  induction items generalizing items' with
  | nil =>
      cases items' with
      | nil => exact ⟨rfl, List.append_cancel_left heq⟩
      | cons item' rest' => cases (List.cons.inj heq).1
  | cons item rest ih =>
      cases items' with
      | nil => cases (List.cons.inj heq).1
      | cons item' rest' =>
          rw [List.flatMap_cons, List.flatMap_cons, List.append_assoc, List.append_assoc,
            List.cons_append, List.cons_append] at heq
          obtain ⟨rfl, hrest⟩ := hitems item List.mem_cons_self item' List.mem_cons_self _ _
            (endsValue_items rest depth s) (endsValue_items rest' depth t) (List.cons.inj heq).2
          obtain ⟨rfl, hst⟩ := ih (fun item hitem item' hitem' =>
            hitems item (.tail _ hitem) item' (.tail _ hitem')) hrest
          exact ⟨rfl, hst⟩

theorem closing_ne_of_line {opening closing : Char} {depth : Nat} (hclosing : closing ≠ '\n')
    (hlines : ∀ item, (itemText item).head? = some '\n') (item : α) (rest : List α) :
    [opening, closing] ++ s ≠ bracketed opening closing depth itemText (item :: rest) ++ t := by
  intro heq
  obtain ⟨line, hline⟩ := List.head?_eq_some_iff.1 (hlines item)
  rw [bracketed, hline] at heq
  exact hclosing (List.cons.inj (List.cons.inj heq).2).1

theorem bracketed_append_inj {opening closing : Char} {depth : Nat}
    (hclosing : closing ≠ '\n') (hlines : ∀ item, (itemText item).head? = some '\n')
    (hitems : ∀ item ∈ items, ∀ item' ∈ items', DeterminesItem itemText item item')
    (heq : bracketed opening closing depth itemText items ++ s =
      bracketed opening closing depth itemText items' ++ t) : items = items' ∧ s = t := by
  have hcons : ∀ (item : α) (rest : List α) (s : List Char),
      ',' :: (bracketed opening closing depth itemText (item :: rest) ++ s).tail =
        (item :: rest).flatMap (',' :: itemText ·) ++ (indent depth ++ closing :: s) := by
    intro item rest s
    simp [bracketed, List.append_assoc]
  cases items with
  | nil =>
      cases items' with
      | nil => exact ⟨rfl, List.append_cancel_left heq⟩
      | cons item' rest' => exact absurd heq (closing_ne_of_line hclosing hlines item' rest')
  | cons item rest =>
      cases items' with
      | nil => exact absurd heq.symm (closing_ne_of_line hclosing hlines item rest)
      | cons item' rest' =>
          -- With a comma in place of the bracket, the first item stands like the others.
          have hbody := congrArg (fun text : List Char => ',' :: text.tail) heq
          rw [hcons, hcons] at hbody
          obtain ⟨hlist, hst⟩ := items_append_inj hitems hbody
          exact ⟨hlist, (List.cons.inj hst).2⟩

end

/-! ## Whole values -/

/-- Values whose numbers out of the integers are in lowest form. -/
inductive Exact : Json → Prop
  | null : Exact .null
  | bool (value : Bool) : Exact (.bool value)
  | int (value : Int) : Exact (.int value)
  | real {value : Binary64} (hvalue : value.IsCanonical) : Exact (.real value)
  | str (value : String) : Exact (.str value)
  | arr {items : List Json} (hitems : ∀ item ∈ items, Exact item) : Exact (.arr items)
  | obj {entries : List (String × Json)} (hentries : ∀ entry ∈ entries, Exact entry.2) :
      Exact (.obj entries)

def itemText (depth : Nat) (item : Json) : List Char :=
  indent (depth + 1) ++ render (depth + 1) item

def entryText (depth : Nat) (entry : String × Json) : List Char :=
  indent (depth + 1) ++ quote entry.1.toList ++ [':', ' '] ++ render (depth + 1) entry.2

theorem renderItems_eq (depth : Nat) (items : List Json) :
    renderItems depth items = items.flatMap (',' :: itemText depth ·) ++ indent depth := by
  induction items with
  | nil => rfl
  | cons item rest ih =>
      simp only [renderItems, ih, List.flatMap_cons, itemText, List.append_assoc, List.cons_append]

theorem renderEntries_eq (depth : Nat) (entries : List (String × Json)) :
    renderEntries depth entries = entries.flatMap (',' :: entryText depth ·) ++ indent depth := by
  induction entries with
  | nil => rfl
  | cons entry rest ih =>
      simp only [renderEntries, ih, List.flatMap_cons, entryText, List.append_assoc,
        List.cons_append]

theorem render_arr (depth : Nat) (items : List Json) :
    render depth (.arr items) = bracketed '[' ']' depth (itemText depth) items := by
  cases items with
  | nil => rfl
  | cons item rest => simp [render, renderItems_eq, bracketed, itemText, List.append_assoc]

theorem render_obj (depth : Nat) (entries : List (String × Json)) :
    render depth (.obj entries) = bracketed '\x7b' '\x7d' depth (entryText depth) entries := by
  cases entries with
  | nil => rfl
  | cons entry rest => simp [render, renderEntries_eq, bracketed, entryText, List.append_assoc]

/-- The kinds of values that their first characters tell apart. -/
inductive Kind where
  | null
  | bool (value : Bool)
  | number
  | text
  | list
  | record
  deriving DecidableEq

def Kind.ofChar (c : Char) : Kind :=
  if c = 'n' then .null
  else if c = 't' then .bool true
  else if c = 'f' then .bool false
  else if c = '"' then .text
  else if c = '[' then .list
  else if c = '\x7b' then .record
  else .number

def kind : Json → Kind
  | .null => .null
  | .bool value => .bool value
  | .int _ | .real _ => .number
  | .str _ => .text
  | .arr _ => .list
  | .obj _ => .record

theorem ofChar_of_isDecimalMark {c : Char} (hc : isDecimalMark c = true) :
    Kind.ofChar c = .number := by
  unfold Kind.ofChar
  split_ifs <;> first | rfl | (subst_vars; cases hc)

theorem exists_render_cons (depth : Nat) (value : Json) :
    ∃ c rest, render depth value = c :: rest ∧ Kind.ofChar c = value.kind := by
  have hnumber : ∀ {text : List Char}, text ≠ [] → (∀ c ∈ text, isDecimalMark c = true) →
      ∃ c rest, text = c :: rest ∧ Kind.ofChar c = .number := by
    intro text hne hmarks
    obtain ⟨c, rest, rfl⟩ := List.exists_cons_of_ne_nil hne
    exact ⟨c, rest, rfl, ofChar_of_isDecimalMark (hmarks c List.mem_cons_self)⟩
  match value with
  | .null | .bool true | .bool false | .str _ => exact ⟨_, _, rfl, rfl⟩
  | .int n => exact hnumber (toString_ne_nil n) isDecimalMark_of_mem_intText
  | .real x => exact hnumber x.text_ne_nil Binary64.isDecimalMark_of_mem_text
  | .arr [] | .arr (_ :: _) => exact ⟨_, _, rfl, rfl⟩
  | .obj [] | .obj (_ :: _) => exact ⟨_, _, rfl, rfl⟩

theorem kind_of_render_append {depth : Nat} {v w : Json} {s t : List Char}
    (heq : render depth v ++ s = render depth w ++ t) : v.kind = w.kind := by
  obtain ⟨c, rest, hv, hc⟩ := exists_render_cons depth v
  obtain ⟨d, rest', hw, hd⟩ := exists_render_cons depth w
  rw [hv, hw] at heq
  rw [← hc, ← hd, (List.cons.inj heq).1]

/-- A value is determined by any text that it begins. -/
theorem render_append_inj {v w : Json} (hv : v.Exact) (hw : w.Exact) {depth : Nat}
    {s t : List Char} (hs : EndsValue s) (ht : EndsValue t)
    (heq : render depth v ++ s = render depth w ++ t) : v = w ∧ s = t := by
  -- Values of one kind have one constructor, which settles the cases off the diagonal.
  have hkind := kind_of_render_append heq
  induction hv generalizing w depth s t with
  | null =>
      cases hw <;> cases hkind
      exact ⟨rfl, List.append_cancel_left heq⟩
  | bool value =>
      cases hw <;> cases hkind
      exact ⟨rfl, List.append_cancel_left heq⟩
  | int n =>
      cases hw with
      | int m =>
          obtain ⟨htext, hst⟩ := marks_append_inj isDecimalMark_of_mem_intText
            isDecimalMark_of_mem_intText hs ht heq
          exact ⟨congrArg Json.int (toString_inj htext), hst⟩
      | @real y _ =>
          obtain ⟨htext, -⟩ := marks_append_inj isDecimalMark_of_mem_intText
            Binary64.isDecimalMark_of_mem_text hs ht heq
          exact absurd htext (toString_ne_text n y)
      | _ => cases hkind
  | @real x hx =>
      cases hw with
      | int m =>
          obtain ⟨htext, -⟩ := marks_append_inj Binary64.isDecimalMark_of_mem_text
            isDecimalMark_of_mem_intText hs ht heq
          exact absurd htext.symm (toString_ne_text m x)
      | real hy =>
          obtain ⟨htext, hst⟩ := marks_append_inj Binary64.isDecimalMark_of_mem_text
            Binary64.isDecimalMark_of_mem_text hs ht heq
          exact ⟨congrArg Json.real (Binary64.text_inj hx hy htext), hst⟩
      | _ => cases hkind
  | str value =>
      cases hw <;> cases hkind
      obtain ⟨hvalue, hst⟩ := quote_append_inj heq
      exact ⟨congrArg Json.str (String.toList_inj.1 hvalue), hst⟩
  | arr _ ih =>
      cases hw with
      | arr hitems' =>
          rw [render_arr, render_arr] at heq
          obtain ⟨rfl, hst⟩ := bracketed_append_inj (by decide) (fun _ => rfl) (by
            intro item hitem item' hitem' s t hs ht heq
            rw [itemText, itemText, List.append_assoc, List.append_assoc] at heq
            have hrest := List.append_cancel_left heq
            exact ih item hitem (hitems' item' hitem') hs ht hrest
              (kind_of_render_append hrest)) heq
          exact ⟨rfl, hst⟩
      | _ => cases hkind
  | obj _ ih =>
      cases hw with
      | obj hentries' =>
          rw [render_obj, render_obj] at heq
          obtain ⟨rfl, hst⟩ := bracketed_append_inj (by decide) (fun _ => rfl) (by
            intro entry hentry entry' hentry' s t hs ht heq
            simp only [entryText, List.append_assoc] at heq
            obtain ⟨hkey, hvalue⟩ := quote_append_inj (List.append_cancel_left heq)
            have hrest := List.append_cancel_left hvalue
            obtain ⟨heq, hst⟩ := ih entry hentry (hentries' entry' hentry') hs ht hrest
              (kind_of_render_append hrest)
            exact ⟨Prod.ext (String.toList_inj.1 hkey) heq, hst⟩) heq
          exact ⟨rfl, hst⟩
      | _ => cases hkind

/-- Different values have different texts. -/
theorem pretty_inj {v w : Json} (hv : v.Exact) (hw : w.Exact) (heq : v.pretty = w.pretty) :
    v = w := by
  have hend : EndsValue [] := fun _ hc => nomatch hc
  exact (render_append_inj hv hw hend hend (congrArg (· ++ []) (String.ofList_injective heq))).1

end WorkflowAudit.Json
