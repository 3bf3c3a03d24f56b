import WorkflowAudit.Proofs.Text.Pieces
import WorkflowAudit.Reference

/-!
# Image references

An image is cut at its first `@`, and in front of that at the last colon behind the last
slash.  It is read whenever something is left for a name.  Put together again the parts are
the text that was read, which is the given one without blanks around it and without one
scheme in front.
-/

namespace WorkflowAudit

open Text

/-! ## One scheme in front -/

namespace Text

theorem dropLead_append (lead text : List Char) : dropLead lead (lead ++ text) = text := by
  rw [dropLead, dropLead?_eq_some_iff.2 rfl, Option.getD_some]

theorem dropLead_of_not_prefix {lead text : List Char} (hlead : ¬lead <+: text) :
    dropLead lead text = text := by
  rw [dropLead, Option.isNone_iff_eq_none.1 (isNone_dropLead?_iff.2 hlead), Option.getD_none]

theorem dropLead_eq_ite (lead text : List Char) :
    dropLead lead text = if lead <+: text then text.drop lead.length else text := by
  split
  · next hlead =>
      obtain ⟨rest, rfl⟩ := hlead
      rw [dropLead_append, List.drop_left]
  · next hlead => exact dropLead_of_not_prefix hlead

end Text

namespace ImageReference

/-! ## Parts -/

/-- A tag stands behind the last slash, and behind it there is no further colon. -/
theorem splitTag_eq_some {text name tag : List Char} (hsplit : splitTag text = (name, some tag)) :
    text = name ++ ':' :: tag ∧ '/' ∉ tag ∧ ':' ∉ tag := by
  unfold splitTag at hsplit
  dsimp only at hsplit
  split at hsplit
  · cases hsplit
  · next front back hcut =>
      cases hsplit
      obtain ⟨hcolon, hsegment⟩ := splitFirst?_eq_some_iff.1 hcut
      obtain ⟨rest, hrest⟩ : ∃ rest, text.reverse = front ++ ':' :: rest :=
        ⟨back ++ text.reverse.dropWhile (· ≠ '/'), by
          rw [← List.cons_append, ← List.append_assoc, ← hsegment,
            List.takeWhile_append_dropWhile]⟩
      have htext : text = rest.reverse ++ ':' :: front.reverse := by
        rw [← List.reverse_reverse text, hrest]
        simp
      have hname : text.take (text.length - front.length - 1) = rest.reverse := by
        have hlength : text.length - front.length - 1 = rest.reverse.length := by
          rw [htext]
          simp
          omega
        rw [hlength, htext, List.take_left]
      refine ⟨by rw [hname, ← htext], fun hmem => ?_, fun hmem => hcolon (List.mem_reverse.1 hmem)⟩
      have hkept : '/' ∈ text.reverse.takeWhile (· ≠ '/') := by
        rw [hsegment]
        exact List.mem_append_left _ (List.mem_reverse.1 hmem)
      simpa using List.mem_takeWhile_imp hkept

theorem splitTag_eq_none {text name : List Char} (hsplit : splitTag text = (name, none)) :
    text = name := by
  unfold splitTag at hsplit
  dsimp only at hsplit
  split at hsplit
  · exact (Prod.mk.inj hsplit).1
  · cases hsplit

/-- Nothing is left for a name in front of a tag that is all there is. -/
theorem splitTag_eq_nil_iff {text : List Char} :
    (splitTag text).1 = [] ↔
      text = [] ∨ ∃ tag, text = ':' :: tag ∧ '/' ∉ tag ∧ ':' ∉ tag := by
  constructor
  · intro hname
    cases hsplit : splitTag text with
    | mk name tag =>
        rw [hsplit] at hname
        subst hname
        cases tag with
        | none => exact .inl (splitTag_eq_none hsplit)
        | some tag => exact .inr ⟨tag, splitTag_eq_some hsplit⟩
  · rintro (rfl | ⟨tag, rfl, hslash, hcolon⟩)
    · rfl
    · have hsegment : (':' :: tag).reverse.takeWhile (· ≠ '/') = tag.reverse ++ ':' :: [] := by
        rw [List.reverse_cons]
        exact List.takeWhile_eq_self_iff.2 (keeps_of_not_mem (by simp [hslash]))
      have hcut : splitFirst? ':' (tag.reverse ++ ':' :: []) = some (tag.reverse, []) :=
        splitFirst?_eq_some_iff.2 ⟨mt List.mem_reverse.1 hcolon, rfl⟩
      simp only [splitTag, hsegment, hcut]
      simp

/-- What holds of an image that was read from a text: written out it is the text, and its
parts hold no separator that would have cut them further. -/
structure PartsOf (text : List Char) (image : ImageReference) : Prop where
  display : image.display.toList = text
  name : '@' ∉ image.name.toList
  tag : ∀ tag, image.tag = some tag → '/' ∉ tag.toList ∧ ':' ∉ tag.toList ∧ '@' ∉ tag.toList
  digest : ∃ body, '@' ∉ body ∧
    text = body ++ (image.digest.map fun digest => '@' :: digest.toList).getD []

theorem partsOf_of_splitTag {body name : List Char} {tag : Option (List Char)} (hat : '@' ∉ body)
    (hsplit : splitTag body = (name, tag)) (digest : Option (List Char)) :
    PartsOf (body ++ (digest.map ('@' :: ·)).getD [])
      ⟨String.ofList name, tag.map String.ofList, digest.map String.ofList⟩ := by
  have hdigest : (digest.map ('@' :: ·)).getD [] =
      ((digest.map String.ofList).map fun digest => '@' :: digest.toList).getD [] := by
    cases digest <;> simp
  cases tag with
  | none =>
      obtain rfl := splitTag_eq_none hsplit
      refine ⟨?_, ?_, fun tag htag => (nomatch htag), body, hat, by rw [hdigest]⟩
      · cases digest <;> simp [display]
      · rwa [String.toList_ofList]
  | some tag =>
      obtain ⟨rfl, hslash, hcolon⟩ := splitTag_eq_some hsplit
      have hparts := hat
      rw [List.mem_append, List.mem_cons, not_or, not_or] at hparts
      refine ⟨?_, ?_, ?_, _, hat, by rw [hdigest]⟩
      · cases digest <;> simp [display]
      · rw [String.toList_ofList]
        exact hparts.1
      · rintro _ ⟨⟩
        rw [String.toList_ofList]
        exact ⟨hslash, hcolon, hparts.2.2⟩

theorem partsOf_of_ofChars {text : List Char} {image : ImageReference}
    (hread : ofChars text = .ok image) : PartsOf text image := by
  unfold ofChars at hread
  split at hread
  · cases hread
  · cases hcut : splitFirst? '@' text with
    | none =>
        simp only [hcut] at hread
        split at hread
        · cases hread
        · cases hread
          have hparts := partsOf_of_splitTag (splitFirst?_eq_none_iff.1 hcut) rfl none
          rwa [Option.map_none, Option.getD_none, List.append_nil] at hparts
    | some parts =>
        obtain ⟨body, digest⟩ := parts
        simp only [hcut] at hread
        obtain ⟨hat, rfl⟩ := splitFirst?_eq_some_iff.1 hcut
        split at hread
        · cases hread
        · cases hread
          exact partsOf_of_splitTag hat rfl (some digest)

/-! ## Digests -/

theorem isPinned_iff {image : ImageReference} :
    image.isPinned = true ↔ ∃ hex : String, image.digest = some ("sha256:" ++ hex) ∧
      hex.toList.length = 64 ∧ ∀ c ∈ hex.toList, isHexDigit c = true := by
  unfold isPinned
  constructor
  · intro hpinned
    split at hpinned
    · cases hpinned
    · next digest hdigest =>
        split at hpinned
        · cases hpinned
        · next hex hhex =>
            rw [Bool.and_eq_true, beq_iff_eq, List.all_eq_true] at hpinned
            refine ⟨String.ofList hex, ?_, by simpa using hpinned.1, by simpa using hpinned.2⟩
            rw [hdigest, Option.some_inj, ← String.toList_inj, dropLead?_eq_some_iff.1 hhex]
            simp
  · rintro ⟨hex, hdigest, hlength, hhex⟩
    have hdrop : dropLead? "sha256:".toList ("sha256:" ++ hex).toList = some hex.toList := by
      rw [dropLead?_eq_some_iff, String.toList_append]
    simp only [hdigest, hdrop, Bool.and_eq_true, beq_iff_eq, List.all_eq_true]
    exact ⟨hlength, hhex⟩

/-- What stands behind the first `@` of a text is `sha256:` and 64 hexadecimal digits. -/
def NamesDigest (text : List Char) : Prop :=
  ∃ body hex, text = body ++ '@' :: ("sha256:".toList ++ hex) ∧ '@' ∉ body ∧ hex.length = 64 ∧
    ∀ c ∈ hex, isHexDigit c = true

theorem PartsOf.isPinned_iff {text : List Char} {image : ImageReference}
    (hparts : PartsOf text image) : image.isPinned = true ↔ NamesDigest text := by
  obtain ⟨body, hat, hbody⟩ := hparts.digest
  rw [ImageReference.isPinned_iff]
  constructor
  · rintro ⟨hex, hdigest, hlength, hhex⟩
    refine ⟨body, hex.toList, ?_, hat, hlength, hhex⟩
    rw [hbody, hdigest]
    simp
  · rintro ⟨body', hex, htext, hat', hlength, hhex⟩
    cases hdigest : image.digest with
    | none =>
        rw [hbody, hdigest, Option.map_none, Option.getD_none, List.append_nil] at htext
        exact absurd (htext ▸ by simp) hat
    | some digest =>
        rw [hbody, hdigest, Option.map_some, Option.getD_some] at htext
        obtain ⟨-, hsame⟩ := append_separator_inj hat hat' htext
        refine ⟨String.ofList hex, ?_, by simpa using hlength, by simpa using hhex⟩
        rw [Option.some_inj, ← String.toList_inj, hsame]
        simp

/-! ## Reading -/

/-- In front of the first `@` stands something, and more than a tag. -/
def NamesImage (text : List Char) : Prop :=
  text.takeWhile (· ≠ '@') ≠ [] ∧
    ∀ tag, text.takeWhile (· ≠ '@') = ':' :: tag → '/' ∈ tag ∨ ':' ∈ tag

theorem namesImage_iff {text : List Char} :
    NamesImage text ↔ (splitTag (text.takeWhile (· ≠ '@'))).1 ≠ [] := by
  rw [NamesImage, Ne, Ne, splitTag_eq_nil_iff, not_or, not_exists]
  refine and_congr_right fun _ => forall_congr' fun tag => ?_
  rw [not_and, not_and_or, not_not, not_not]

theorem exists_ofChars_iff {text : List Char} :
    (∃ image, ofChars text = .ok image) ↔ NamesImage text := by
  rw [namesImage_iff]
  unfold ofChars
  rw [splitFirst?_eq_ite]
  split
  · next hempty =>
      obtain rfl := List.isEmpty_iff.1 hempty
      simp [splitTag, splitFirst?]
  · by_cases hat : '@' ∈ text
    · rw [if_pos hat]
      dsimp only
      split <;> next hname => simpa using hname
    · rw [if_neg hat]
      dsimp only
      rw [List.takeWhile_eq_self_iff.2 (keeps_of_not_mem hat)]
      split <;> next hname => simpa using hname

/-- A text without blanks around it, and then without one scheme in front. -/
def bareText (text : String) : List Char :=
  if imageScheme <+: trim text.toList then (trim text.toList).drop imageScheme.length
  else trim text.toList

theorem parse_eq_ok_iff {text : String} {image : ImageReference} :
    parse text = .ok image ↔ ofChars (bareText text) = .ok image := by
  rw [parse, dropLead_eq_ite, ← bareText]
  cases ofChars (bareText text) <;> simp [Except.mapError]

theorem exists_parse_iff {text : String} :
    (∃ image, parse text = .ok image) ↔ NamesImage (bareText text) := by
  simp only [parse_eq_ok_iff, exists_ofChars_iff]

theorem partsOf_of_parse {text : String} {image : ImageReference} (hread : parse text = .ok image) :
    PartsOf (bareText text) image :=
  partsOf_of_ofChars (parse_eq_ok_iff.1 hread)

/-- A text that is read as an image which is pinned by its digest. -/
def Pins (text : String) : Prop :=
  ∃ image, parse text = .ok image ∧ image.isPinned = true

end ImageReference

/-! ## Behind the scheme -/

theorem trim_imageScheme_append (text : List Char) :
    trim (imageScheme ++ text) = imageScheme ++ trimEndWith isBlank text := by
  have hscheme : ∀ rest, imageScheme ++ rest = 'd' :: ("ocker:/".toList ++ '/' :: rest) :=
    fun _ => rfl
  rw [hscheme, hscheme, trim_of_head (by decide), trimEndWith_append_keep (by decide)]

theorem imageScheme_prefix_trim {text : List Char} (hscheme : imageScheme <+: text) :
    imageScheme <+: trim text := by
  obtain ⟨rest, rfl⟩ := hscheme
  exact ⟨_, (trim_imageScheme_append rest).symm⟩

/-- Behind the scheme a step reference is read as an image, blanks or not. -/
theorem StepReference.parse_scheme_append (text : String) :
    StepReference.parse ("docker://" ++ text) = (ImageReference.parse text).map .image := by
  have htrim : trim ("docker://" ++ text).toList =
      imageScheme ++ trimEndWith isBlank text.toList := by
    rw [String.toList_append]
    exact trim_imageScheme_append _
  have hlocal : isLocalPath (imageScheme ++ trimEndWith isBlank text.toList) = false := by
    rw [isLocalPath, trim_imageScheme_append]
    rfl
  have hdrop : dropLead? imageScheme (imageScheme ++ trimEndWith isBlank text.toList) =
      some (trimEndWith isBlank text.toList) := dropLead?_eq_some_iff.2 rfl
  have himage : ImageReference.parse (String.ofList (trimEndWith isBlank text.toList)) =
      ImageReference.parse text := by
    simp only [ImageReference.parse, String.toList_ofList, trim_trimEndWith]
  simp only [StepReference.parse, hlocal, htrim, hdrop, himage]
  rfl

end WorkflowAudit
