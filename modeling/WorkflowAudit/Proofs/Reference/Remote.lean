import WorkflowAudit.Proofs.Text.Pieces
import WorkflowAudit.Reference

/-!
# Remote references that have been read

The path of a reference that has been read begins with its owner and its
repository and holds no `@`.  Equal paths therefore have equal slugs, no path
looks like a local one, and reading a path again, with or without the blanks at
its end, gives the same repository or nothing.
-/

namespace WorkflowAudit

open Text

namespace RemoteReference

/-! ## Segments -/

/-- What can stand for an owner or a repository. -/
structure IsSegment (segment : List Char) : Prop where
  ne_nil : segment ≠ []
  ne_dot : segment ≠ ['.']
  ne_dots : segment ≠ ['.', '.']
  chars : ∀ c ∈ segment, isSegmentChar c = true

theorem segmentFault?_eq_none_iff {part : SlugPart} {segment : List Char} :
    segmentFault? part segment = none ↔ IsSegment segment := by
  constructor
  · intro hfault
    unfold segmentFault? at hfault
    split at hfault
    · cases hfault
    · split at hfault
      · cases hfault
      · split at hfault
        · constructor <;> simp_all
        · cases hfault
  · rintro ⟨hnil, hdot, hdots, hchars⟩
    unfold segmentFault?
    simp_all

theorem ne_slash_of_isSegmentChar {c : Char} (hc : isSegmentChar c = true) : c ≠ '/' := by
  rintro rfl
  revert hc
  decide

theorem isBlank_of_isSegmentChar {c : Char} (hc : isSegmentChar c = true) :
    isBlank c = false := by
  have hcode : 33 ≤ c.toNat ∧ c.toNat ≤ 122 := by
    simp only [isSegmentChar, isDecimalDigit, isAsciiLetter, Bool.or_eq_true, Bool.and_eq_true,
      decide_eq_true_eq, beq_iff_eq, Char.le_def, UInt32.le_iff_toNat_le] at hc
    have hval : c.val.toNat = c.toNat := rfl
    rcases hc with ((((hc | (hc | hc)) | rfl) | rfl) | rfl) <;> simp_all <;> omega
  apply isBlank_of_visible <;> omega

theorem IsSegment.slash_not_mem {segment : List Char} (hsegment : IsSegment segment) :
    '/' ∉ segment :=
  fun hmem => ne_slash_of_isSegmentChar (hsegment.chars _ hmem) rfl

theorem IsSegment.isBlank_eq_false {segment : List Char} (hsegment : IsSegment segment) :
    ∀ c ∈ segment, isBlank c = false :=
  fun c hmem => isBlank_of_isSegmentChar (hsegment.chars c hmem)

/-- A text that begins with a segment and a slash names nothing inside the repository. -/
theorem IsSegment.isLocalPath_eq_false {segment text rest : List Char}
    (hsegment : IsSegment segment) (htrim : trim text = segment ++ '/' :: rest) :
    isLocalPath text = false := by
  have hlead : ∀ dots : List Char, '/' ∉ dots → segment ≠ dots →
      (dropLead? (dots ++ ['/']) (segment ++ '/' :: rest)).isSome = false := by
    intro dots hslash hne
    rw [Option.isSome_eq_false_iff, isNone_dropLead?_iff]
    rintro ⟨back, hback⟩
    rw [List.append_assoc] at hback
    exact hne (append_separator_inj hslash hsegment.slash_not_mem hback).1.symm
  have hdot := hlead ['.'] (by decide) hsegment.ne_dot
  have hdots := hlead ['.', '.'] (by decide) hsegment.ne_dots
  have hslash : segment ++ '/' :: rest ≠ ['.'] := by
    intro heq
    have hmem : '/' ∈ segment ++ '/' :: rest := by simp
    rw [heq] at hmem
    revert hmem
    decide
  simp only [List.cons_append, List.nil_append] at hdot hdots
  simp [isLocalPath, htrim, hdot, hdots, hslash]

/-! ## Paths -/

/-- A path that begins with an owner and a repository. -/
inductive SlugPath (owner repo : List Char) : List Char → Prop
  | whole : SlugPath owner repo (owner ++ '/' :: repo)
  | within (sub : List Char) : SlugPath owner repo (owner ++ '/' :: (repo ++ '/' :: sub))

section

variable {owner repo path : List Char}

theorem SlugPath.ne_nil (hpath : SlugPath owner repo path) : path ≠ [] := by
  cases hpath <;> simp

theorem SlugPath.exists_splitOn (howner : IsSegment owner) (hrepo : IsSegment repo)
    (hpath : SlugPath owner repo path) : ∃ rest, splitOn '/' path = owner :: repo :: rest := by
  cases hpath with
  | whole =>
      rw [splitOn_append_separator howner.slash_not_mem, splitOn_of_not_mem hrepo.slash_not_mem]
      exact ⟨[], rfl⟩
  | within sub =>
      rw [splitOn_append_separator howner.slash_not_mem,
        splitOn_append_separator hrepo.slash_not_mem]
      exact ⟨_, rfl⟩

/-- Trimming takes away blanks of the subpath at most. -/
theorem SlugPath.trim (howner : IsSegment owner) (hrepo : IsSegment repo)
    (hpath : SlugPath owner repo path) : SlugPath owner repo (trim path) := by
  cases hpath with
  | whole =>
      rw [trim_of_all]
      · exact .whole
      · intro c hmem
        rcases List.mem_append.1 hmem with hmem | hmem
        · exact howner.isBlank_eq_false c hmem
        · rcases List.mem_cons.1 hmem with rfl | hmem
          · decide
          · exact hrepo.isBlank_eq_false c hmem
  | within sub =>
      have hslash : isBlank '/' = false := by decide
      obtain ⟨first, rest, rfl⟩ := List.exists_cons_of_ne_nil howner.ne_nil
      have hfirst := howner.isBlank_eq_false first List.mem_cons_self
      have hregroup : (first :: rest) ++ '/' :: (repo ++ '/' :: sub) =
          ((first :: rest) ++ '/' :: repo) ++ '/' :: sub := by simp
      have hfront : ((first :: rest) ++ '/' :: (repo ++ '/' :: sub)).dropWhile isBlank =
          (first :: rest) ++ '/' :: (repo ++ '/' :: sub) := by
        simp [hfirst]
      have hwithin : SlugPath (first :: rest) repo
          ((first :: rest) ++ '/' :: (repo ++ '/' :: trimEndWith isBlank sub)) := .within _
      rw [Text.trim, hfront, hregroup, trimEndWith_append_keep hslash]
      simpa using hwithin

theorem SlugPath.isLocalPath_eq_false (howner : IsSegment owner) (hrepo : IsSegment repo)
    (hpath : SlugPath owner repo path) : isLocalPath path = false := by
  have htrim := hpath.trim howner hrepo
  generalize hfront : Text.trim path = trimmed at htrim
  cases htrim with
  | whole => exact howner.isLocalPath_eq_false hfront
  | within sub => exact howner.isLocalPath_eq_false hfront

end

/-! ## Reading -/

theorem ofPath_of_splitOn {path owner repo : List Char} {rest : List (List Char)}
    (hsplit : splitOn '/' path = owner :: repo :: rest) (howner : IsSegment owner)
    (hrepo : IsSegment repo) (gitRef : List Char) :
    ofPath path gitRef =
      if rest.any List.isEmpty then .error .emptySegment
      else .ok {
        owner := String.ofList owner
        repo := String.ofList repo
        subpath := if rest.isEmpty then none else some (String.ofList (joinWith ['/'] rest))
        gitRef := String.ofList gitRef } := by
  simp only [ofPath, hsplit, segmentFault?_eq_none_iff.2 howner, List.headD_cons,
    segmentFault?_eq_none_iff.2 hrepo, List.tail_cons]
  rfl

theorem ofPath_eq_ok {path gitRef : List Char} {r : RemoteReference}
    (hread : ofPath path gitRef = .ok r) : ∃ owner repo rest,
      splitOn '/' path = owner :: repo :: rest ∧ IsSegment owner ∧ IsSegment repo ∧
        (∀ piece ∈ rest, piece ≠ []) ∧
        r = { owner := String.ofList owner
              repo := String.ofList repo
              subpath := if rest.isEmpty then none
                else some (String.ofList (joinWith ['/'] rest))
              gitRef := String.ofList gitRef } := by
  cases hsplit : splitOn '/' path with
  | nil => simp [ofPath, hsplit] at hread
  | cons owner segments =>
      cases howner : segmentFault? .owner owner with
      | some fault => simp [ofPath, hsplit, howner] at hread
      | none =>
          cases hrepo : segmentFault? .repository (segments.headD []) with
          | some fault =>
              simp only [ofPath, hsplit, howner, hrepo] at hread
              cases hread
          | none =>
              simp only [ofPath, hsplit, howner, hrepo] at hread
              split at hread
              · cases hread
              · next hrest =>
                  rw [segmentFault?_eq_none_iff] at howner hrepo
                  cases segments with
                  | nil => exact absurd rfl hrepo.ne_nil
                  | cons repo rest =>
                      refine ⟨owner, repo, rest, rfl, howner, hrepo, ?_, (Except.ok.inj hread).symm⟩
                      rintro piece hmem rfl
                      exact hrest (List.any_eq_true.2 ⟨[], hmem, rfl⟩)

/-- What every reference satisfies that has been read from a text. -/
structure Grammatical (r : RemoteReference) : Prop where
  owner : IsSegment r.owner.toList
  repo : IsSegment r.repo.toList
  path : SlugPath r.owner.toList r.repo.toList r.path.toList
  at_not_mem : '@' ∉ r.path.toList

/-- Nothing of a path is lost. -/
theorem path_of_ofPath {path gitRef : List Char} {r : RemoteReference}
    (hread : ofPath path gitRef = .ok r) : r.path.toList = path := by
  obtain ⟨owner, repo, rest, hsplit, -, -, -, rfl⟩ := ofPath_eq_ok hread
  rw [← joinWith_splitOn '/' path, hsplit]
  cases rest <;> simp [RemoteReference.path, slug, joinWith]

theorem grammatical_of_ofPath {path gitRef : List Char} {r : RemoteReference}
    (hat : '@' ∉ path) (hread : ofPath path gitRef = .ok r) : r.Grammatical := by
  have hpath := path_of_ofPath hread
  obtain ⟨owner, repo, rest, -, howner, hrepo, -, rfl⟩ := ofPath_eq_ok hread
  refine ⟨?_, ?_, ?_, hpath ▸ hat⟩
  · rwa [String.toList_ofList]
  · rwa [String.toList_ofList]
  · cases rest with
    | nil =>
        have hwhole : SlugPath owner repo (owner ++ '/' :: repo) := .whole
        simpa [RemoteReference.path, slug] using hwhole
    | cons piece pieces =>
        have hwithin : SlugPath owner repo
            (owner ++ '/' :: (repo ++ '/' :: joinWith ['/'] (piece :: pieces))) := .within _
        simpa [RemoteReference.path, slug] using hwithin

theorem exists_ofPath_of_parse {text : String} {r : RemoteReference}
    (hread : parse text = .ok r) : ∃ path gitRef, '@' ∉ path ∧ ofPath path gitRef = .ok r := by
  unfold parse at hread
  cases hchars : ofChars (trim text.toList) with
  | error fault => simp [hchars, Except.mapError] at hread
  | ok found =>
      simp only [hchars, Except.mapError, Except.ok.injEq] at hread
      subst hread
      unfold ofChars at hchars
      split at hchars
      · next hsplit => exact ⟨_, _, (splitFirst?_eq_some_iff.1 hsplit).1, hchars⟩
      · next hsplit => exact ⟨_, _, splitFirst?_eq_none_iff.1 hsplit, hchars⟩

theorem parse_trimString (text : String) : parse (trimString text) = parse text := by
  simp only [parse, trimString, String.toList_ofList, trim_trim]

/-- A step reference that names a remote action is read like any other remote reference. -/
theorem parse_of_step {text : String} {r : RemoteReference}
    (hread : StepReference.parse text = .ok (.remote r)) : parse text = .ok r := by
  unfold StepReference.parse at hread
  dsimp only at hread
  split at hread
  · cases hread
  · split at hread
    · cases hread
    · split at hread
      · simp [Except.map] at hread
        split at hread <;> cases hread
      · cases hparse : parse (String.ofList (trim text.toList)) with
        | error fault => simp [hparse, Except.map] at hread
        | ok found =>
            simp only [hparse, Except.map, Except.ok.injEq, StepReference.remote.injEq] at hread
            rw [← parse_trimString, trimString, hparse, hread]

theorem exists_ofPath_of_step {text : String} {r : RemoteReference}
    (hread : StepReference.parse text = .ok (.remote r)) :
    ∃ path gitRef, '@' ∉ path ∧ ofPath path gitRef = .ok r :=
  exists_ofPath_of_parse (parse_of_step hread)

theorem grammatical_of_parse {text : String} {r : RemoteReference}
    (hread : parse text = .ok r) : r.Grammatical := by
  obtain ⟨path, gitRef, hat, hpath⟩ := exists_ofPath_of_parse hread
  exact grammatical_of_ofPath hat hpath

theorem grammatical_of_step {text : String} {r : RemoteReference}
    (hread : StepReference.parse text = .ok (.remote r)) : r.Grammatical :=
  grammatical_of_parse (parse_of_step hread)

theorem Grammatical.slug_of_path_eq {r r' : RemoteReference} (hr : r.Grammatical)
    (hr' : r'.Grammatical) (heq : r.path = r'.path) : r.slug = r'.slug := by
  obtain ⟨rest, hsplit⟩ := hr.path.exists_splitOn hr.owner hr.repo
  obtain ⟨rest', hsplit'⟩ := hr'.path.exists_splitOn hr'.owner hr'.repo
  rw [heq, hsplit'] at hsplit
  obtain ⟨howner, htail⟩ := List.cons.inj hsplit
  obtain ⟨hrepo, -⟩ := List.cons.inj htail
  rw [String.toList_inj] at howner hrepo
  rw [slug, slug, howner, hrepo]

/-- A text that begins with the slug of a reference is reduced to it or refused. -/
theorem Grammatical.normalizeRepo_eq {r : RemoteReference} (hr : r.Grammatical)
    {path : List Char} (hpath : SlugPath r.owner.toList r.repo.toList path) (hat : '@' ∉ path)
    {repo : String} (hrepo : normalizeRepo (String.ofList path) = .ok repo) : repo = r.slug := by
  have htrim := hpath.trim hr.owner hr.repo
  have hat' : '@' ∉ trim path := fun hmem => hat (mem_of_mem_trim hmem)
  simp only [normalizeRepo, parse, ofChars, String.toList_ofList,
    splitFirst?_eq_none_iff.2 hat'] at hrepo
  cases hread : ofPath (trim path) [] with
  | error fault => simp [hread, Except.mapError, Except.map] at hrepo
  | ok found =>
      simp only [hread, Except.mapError, Except.map, Except.ok.injEq] at hrepo
      obtain ⟨owner, name, rest, hsplit, -, -, -, rfl⟩ := ofPath_eq_ok hread
      obtain ⟨rest', hsplit'⟩ := htrim.exists_splitOn hr.owner hr.repo
      rw [hsplit'] at hsplit
      obtain ⟨rfl, htail⟩ := List.cons.inj hsplit
      obtain ⟨rfl, -⟩ := List.cons.inj htail
      rw [← hrepo]
      simp [slug]

end RemoteReference

end WorkflowAudit
