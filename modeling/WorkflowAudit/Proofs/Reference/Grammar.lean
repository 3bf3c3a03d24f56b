import WorkflowAudit.Proofs.Reference.Remote

/-!
# The grammar of remote references

A trimmed text is cut at its first `@`.  What stands in front of it is read as a remote
reference if and only if it splits at slashes into an owner, a repository and further
segments of which none is empty.  Both parts are kept, and the owner and the repository
alone decide what the reference is reduced to.
-/

namespace WorkflowAudit

open Text

namespace RemoteReference

/-- What stands in front of the first `@` of a text without the blanks around it. -/
def pathPart (text : String) : List Char := (trim text.toList).takeWhile (· ≠ '@')

/-- What stands behind that `@`. -/
def refPart (text : String) : List Char := ((trim text.toList).dropWhile (· ≠ '@')).tail

/-- A path that consists of an owner, a repository and any number of further segments. -/
structure Splits (path owner repo : List Char) (further : List (List Char)) : Prop where
  segments : path.splitOn '/' = owner :: repo :: further
  owner : IsSegment owner
  repo : IsSegment repo
  further : [] ∉ further

/-- The reference that consists of these segments. -/
def ofSegments (owner repo : List Char) (further : List (List Char)) (gitRef : List Char) :
    RemoteReference where
  owner := String.ofList owner
  repo := String.ofList repo
  subpath := if further.isEmpty then none else some (String.ofList (joinWith ['/'] further))
  gitRef := String.ofList gitRef

/-! ## The two parts of a text -/

theorem at_not_mem_pathPart (text : String) : '@' ∉ pathPart text := by
  intro hmem
  simpa using List.mem_takeWhile_imp hmem

theorem pathPart_append_refPart {text : String} (href : refPart text ≠ []) :
    pathPart text ++ '@' :: refPart text = trim text.toList := by
  obtain ⟨rest, hback⟩ : ∃ rest, (trim text.toList).dropWhile (· ≠ '@') = '@' :: rest := by
    unfold refPart at href
    cases hback : (trim text.toList).dropWhile (· ≠ '@') with
    | nil => exact absurd (congrArg List.tail hback) href
    | cons c rest =>
        have hhead := List.head?_dropWhile_not (· ≠ '@') (trim text.toList)
        rw [hback] at hhead
        obtain rfl : c = '@' := by simpa using hhead
        exact ⟨rest, rfl⟩
  rw [pathPart, refPart, hback, List.tail_cons, ← hback, List.takeWhile_append_dropWhile]

/-- A text is read by its two parts. -/
theorem parse_eq (text : String) : parse text =
    (ofPath (pathPart text) (refPart text)).mapError fun fault => ⟨trimString text, fault⟩ := by
  rw [parse, ofChars, splitFirst?_eq_ite]
  by_cases hat : '@' ∈ trim text.toList
  · rw [if_pos hat]
    rfl
  · rw [if_neg hat, pathPart, refPart, List.takeWhile_eq_self_iff.2 (keeps_of_not_mem hat),
      List.dropWhile_eq_nil_iff.2 (keeps_of_not_mem hat)]
    rfl

theorem ofPath_eq_ok_iff {path gitRef : List Char} {r : RemoteReference} :
    ofPath path gitRef = .ok r ↔
      ∃ owner repo further, Splits path owner repo further ∧
        r = ofSegments owner repo further gitRef := by
  constructor
  · intro hread
    obtain ⟨owner, repo, further, hsplit, howner, hrepo, hfurther, rfl⟩ := ofPath_eq_ok hread
    exact ⟨owner, repo, further,
      ⟨splitOn_eq '/' path ▸ hsplit, howner, hrepo, fun hmem => hfurther [] hmem rfl⟩, rfl⟩
  · rintro ⟨owner, repo, further, ⟨hsplit, howner, hrepo, hfurther⟩, rfl⟩
    rw [ofPath_of_splitOn (splitOn_eq '/' path ▸ hsplit) howner hrepo, if_neg]
    · rfl
    · simpa using hfurther

theorem parse_eq_ok_iff {text : String} {r : RemoteReference} :
    parse text = .ok r ↔
      ∃ owner repo further, Splits (pathPart text) owner repo further ∧
        r = ofSegments owner repo further (refPart text) := by
  rw [← ofPath_eq_ok_iff, parse_eq]
  cases ofPath (pathPart text) (refPart text) <;> simp [Except.mapError]

/-- The path of a reference is all that stands in front of the first `@`. -/
theorem path_of_parse {text : String} {r : RemoteReference} (hread : parse text = .ok r) :
    r.path.toList = pathPart text :=
  path_of_ofPath (ofPath_eq_ok_iff.2 (parse_eq_ok_iff.1 hread))

@[simp] theorem slug_ofSegments (owner repo : List Char) (further : List (List Char))
    (gitRef : List Char) :
    (ofSegments owner repo further gitRef).slug = String.ofList (owner ++ '/' :: repo) := by
  rw [← String.toList_inj]
  simp [slug, ofSegments]

/-! ## References of steps -/

/-- A reference begins with its owner and a slash. -/
theorem exists_trim_eq_of_parse {text : String} {r : RemoteReference}
    (hread : parse text = .ok r) :
    ∃ behind, trim text.toList = r.owner.toList ++ '/' :: behind := by
  have hfront : ∃ behind, pathPart text = r.owner.toList ++ '/' :: behind := by
    have hpath := (grammatical_of_parse hread).path
    rw [path_of_parse hread] at hpath
    generalize pathPart text = path at hpath ⊢
    cases hpath with
    | whole => exact ⟨_, rfl⟩
    | within sub => exact ⟨_, rfl⟩
  obtain ⟨behind, hbehind⟩ := hfront
  refine ⟨behind ++ (trim text.toList).dropWhile (· ≠ '@'), ?_⟩
  rw [← List.cons_append, ← List.append_assoc, ← hbehind, pathPart,
    List.takeWhile_append_dropWhile]

/-- A text that names a remote action names neither a path inside the repository nor an
image. -/
theorem step_eq_remote_iff {text : String} {r : RemoteReference} :
    StepReference.parse text = .ok (.remote r) ↔ parse text = .ok r := by
  refine ⟨parse_of_step, fun hread => ?_⟩
  have howner := (grammatical_of_parse hread).owner
  obtain ⟨behind, htrim⟩ := exists_trim_eq_of_parse hread
  have hempty : (trim text.toList).isEmpty = false := by simp [htrim]
  have hlocal : isLocalPath (trim text.toList) = false :=
    howner.isLocalPath_eq_false ((trim_trim _).trans htrim)
  have himage : dropLead? imageScheme (trim text.toList) = none := by
    rw [← Option.isNone_iff_eq_none, isNone_dropLead?_iff, htrim]
    rintro ⟨back, hback⟩
    have hscheme : "docker:".toList ++ '/' :: '/' :: back = r.owner.toList ++ '/' :: behind := by
      rw [← hback]
      rfl
    obtain ⟨hsame, -⟩ := append_separator_inj (by decide) howner.slash_not_mem hscheme
    have hcolon := howner.chars ':' (hsame ▸ by decide)
    revert hcolon
    decide
  simp only [StepReference.parse, hempty, hlocal, himage]
  rw [← trimString, parse_trimString, hread]
  rfl

/-! ## What a reference is reduced to -/

theorem normalizeRepo_eq_ok_iff {text slug : String} :
    normalizeRepo text = .ok slug ↔ ∃ r, parse text = .ok r ∧ r.slug = slug := by
  rw [normalizeRepo]
  cases parse text <;> simp [Except.map]

/-- The owner and the repository decide what a text is reduced to, unless a segment behind
them is empty. -/
theorem normalizeRepo_eq_ite {text : String} {owner repo : List Char}
    {further : List (List Char)} (howner : IsSegment owner) (hrepo : IsSegment repo)
    (hsplit : (pathPart text).splitOn '/' = owner :: repo :: further) :
    normalizeRepo text =
      if [] ∈ further then .error ⟨trimString text, .emptySegment⟩
      else .ok (String.ofList (owner ++ '/' :: repo)) := by
  by_cases hempty : [] ∈ further
  · have hany : further.any List.isEmpty = true := by simpa using hempty
    rw [if_pos hempty, normalizeRepo, parse_eq,
      ofPath_of_splitOn (splitOn_eq '/' _ ▸ hsplit) howner hrepo, if_pos hany]
    rfl
  · rw [if_neg hempty, normalizeRepo_eq_ok_iff]
    exact ⟨_, parse_eq_ok_iff.2 ⟨owner, repo, further, ⟨hsplit, howner, hrepo, hempty⟩, rfl⟩,
      slug_ofSegments _ _ _ _⟩

/-- Nothing of a path is trimmed when an `@` stands behind it. -/
theorem pathPart_append_at {path owner repo : List Char} {further : List (List Char)}
    (hpath : Splits path owner repo further) (hat : '@' ∉ path) (behind : List Char) :
    pathPart (String.ofList (path ++ '@' :: behind)) = path := by
  have hkeeps := keeps_of_not_mem hat
  obtain ⟨c, rest, rfl⟩ := List.exists_cons_of_ne_nil hpath.owner.ne_nil
  obtain ⟨more, rfl⟩ : ∃ more, path = c :: more := by
    have hjoined := joinWith_splitOn '/' path
    rw [splitOn_eq, hpath.segments] at hjoined
    exact ⟨_, hjoined.symm⟩
  have hc := hpath.owner.isBlank_eq_false c List.mem_cons_self
  rw [pathPart, String.toList_ofList, List.cons_append, trim_of_head hc,
    trimEndWith_append_keep (by decide : isBlank '@' = false), ← List.cons_append,
    List.takeWhile_append_of_pos hkeeps]
  simp

/-! ## Main result -/

/-- A text is read as a remote reference if and only if its path splits into an owner, a
repository and further segments.  A reference that has been read consists of just the two
parts of its text, and it is reduced to its owner and its repository, whatever stands behind
the `@`, and whatever segments stand behind these two as long as none of them is empty. -/
theorem parse_follows_grammar (text : String) :
    ((∃ r, parse text = .ok r) ↔
      ∃ owner repo further, Splits (pathPart text) owner repo further) ∧
    ((∃ slug, normalizeRepo text = .ok slug) ↔ ∃ r, parse text = .ok r) ∧
    ∀ r, parse text = .ok r → ∃ owner repo further,
      Splits (pathPart text) owner repo further ∧
      r.path = String.ofList (pathPart text) ∧
      r.gitRef = String.ofList (refPart text) ∧
      r.slug = String.ofList (owner ++ '/' :: repo) ∧
      r.display = (if refPart text = [] then String.ofList (pathPart text)
        else trimString text) ∧
      normalizeRepo text = .ok r.slug ∧
      (∀ behind, normalizeRepo (String.ofList (pathPart text ++ '@' :: behind)) = .ok r.slug) ∧
      ∀ other others, (pathPart other).splitOn '/' = owner :: repo :: others →
        normalizeRepo other =
          if [] ∈ others then .error ⟨trimString other, .emptySegment⟩ else .ok r.slug := by
  refine ⟨?_, ?_, fun r hread => ?_⟩
  · constructor
    · rintro ⟨r, hread⟩
      obtain ⟨owner, repo, further, hsplits, -⟩ := parse_eq_ok_iff.1 hread
      exact ⟨owner, repo, further, hsplits⟩
    · rintro ⟨owner, repo, further, hsplits⟩
      exact ⟨_, parse_eq_ok_iff.2 ⟨owner, repo, further, hsplits, rfl⟩⟩
  · simp only [normalizeRepo_eq_ok_iff]
    exact ⟨fun ⟨_, r, hread, _⟩ => ⟨r, hread⟩, fun ⟨r, hread⟩ => ⟨r.slug, r, hread, rfl⟩⟩
  · have hpath : r.path = String.ofList (pathPart text) := by
      rw [← path_of_parse hread, String.ofList_toList]
    obtain ⟨owner, repo, further, hsplits, hr⟩ := parse_eq_ok_iff.1 hread
    have hslug : r.slug = String.ofList (owner ++ '/' :: repo) := by
      rw [hr, slug_ofSegments]
    have href : r.gitRef = String.ofList (refPart text) := by rw [hr, ofSegments]
    have hreduced : ∀ other others, (pathPart other).splitOn '/' = owner :: repo :: others →
        normalizeRepo other =
          if [] ∈ others then .error ⟨trimString other, .emptySegment⟩ else .ok r.slug := by
      intro other others hsplit
      rw [normalizeRepo_eq_ite hsplits.owner hsplits.repo hsplit, hslug]
    refine ⟨owner, repo, further, hsplits, hpath, href, hslug, ?_, ?_, fun behind => ?_, hreduced⟩
    · by_cases hempty : refPart text = []
      · rw [if_pos hempty, display, href, hempty, hpath]
        rfl
      · have hsome : r.gitRef.isEmpty = false := by
          rw [Bool.eq_false_iff, Ne, String.isEmpty_iff, href]
          simpa [← String.toList_inj] using hempty
        rw [if_neg hempty, display, hsome, hpath, href, trimString,
          ← pathPart_append_refPart hempty, ← String.toList_inj]
        simp
    · rw [hreduced text further hsplits.segments, if_neg hsplits.further]
    · have hsplit := hsplits.segments
      rw [← pathPart_append_at hsplits (at_not_mem_pathPart text) behind] at hsplit
      rw [hreduced _ further hsplit, if_neg hsplits.further]

/-- A subpath that ends in a blank and a ref with an `@` of its own.  With nothing behind the
subpath that blank is trimmed, and a segment that consists of it alone becomes empty. -/
theorem parse_follows_grammar_blank_segment :
    let text := "\tacme/tools/ @v1@2 "
    ∃ r, parse text = .ok r ∧ r.path = "acme/tools/ " ∧ r.gitRef = "v1@2" ∧
      r.display = "acme/tools/ @v1@2" ∧ normalizeRepo "acme/tools/ @" = .ok "acme/tools" ∧
      normalizeRepo "acme/tools/ " = .error ⟨"acme/tools/", .emptySegment⟩ := by
  intro text
  let r : RemoteReference :=
    { owner := "acme", repo := "tools", subpath := some " ", gitRef := "v1@2" }
  have hread : parse text = .ok r := by decide +kernel
  obtain ⟨owner, repo, further, hsplits, hpath, href, -, hdisplay, -, hbehind, hreduced⟩ :=
    (parse_follows_grammar text).2.2 r hread
  have hparts : pathPart text = "acme/tools/ ".toList ∧ refPart text = "v1@2".toList := by
    decide +kernel
  have hsplit := hsplits.segments
  rw [hparts.1] at hsplit hpath hbehind
  obtain ⟨rfl, rfl, rfl⟩ : "acme".toList = owner ∧ "tools".toList = repo ∧
      [" ".toList] = further := by
    have hsegments : "acme/tools/ ".toList.splitOn '/' =
        ["acme".toList, "tools".toList, " ".toList] := by decide +kernel
    simpa using hsegments.symm.trans hsplit
  rw [hparts.2, if_neg (by decide)] at hdisplay
  rw [hparts.2] at href
  have hempty := hreduced "acme/tools/ " [[]] (by decide +kernel)
  rw [if_pos (by decide)] at hempty
  have htrimmed : trimString text = "acme/tools/ @v1@2" ∧
      trimString "acme/tools/ " = "acme/tools/" := by decide +kernel
  rw [htrimmed.1] at hdisplay
  rw [htrimmed.2] at hempty
  exact ⟨r, hread, hpath, href, hdisplay, hbehind [], hempty⟩

end RemoteReference

end WorkflowAudit
