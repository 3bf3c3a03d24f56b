import WorkflowAudit.Pattern.Screen
import WorkflowAudit.Proofs.Regex.Escape

/-!
# Where a class ends

The screen finds the end of a class by counting brackets, and the reader of
expressions by reading members.  They find the same end when no class within the
class begins with a closing bracket and no range ends in an opening one: whatever
else a member is made of holds no bracket that is not escaped.
-/

namespace WorkflowAudit.Pattern

open Text Regex

/-! ## Counting brackets -/

/-- The text behind a class in which `depth` brackets are open. -/
def classRest (depth : Nat) : List Char → Option (List Char)
  | [] => none
  | '\\' :: [] => none
  | '\\' :: _ :: rest => classRest depth rest
  | '[' :: rest => classRest (depth + 1) rest
  | ']' :: rest => if depth ≤ 1 then some rest else classRest (depth - 1) rest
  | _ :: rest => classRest depth rest

theorem classTail_of_classRest {depth : Nat} {text after : List Char}
    (hrest : classRest depth text = some after) :
    ∃ extent, classTail depth text = .ok extent ∧ text.drop extent = after := by
  fun_induction classRest depth text with
  | case1 => cases hrest
  | case2 => cases hrest
  | case3 depth c rest ih =>
      obtain ⟨extent, htail, hdrop⟩ := ih hrest
      exact ⟨extent + 2, by simp [classTail, htail, Except.map], hdrop⟩
  | case4 depth rest ih =>
      obtain ⟨extent, htail, hdrop⟩ := ih hrest
      exact ⟨extent + 1, by simp [classTail, htail, Except.map], hdrop⟩
  | case5 depth rest hdepth =>
      cases hrest
      exact ⟨1, by simp [classTail, hdepth], rfl⟩
  | case6 depth rest hdepth ih =>
      obtain ⟨extent, htail, hdrop⟩ := ih hrest
      exact ⟨extent + 1, by simp [classTail, hdepth, htail, Except.map], hdrop⟩
  | case7 depth c rest hlast hescape hopen hclose ih =>
      obtain ⟨extent, htail, hdrop⟩ := ih hrest
      exact ⟨extent + 1, by simp [classTail, htail, Except.map], hdrop⟩

/-- A character that changes no count. -/
def IsMember (c : Char) : Prop := c ∉ ['\\', '[', ']']

instance (c : Char) : Decidable (IsMember c) := inferInstanceAs (Decidable (c ∉ ['\\', '[', ']']))

theorem classRest_cons_member {c : Char} (hc : IsMember c) (depth : Nat) (rest : List Char) :
    classRest depth (c :: rest) = classRest depth rest := by
  simp only [IsMember, List.mem_cons, List.not_mem_nil, or_false, not_or] at hc
  rw [classRest] <;> simp_all

theorem classRest_append_members {members : List Char} (hmembers : ∀ c ∈ members, IsMember c)
    (depth : Nat) (rest : List Char) :
    classRest depth (members ++ rest) = classRest depth rest := by
  induction members with
  | nil => rfl
  | cons c members ih =>
      rw [List.cons_append, classRest_cons_member (hmembers c List.mem_cons_self)]
      exact ih fun d hd => hmembers d (.tail _ hd)

theorem isMember_of_isPlainChar {c : Char} (hc : isPlainChar c = true) : IsMember c := by
  intro hmem
  simp only [List.mem_cons, List.not_mem_nil, or_false] at hmem
  rcases hmem with rfl | rfl | rfl <;> revert hc <;> decide

theorem isMember_of_isHexDigit {c : Char} (hc : isHexDigit c = true) : IsMember c := by
  intro hmem
  simp only [List.mem_cons, List.not_mem_nil, or_false] at hmem
  rcases hmem with rfl | rfl | rfl <;> revert hc <;> decide

/-! ## Members -/

/-- An escape that is a member of a class, or the end of a range in it. -/
def IsMemberEscape (flags : Flags) (found : Primitive) : Prop :=
  (∃ set, found.members flags = .ok set) ∨ ∃ code, found.rangeEnd flags = .ok code

theorem classRest_escape {flags : Flags} {text after : List Char} {found : Primitive}
    (hescaped : Escaped text found after) (hmember : IsMemberEscape flags found) (depth : Nat) :
    classRest depth ('\\' :: text) = classRest depth after := by
  cases hescaped with
  | single hkind => rfl
  | digits hkind hdigits =>
      exact classRest_append_members (fun c hc => isMember_of_isHexDigit (hdigits c hc)) depth after
  | bracedDigits hkind hdigits =>
      rw [classRest, classRest_cons_member (by decide),
        classRest_append_members fun c hc => isMember_of_isHexDigit (hdigits c hc)]
      exact classRest_cons_member (by decide) depth after
  | @bracedProperty _ name _ _ hkind hname =>
      cases hset : (propertyQuery name).1 with
      | none =>
          rw [hset] at hmember
          obtain ⟨set, hmember⟩ | ⟨code, hmember⟩ := hmember <;> cases hmember
      | some set =>
          rw [classRest, classRest_cons_member (by decide), classRest_append_members fun c hc =>
            isMember_of_isPlainChar (isPlainChar_of_propertyQuery hset c hc)]
          exact classRest_cons_member (by decide) depth after
  | @letterProperty _ c _ _ hkind hc =>
      cases hset : Unicode.named? (String.ofList [c]) with
      | none =>
          rw [hset] at hmember
          obtain ⟨set, hmember⟩ | ⟨code, hmember⟩ := hmember <;> cases hmember
      | some set =>
          have hname := Unicode.isNameChar_of_named? hset c (by simp)
          exact classRest_cons_member
            (isMember_of_isPlainChar (isPlainChar_of_isNameChar hname)) depth after
  | edge hname => obtain ⟨set, hmember⟩ | ⟨code, hmember⟩ := hmember <;> cases hmember

theorem classRest_primitive {flags : Flags} {c : Char} {rest after : List Char}
    {found : Primitive} (hopen : c ≠ '[') (hclose : c ≠ ']')
    (hread : readPrimitive false c rest = .ok (found, after))
    (hmember : IsMemberEscape flags found) (depth : Nat) :
    classRest depth (c :: rest) = classRest depth after := by
  unfold readPrimitive at hread
  split at hread
  · next hbackslash =>
      rw [beq_iff_eq.1 hbackslash]
      exact classRest_escape (escaped_of_readEscape hread) hmember depth
  · next hbackslash =>
      cases hread
      refine classRest_cons_member (fun hmem => ?_) depth _
      simp_all

theorem rangeEnd_of_rangeMembers {flags : Flags} {low high : Primitive} {set : CharSet}
    (hrange : rangeMembers flags low high = .ok set) :
    IsMemberEscape flags low ∧ IsMemberEscape flags high := by
  unfold rangeMembers at hrange
  cases hlow : low.rangeEnd flags with
  | error fault =>
      rw [hlow] at hrange
      cases hrange
  | ok first =>
      cases hhigh : high.rangeEnd flags with
      | error fault =>
          rw [hlow, hhigh] at hrange
          cases hrange
      | ok last => exact ⟨.inr ⟨first, hlow⟩, .inr ⟨last, hhigh⟩⟩

theorem head_of_startsRange {text : List Char} (hstarts : startsRange false text = true) :
    ∃ tail, text = '-' :: tail ∧ tail.head? ≠ some ']' := by
  unfold startsRange at hstarts
  split at hstarts
  · next tail =>
      refine ⟨tail, rfl, ?_⟩
      intro hclose
      simp [peek, hclose] at hstarts
  · cases hstarts

/-- A member whose range, if it is one, does not end in an opening bracket. -/
theorem classRest_member {flags : Flags} (hverbose : flags.verbose = false) {c : Char}
    {rest after : List Char} {set : CharSet} (hopen : c ≠ '[') (hclose : c ≠ ']')
    (hrange : ∀ low body, readPrimitive flags.verbose c rest ≠ .ok (low, '-' :: '[' :: body))
    (hread : readMember flags c rest = .ok (set, after)) (depth : Nat) :
    classRest depth (c :: rest) = classRest depth after := by
  unfold readMember at hread
  simp only [hverbose, skipVerbose_false] at hread hrange
  cases hlow : readPrimitive false c rest with
  | error fault => simp [hlow] at hread
  | ok found =>
      obtain ⟨low, behind⟩ := found
      simp only [hlow] at hread
      split at hread
      · next hstarts =>
          obtain ⟨tail, rfl, hhead⟩ := head_of_startsRange hstarts
          cases tail with
          | nil => cases hread
          | cons last tail =>
              have hbracket : last ≠ '[' := by
                rintro rfl
                exact hrange low tail hlow
              dsimp only [List.tail_cons] at hread
              cases hhigh : readPrimitive false last tail with
              | error fault => simp [hhigh] at hread
              | ok found =>
                  obtain ⟨high, behind⟩ := found
                  rw [hhigh] at hread
                  obtain ⟨_, hmembers, heq⟩ := map_eq_ok hread
                  cases heq
                  obtain ⟨hfirst, hlast⟩ := rangeEnd_of_rangeMembers hmembers
                  rw [classRest_primitive hopen hclose hlow hfirst,
                    classRest_cons_member (by decide)]
                  exact classRest_primitive hbracket (fun heq => hhead (heq ▸ rfl)) hhigh
                    hlast depth
      · obtain ⟨_, hmembers, heq⟩ := map_eq_ok hread
        cases heq
        exact classRest_primitive hopen hclose hlow (.inl ⟨_, hmembers⟩) depth

/-! ## Whole classes -/

/-- The places at which the reading of a class stands: in front of a member, an
operator or a bracket. -/
inductive ClassVisits (flags : Flags) :
    ClassFrame → List ClassFrame → List Char → List Char → Prop
  | here {frame : ClassFrame} {outer : List ClassFrame} {text : List Char} :
      ClassVisits flags frame outer text text
  | later {frame inner : ClassFrame} {outer around : List ClassFrame} {c : Char}
      {text rest after place : List Char} (hskip : skipVerbose flags.verbose text = c :: rest)
      (hstep : classStep flags frame outer c rest = .ok (.reading inner around, after))
      (hlater : ClassVisits flags inner around after place) :
      ClassVisits flags frame outer text place

/-- A place at which counting brackets says the same as reading: no closing bracket
stands directly behind one that opens a class, and no range ends in an opening
bracket. -/
structure IsPlainPlace (flags : Flags) (place : List Char) : Prop where
  opened : ∀ rest, place ≠ '[' :: ']' :: rest
  negated : ∀ rest, place ≠ '[' :: '^' :: ']' :: rest
  range : ∀ c rest low body, place = c :: rest → c ≠ '[' → ClassOp.read? place = none →
    readPrimitive flags.verbose c rest ≠ .ok (low, '-' :: '[' :: body)

/-- A class all of whose places are plain. -/
def IsPlainClass (flags : Flags) (text : List Char) : Prop :=
  ∀ place, ClassVisits flags (openClass flags.verbose text).1 []
    (openClass flags.verbose text).2 place → IsPlainPlace flags place

theorem readLeadingHyphens_false {frame next : ClassFrame} {text after : List Char}
    (hread : readLeadingHyphens false frame text = (next, after)) :
    ∃ hyphens, text = hyphens ++ after ∧ ∀ c ∈ hyphens, c = '-' := by
  fun_induction readLeadingHyphens false frame text with
  | case1 frame rest ih =>
      obtain ⟨hyphens, hrest, hall⟩ := ih hread
      rw [skipVerbose_false] at hrest
      refine ⟨'-' :: hyphens, by rw [hrest, List.cons_append], ?_⟩
      intro c hc
      rcases List.mem_cons.1 hc with rfl | hc
      · rfl
      · exact hall c hc
  | case2 =>
      cases hread
      exact ⟨[], rfl, fun c hc => by cases hc⟩

theorem classRest_hyphens {frame next : ClassFrame} {text after : List Char}
    (hread : readLeadingHyphens false frame text = (next, after)) (depth : Nat) :
    classRest depth text = classRest depth after := by
  obtain ⟨hyphens, rfl, hall⟩ := readLeadingHyphens_false hread
  exact classRest_append_members (fun c hc => hall c hc ▸ by decide) depth after

/-- The start of a class in plain text. -/
theorem openClass_false (text : List Char) :
    openClass false text = match text with
      | '^' :: ']' :: rest =>
          (ClassFrame.add { negated := true } ⟨CharSet.singleton ']', 0⟩, rest)
      | '^' :: rest => readLeadingHyphens false { negated := true } rest
      | ']' :: rest => (ClassFrame.add { negated := false } ⟨CharSet.singleton ']', 0⟩, rest)
      | text => readLeadingHyphens false { negated := false } text := by
  unfold openClass
  simp only [skipVerbose_false]
  rcases text with _ | ⟨first, rest⟩
  · rfl
  · by_cases hfirst : first = '^'
    · subst hfirst
      rcases rest with _ | ⟨second, rest⟩
      · rfl
      · by_cases hsecond : second = ']'
        · subst hsecond
          rfl
        · simp [hsecond]
    · by_cases hclose : first = ']'
      · subst hclose
        rfl
      · simp [hfirst, hclose]

/-- A class within a class, behind its bracket. -/
theorem classRest_openClass {text after : List Char} {frame : ClassFrame}
    (hclose : ∀ rest, text ≠ ']' :: rest) (hnegated : ∀ rest, text ≠ '^' :: ']' :: rest)
    (hopen : openClass false text = (frame, after)) (depth : Nat) :
    classRest depth text = classRest depth after := by
  rw [openClass_false] at hopen
  split at hopen
  · next rest => exact absurd rfl (hnegated rest)
  · rw [classRest_cons_member (by decide)]
    exact classRest_hyphens hopen depth
  · next rest => exact absurd rfl (hclose rest)
  · exact classRest_hyphens hopen depth

theorem isMember_of_namedClass {name : String} {ranges : List (Nat × Nat)}
    (hname : namedClassRanges.lookup name = some ranges) : ∀ c ∈ name.toList, IsMember c := by
  have hkeys : ∀ entry ∈ namedClassRanges, Unicode.hasKeyBytes entry.1 = true := by
    decide
  have hkey := Unicode.isKey_of_lookup
    (fun entry hentry => Unicode.isKey_of_hasKeyBytes (hkeys entry hentry)) hname
  rw [Unicode.IsKey, List.all_eq_true] at hkey
  intro c hc hmem
  have hchar := hkey c hc
  simp only [List.mem_cons, List.not_mem_nil, or_false] at hmem
  rcases hmem with rfl | rfl | rfl <;> revert hchar <;> decide

/-- The name of a class holds no bracket but the one that closes it. -/
theorem members_of_namedClass? {text after : List Char} {set : CharSet} {negated : Bool}
    (hnamed : namedClass? text = some (set, negated, after)) :
    ∃ members, text = members ++ ']' :: after ∧ ∀ c ∈ members, IsMember c := by
  have hcolon : IsMember ':' := by decide
  have hname : ∀ {body after : List Char} {ranges : List (Nat × Nat)},
      body.drop (body.takeWhile (· != ':')).length = ':' :: ']' :: after →
      namedClassRanges.lookup (String.ofList (body.takeWhile (· != ':'))) = some ranges →
      ∃ members, body = members ++ ']' :: after ∧ ∀ c ∈ members, IsMember c := by
    intro body after ranges hdrop hlookup
    refine ⟨body.takeWhile (· != ':') ++ [':'], ?_, fun c hc => ?_⟩
    · calc body
          _ = body.takeWhile (· != ':') ++ body.dropWhile (· != ':') :=
            List.takeWhile_append_dropWhile.symm
          _ = body.takeWhile (· != ':') ++ ':' :: ']' :: after := by
            rw [← hdrop, drop_length_takeWhile]
          _ = _ := by simp
    · rcases List.mem_append.1 hc with hc | hc
      · exact isMember_of_namedClass hlookup c (by simpa using hc)
      · rw [List.mem_singleton.1 hc]
        exact hcolon
  unfold namedClass? at hnamed
  split at hnamed
  · next text =>
      dsimp only at hnamed
      split at hnamed
      · next hdrop hlookup =>
          cases hnamed
          obtain ⟨members, hbody, hmembers⟩ := hname hdrop hlookup
          split at hbody <;> dsimp only at hbody
          · rw [hbody]
            refine ⟨':' :: '^' :: members, rfl, ?_⟩
            intro c hc
            simp only [List.mem_cons] at hc
            rcases hc with rfl | rfl | hc
            · exact hcolon
            · decide
            · exact hmembers c hc
          · rw [hbody]
            refine ⟨':' :: members, rfl, ?_⟩
            intro c hc
            rcases List.mem_cons.1 hc with rfl | hc
            · exact hcolon
            · exact hmembers c hc
      · cases hnamed
  · cases hnamed

theorem members_of_opRead? {text after : List Char} {op : ClassOp}
    (hop : ClassOp.read? text = some (op, after)) :
    ∃ members, text = members ++ after ∧ ∀ c ∈ members, IsMember c := by
  unfold ClassOp.read? at hop
  split at hop
  · cases hop
    exact ⟨['&', '&'], rfl, by simp [IsMember]⟩
  · cases hop
    exact ⟨['-', '-'], rfl, by simp [IsMember]⟩
  · cases hop
    exact ⟨['~', '~'], rfl, by simp [IsMember]⟩
  · cases hop

/-- The screen counts the brackets that are open in a text as the reader does, which leaves
`after` of it in some state. -/
def KeepsCount (outer : List ClassFrame) (text after : List Char) : ClassState → Prop
  | .closed _ => classRest (outer.length + 1) text = some after
  | .reading _ around => classRest (outer.length + 1) text = classRest (around.length + 1) after

section

variable {flags : Flags} {frame : ClassFrame} {outer : List ClassFrame} {rest after : List Char}
  {state : ClassState}

theorem keepsCount_opening (hverbose : flags.verbose = false)
    (hplain : IsPlainPlace flags ('[' :: rest))
    (hstep : classStep flags frame outer '[' rest = .ok (state, after)) :
    KeepsCount outer ('[' :: rest) after state := by
  unfold classStep at hstep
  dsimp only at hstep
  rw [if_pos (beq_self_eq_true _)] at hstep
  cases hnamed : namedClass? rest with
  | some found =>
      obtain ⟨set, negated, behind⟩ := found
      rw [hnamed] at hstep
      obtain ⟨_, _, heq⟩ := map_eq_ok hstep
      cases heq
      obtain ⟨members, rfl, hmembers⟩ := members_of_namedClass? hnamed
      dsimp only [KeepsCount]
      rw [classRest, classRest_append_members hmembers, classRest, if_neg (by omega)]
      rfl
  | none =>
      rw [hnamed] at hstep
      cases hstep
      have hinner : openClass false rest =
          ((openClass flags.verbose rest).1, (openClass flags.verbose rest).2) := by
        rw [hverbose]
      dsimp only [KeepsCount]
      rw [classRest]
      exact classRest_openClass (fun tail heq => hplain.opened tail (heq ▸ rfl))
        (fun tail heq => hplain.negated tail (heq ▸ rfl)) hinner _

theorem keepsCount_closing (hstep : classStep flags frame outer ']' rest = .ok (state, after)) :
    KeepsCount outer (']' :: rest) after state := by
  obtain ⟨closed, hclosed, heq⟩ := map_eq_ok hstep
  cases heq
  obtain ⟨_, _, rfl⟩ := map_eq_ok hclosed
  cases outer with
  | nil => rfl
  | cons parent outer =>
      dsimp only [KeepsCount]
      rw [classRest, if_neg (by simp)]
      rfl

/-- One step of reading changes the count of open brackets as the screen does. -/
theorem keepsCount_classStep {c : Char} (hverbose : flags.verbose = false)
    (hplain : IsPlainPlace flags (c :: rest))
    (hstep : classStep flags frame outer c rest = .ok (state, after)) :
    KeepsCount outer (c :: rest) after state := by
  by_cases hopen : c = '['
  · subst hopen
    exact keepsCount_opening hverbose hplain hstep
  by_cases hclose : c = ']'
  · subst hclose
    exact keepsCount_closing hstep
  unfold classStep at hstep
  dsimp only at hstep
  rw [if_neg (by simpa using hopen), if_neg (by simpa using hclose)] at hstep
  cases hop : ClassOp.read? (c :: rest) with
  | some found =>
      obtain ⟨op, behind⟩ := found
      rw [hop] at hstep
      cases hstep
      obtain ⟨members, htext, hmembers⟩ := members_of_opRead? hop
      dsimp only [KeepsCount]
      rw [htext]
      exact classRest_append_members hmembers _ _
  | none =>
      rw [hop] at hstep
      obtain ⟨⟨_, _⟩, hmember, heq⟩ := map_eq_ok hstep
      cases heq
      exact classRest_member hverbose hopen hclose
        (fun low body => hplain.range c rest low body rfl hopen hop) hmember _

end

theorem classRest_readClassFrom {flags : Flags} (hverbose : flags.verbose = false)
    {frame : ClassFrame} {outer : List ClassFrame} {text after : List Char} {value : ClassValue}
    (hplain : ∀ place, ClassVisits flags frame outer text place → IsPlainPlace flags place)
    (hread : readClassFrom flags frame outer text = .ok (value, after)) :
    classRest (outer.length + 1) text = some after := by
  fun_induction readClassFrom flags frame outer text with
  | case1 => cases hread
  | case2 => cases hread
  | case3 frame outer text c rest htext value' after' hstep =>
      cases hread
      have hplace := hplain text .here
      rw [hverbose, skipVerbose_false] at htext
      subst htext
      exact keepsCount_classStep hverbose hplace hstep
  | case4 frame outer text c rest htext inner around after' hstep ih =>
      have hplace := hplain text .here
      have hlater := ih (fun place hvisits => hplain place (.later htext hstep hvisits)) hread
      rw [hverbose, skipVerbose_false] at htext
      subst htext
      exact (keepsCount_classStep hverbose hplace hstep).trans hlater

/-- The text of a class behind its opening bracket, the negation and a closing bracket that
is its first member. -/
def classInside (text : List Char) : List Char :=
  match text with
  | '^' :: ']' :: rest => rest
  | '^' :: rest => rest
  | ']' :: rest => rest
  | text => text

theorem classExtent_of_classRest {text after : List Char}
    (hrest : classRest 1 (classInside text) = some after) :
    ∃ extent, classExtent text = .ok extent ∧ text.drop extent = after := by
  have htail := classTail_of_classRest hrest
  unfold classInside at htail
  unfold classExtent
  split at htail <;> obtain ⟨extent, hextent, hdrop⟩ := htail
  · exact ⟨extent + 2, by simp [hextent, Except.map], hdrop⟩
  · exact ⟨extent + 1, by simp [hextent, Except.map], hdrop⟩
  · exact ⟨extent + 1, by simp [hextent, Except.map], hdrop⟩
  · exact ⟨extent, by simp [hextent], hdrop⟩

theorem classRest_of_readClass {flags : Flags} (hverbose : flags.verbose = false)
    {text after : List Char} {value : ClassValue} (hplain : IsPlainClass flags text)
    (hread : readClass flags text = .ok (value, after)) :
    classRest 1 (classInside text) = some after := by
  have hrest := classRest_readClassFrom hverbose hplain hread
  rw [hverbose, openClass_false] at hrest
  unfold classInside
  split at hrest
  · exact hrest
  · rw [← classRest_hyphens (Prod.eta _).symm] at hrest
    exact hrest
  · exact hrest
  · rw [← classRest_hyphens (Prod.eta _).symm] at hrest
    exact hrest

/-- The screen and the reader find the same end of a plain class. -/
theorem classExtent_of_readClass {flags : Flags} (hverbose : flags.verbose = false)
    {text after : List Char} {value : ClassValue} (hplain : IsPlainClass flags text)
    (hread : readClass flags text = .ok (value, after)) :
    ∃ extent, classExtent text = .ok extent ∧ text.drop extent = after :=
  classExtent_of_classRest (classRest_of_readClass hverbose hplain hread)

end WorkflowAudit.Pattern
