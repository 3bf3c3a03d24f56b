import WorkflowAudit.Proofs.Text.Pieces
import WorkflowAudit.Unicode.Property

/-!
# Names of properties

The tables of properties, categories, scripts and their values are keyed by
digits, small letters and dots.  A name that stands for anything is therefore made
of letters, digits, dots and what the comparison of names ignores, and holds no
character that means something to a reader of expressions.
-/

namespace WorkflowAudit.Unicode

open Text

def isKeyChar (c : Char) : Bool := isDecimalDigit c || ('a' ≤ c && c ≤ 'z') || c == '.'

def IsKey (name : String) : Prop := name.toList.all isKeyChar = true

instance (name : String) : Decidable (IsKey name) :=
  inferInstanceAs (Decidable (name.toList.all isKeyChar = true))

/-- Characters that a name can hold: those of keys in either case, and those that
its normal form leaves out. -/
def isNameChar (c : Char) : Bool :=
  isDecimalDigit c || isAsciiLetter c || c == '.' || c == ' ' || c == '_' || c == '-' ||
    !(c.toNat < 0x80)

/-! ## Keys of the tables -/

/-- A byte of a key.  Tables are checked by the bytes of their keys, which costs less than
decoding them. -/
def isKeyByte (b : UInt8) : Bool :=
  (0x30 ≤ b.toNat && b.toNat ≤ 0x39) || (0x61 ≤ b.toNat && b.toNat ≤ 0x7A) || b.toNat == 0x2E

def hasKeyBytes (name : String) : Bool := name.toByteArray.data.toList.all isKeyByte

theorem isKeyByte_ofNat {code : Nat} (hbyte : isKeyByte (UInt8.ofNat code) = true)
    (hcode : code < 0x100) :
    0x30 ≤ code ∧ code ≤ 0x39 ∨ 0x61 ≤ code ∧ code ≤ 0x7A ∨ code = 0x2E := by
  simp only [isKeyByte, UInt8.toNat_ofNat', Bool.or_eq_true, Bool.and_eq_true, decide_eq_true_eq,
    beq_iff_eq] at hbyte
  omega

theorem isKeyChar_of_isKeyByte {c : Char}
    (hbytes : ∀ b ∈ String.utf8EncodeChar c, isKeyByte b = true) : isKeyChar c = true := by
  unfold String.utf8EncodeChar at hbytes
  dsimp only at hbytes
  split_ifs at hbytes with hone htwo hthree
  · have hcode := isKeyByte_ofNat (hbytes _ List.mem_cons_self) (by omega)
    simp only [isKeyChar, isDecimalDigit, Bool.or_eq_true, Bool.and_eq_true, decide_eq_true_eq,
      beq_iff_eq, Char.le_def, UInt32.le_iff_toNat_le]
    rcases hcode with hdigit | hletter | hdot
    · exact .inl (.inl hdigit)
    · exact .inl (.inr hletter)
    · exact .inr (Char.ext (UInt32.toNat_inj.1 hdot))
  -- The first of several bytes is in no key.
  all_goals
    have hcode := isKeyByte_ofNat (hbytes _ List.mem_cons_self) (by omega)
    omega

theorem isKey_of_hasKeyBytes {name : String} (hname : hasKeyBytes name = true) : IsKey name := by
  rw [hasKeyBytes, ← String.utf8Encode_toList, List.utf8Encode, List.toList_data_toByteArray,
    List.all_eq_true] at hname
  rw [IsKey, List.all_eq_true]
  intro c hc
  exact isKeyChar_of_isKeyByte fun b hb => hname b (List.mem_flatMap.2 ⟨c, hc, hb⟩)

/-- The keys of all tables. -/
def tableKeys : List (List String) :=
  [propertyData.map Prod.fst, propertyAliases.map Prod.fst, categoryData.map Prod.fst,
    categoryAliases.map Prod.fst, categoryGroups.map Prod.fst, scriptData.flatMap Prod.fst,
    ageData.flatMap Prod.fst, graphemeBreakData.flatMap Prod.fst, wordBreakData.flatMap Prod.fst,
    sentenceBreakData.flatMap Prod.fst]

theorem isKey_of_mem_tableKeys {keys : List String} (hkeys : keys ∈ tableKeys) :
    ∀ name ∈ keys, IsKey name := by
  have hbytes : (tableKeys.all fun keys => keys.all hasKeyBytes) = true := by
    decide +kernel
  rw [List.all_eq_true] at hbytes
  exact fun name hname => isKey_of_hasKeyBytes (List.all_eq_true.1 (hbytes keys hkeys) name hname)

theorem isKey_of_map_mem {α : Type} {table : List (String × α)}
    (htable : table.map Prod.fst ∈ tableKeys) : ∀ entry ∈ table, IsKey entry.1 :=
  fun _ hentry => isKey_of_mem_tableKeys htable _ (List.mem_map_of_mem hentry)

theorem isKey_of_flatMap_mem {α : Type} {table : List (List String × α)}
    (htable : table.flatMap Prod.fst ∈ tableKeys) :
    ∀ entry ∈ table, ∀ name ∈ entry.1, IsKey name :=
  fun entry hentry name hname =>
    isKey_of_mem_tableKeys htable name (List.mem_flatMap.2 ⟨entry, hentry, hname⟩)

theorem isKey_propertyData : ∀ entry ∈ propertyData, IsKey entry.1 :=
  isKey_of_map_mem (by simp [tableKeys])

theorem isKey_propertyAliases : ∀ entry ∈ propertyAliases, IsKey entry.1 :=
  isKey_of_map_mem (by simp [tableKeys])

theorem isKey_categoryData : ∀ entry ∈ categoryData, IsKey entry.1 :=
  isKey_of_map_mem (by simp [tableKeys])

theorem isKey_categoryAliases : ∀ entry ∈ categoryAliases, IsKey entry.1 :=
  isKey_of_map_mem (by simp [tableKeys])

theorem isKey_categoryGroups : ∀ entry ∈ categoryGroups, IsKey entry.1 :=
  isKey_of_map_mem (by simp [tableKeys])

theorem isKey_scriptData : ∀ entry ∈ scriptData, ∀ name ∈ entry.1, IsKey name :=
  isKey_of_flatMap_mem (by simp [tableKeys])

theorem isKey_ageData : ∀ entry ∈ ageData, ∀ name ∈ entry.1, IsKey name :=
  isKey_of_flatMap_mem (by simp [tableKeys])

theorem isKey_breakData :
    ∀ classes ∈ [graphemeBreakData, wordBreakData, sentenceBreakData],
      ∀ entry ∈ classes, ∀ name ∈ entry.1, IsKey name := by
  intro classes hclasses
  apply isKey_of_flatMap_mem
  simp only [List.mem_cons, List.not_mem_nil, or_false] at hclasses
  rcases hclasses with rfl | rfl | rfl <;> simp [tableKeys]

/-! ## Names in normal form -/

theorem isKey_of_lookup {α : Type} {table : List (String × α)}
    (htable : ∀ entry ∈ table, IsKey entry.1) {name : String} {value : α}
    (hfound : table.lookup name = some value) : IsKey name := by
  induction table with
  | nil => cases hfound
  | cons entry table ih =>
      rw [List.lookup_cons] at hfound
      by_cases heq : name = entry.1
      · exact heq ▸ htable entry List.mem_cons_self
      · rw [beq_false_of_ne heq] at hfound
        exact ih (fun entry hmem => htable entry (.tail _ hmem)) hfound

theorem isKey_of_find? {α : Type} {table : List (List String × α)}
    (htable : ∀ entry ∈ table, ∀ name ∈ entry.1, IsKey name) {name : String}
    {entry : List String × α} (hfound : table.find? (·.1.contains name) = some entry) :
    IsKey name := by
  refine htable entry (List.mem_of_find?_eq_some hfound) name ?_
  simpa using List.find?_some hfound

theorem isKey_of_derived? {name : String} {set : CharSet} (hfound : derived? name = some set) :
    IsKey name := by
  unfold derived? at hfound
  split at hfound
  all_goals first | exact isKey_of_hasKeyBytes rfl | cases hfound

/-- A name that has an alias is a key, and so is one that is a key without. -/
theorem isKey_of_alias {aliases : List (String × String)}
    (haliases : ∀ entry ∈ aliases, IsKey entry.1) {name : String}
    (hkey : IsKey ((aliases.lookup name).getD name)) : IsKey name := by
  cases halias : aliases.lookup name with
  | some short => exact isKey_of_lookup haliases halias
  | none =>
      rw [halias] at hkey
      exact hkey

theorem isKey_of_binaryProperty? {name : String} {set : CharSet}
    (hfound : binaryProperty? name = some set) : IsKey name := by
  apply isKey_of_alias isKey_propertyAliases
  rcases Option.or_eq_some_iff.1 hfound with hderived | ⟨-, hlisted⟩
  · exact isKey_of_derived? hderived
  · obtain ⟨data, hdata, -⟩ := Option.map_eq_some_iff.1 hlisted
    exact isKey_of_lookup isKey_propertyData hdata

theorem isKey_of_generalCategory? {name : String} {set : CharSet}
    (hfound : generalCategory? name = some set) : IsKey name := by
  apply isKey_of_alias isKey_categoryAliases
  unfold generalCategory? at hfound
  generalize (categoryAliases.lookup name).getD name = short at *
  dsimp only at hfound
  by_cases hspecial : short ∈ ["any", "ascii", "assigned", "cn", "c"]
  · have hkeys : ∀ key ∈ ["any", "ascii", "assigned", "cn", "c"], hasKeyBytes key = true := by
      decide
    exact isKey_of_hasKeyBytes (hkeys short hspecial)
  · simp only [List.mem_cons, not_or] at hspecial
    obtain ⟨hany, hascii, hassigned, hcn, hc, -⟩ := hspecial
    rw [if_neg hany, if_neg hascii, if_neg hassigned, if_neg hcn, if_neg hc] at hfound
    split at hfound
    · next hgroup => exact isKey_of_lookup isKey_categoryGroups hgroup
    · split at hfound
      · next hdata =>
          obtain ⟨data, hdata⟩ := Option.isSome_iff_exists.1 hdata
          exact isKey_of_lookup isKey_categoryData hdata
      · cases hfound

theorem isKey_of_script? {name : String} {set : CharSet} (hfound : script? name = some set) :
    IsKey name := by
  obtain ⟨entry, hentry, -⟩ := Option.map_eq_some_iff.1 hfound
  exact isKey_of_find? isKey_scriptData hentry

theorem isKey_of_scriptExtension? {name : String} {set : CharSet}
    (hfound : scriptExtension? name = some set) : IsKey name := by
  obtain ⟨entry, hentry, -⟩ := Option.map_eq_some_iff.1 hfound
  exact isKey_of_find? isKey_scriptData hentry

theorem isKey_of_breakClass? {classes : List (List String × String)}
    (hclasses : classes ∈ [graphemeBreakData, wordBreakData, sentenceBreakData]) {name : String}
    {set : CharSet} (hfound : breakClass? classes name = some set) : IsKey name := by
  obtain ⟨entry, hentry, -⟩ := Option.map_eq_some_iff.1 hfound
  exact isKey_of_find? (isKey_breakData classes hclasses) hentry

theorem isKey_of_age? {name : String} {set : CharSet} (hfound : age? name = some set) :
    IsKey name := by
  obtain ⟨entry, hentry, -⟩ := Option.map_eq_some_iff.1 hfound
  rw [drop_length_takeWhile] at hentry
  have hmem : entry ∈ ageData :=
    (List.dropWhile_suffix _).subset (List.mem_of_head? hentry)
  have hname := List.head?_dropWhile_not (fun entry => !entry.1.contains name) ageData
  rw [hentry] at hname
  exact isKey_ageData entry hmem name (by simpa using hname)

/-! ## Names in any spelling -/

theorem isNameChar_of_isKeyChar_toLower {c : Char} (hc : isKeyChar c.toLower = true) :
    isNameChar c = true := by
  unfold Char.toLower at hc
  split at hc
  · next hupper =>
      have hletter : isAsciiLetter c = true := by
        simpa [isAsciiLetter, Char.le_def] using Or.inr hupper
      simp [isNameChar, hletter]
  · simp only [isKeyChar, isNameChar, isAsciiLetter, Bool.or_eq_true, Bool.and_eq_true] at hc ⊢
    tauto

/-- A name whose normal form is a key holds no characters but those of names. -/
theorem isNameChar_of_isKey_normalName {name : String} (hkey : IsKey (normalName name)) :
    ∀ c ∈ name.toList, isNameChar c = true := by
  unfold normalName at hkey
  generalize name.toList = chars at *
  dsimp only at hkey
  generalize hmarked : ((chars.take 2).map Char.toLower == ['i', 's']) = marked at *
  -- What is compared: all characters, or those behind the mark.
  have hrest : ∀ c ∈ (if marked then chars.drop 2 else chars), isNameChar c = true := by
    intro c hmem
    generalize hkept : (if marked then chars.drop 2 else chars).filter (fun c =>
      c != ' ' && c != '_' && c != '-' && c.toNat < 0x80) = kept at *
    by_cases hc : (c != ' ' && c != '_' && c != '-' && decide (c.toNat < 0x80)) = true
    · apply isNameChar_of_isKeyChar_toLower
      have hnormal : c.toLower ∈ kept.map Char.toLower := by
        rw [← hkept]
        exact List.mem_map_of_mem (List.mem_filter.2 ⟨hmem, hc⟩)
      split at hkey
      · next hisc =>
          have hone : kept.map Char.toLower = ['c'] := by
            simpa using (Bool.and_eq_true_iff.1 hisc).2
          rw [hone, List.mem_singleton] at hnormal
          rw [hnormal]
          decide
      · rw [IsKey, String.toList_ofList, List.all_eq_true] at hkey
        exact hkey _ hnormal
    · simp only [isNameChar, Bool.or_eq_true, beq_iff_eq, Bool.not_eq_true',
        decide_eq_false_iff_not]
      simp only [Bool.and_eq_true, bne_iff_ne, ne_eq, decide_eq_true_eq] at hc
      tauto
  intro c hmem
  cases marked with
  | false => exact hrest c hmem
  | true =>
      rw [← List.take_append_drop 2 chars] at hmem
      rcases List.mem_append.1 hmem with hfront | hback
      · apply isNameChar_of_isKeyChar_toLower
        have hlower := List.mem_map_of_mem (f := Char.toLower) hfront
        rw [beq_iff_eq.1 hmarked] at hlower
        simp only [List.mem_cons, List.not_mem_nil, or_false] at hlower
        rcases hlower with hi | hs
        · rw [hi]
          decide
        · rw [hs]
          decide
      · exact hrest c hback

theorem isNameChar_of_named? {name : String} {set : CharSet} (hfound : named? name = some set) :
    ∀ c ∈ name.toList, isNameChar c = true := by
  apply isNameChar_of_isKey_normalName
  unfold named? at hfound
  dsimp only at hfound
  rcases Option.or_eq_some_iff.1 hfound with hproperty | ⟨-, hother⟩
  · split at hproperty
    · cases hproperty
    · exact isKey_of_binaryProperty? hproperty
  · rcases Option.or_eq_some_iff.1 hother with hcategory | ⟨-, hscript⟩
    · exact isKey_of_generalCategory? hcategory
    · exact isKey_of_script? hscript

/-- Names are compared without their blanks, and the empty name stands for nothing. -/
theorem isBlank_of_named? {c : Char} {set : CharSet}
    (hfound : named? (String.ofList [c]) = some set) : isBlank c = false := by
  rw [← Bool.not_eq_true]
  intro hblank
  have hname := isNameChar_of_named? hfound c (by simp)
  have hdropped : c = ' ' ∨ ¬ c.toNat < 0x80 := by
    simp only [isNameChar, Bool.or_eq_true, beq_iff_eq, Bool.not_eq_true',
      decide_eq_false_iff_not] at hname
    rcases hname with (((((hdigit | hletter) | rfl) | hspace) | rfl) | rfl) | hother
    · rw [isBlank_of_isDecimalDigit hdigit] at hblank
      cases hblank
    · rw [isBlank_of_isAsciiLetter hletter] at hblank
      cases hblank
    · cases hblank
    · exact .inl hspace
    · cases hblank
    · cases hblank
    · exact .inr hother
  have hnormal : normalName (String.ofList [c]) = normalName "" := by
    rcases hdropped with rfl | hc
    · decide
    · simp [normalName, hc]
  have hempty : (named? "").isNone = true := by
    decide +kernel
  unfold named? at hfound hempty
  rw [hnormal] at hfound
  rw [hfound] at hempty
  cases hempty

theorem isNameChar_of_valued? {property value : String} {set : CharSet}
    (hfound : valued? property value = some set) :
    (∀ c ∈ property.toList, isNameChar c = true) ∧ ∀ c ∈ value.toList, isNameChar c = true := by
  have hkeys : ∀ key ∈ ["gc", "generalcategory", "sc", "script", "scx", "scriptextensions", "age",
      "gcb", "graphemeclusterbreak", "wb", "wordbreak", "sb", "sentencebreak"],
      hasKeyBytes key = true := by
    decide
  suffices hboth : IsKey (normalName property) ∧ IsKey (normalName value) from
    ⟨isNameChar_of_isKey_normalName hboth.1, isNameChar_of_isKey_normalName hboth.2⟩
  unfold valued? at hfound
  generalize normalName property = property at *
  generalize normalName value = value at *
  dsimp only at hfound
  split at hfound
  case h_14 => cases hfound
  all_goals refine ⟨isKey_of_hasKeyBytes (hkeys _ (by simp)), ?_⟩
  · exact isKey_of_generalCategory? hfound
  · exact isKey_of_generalCategory? hfound
  · exact isKey_of_script? hfound
  · exact isKey_of_script? hfound
  · exact isKey_of_scriptExtension? hfound
  · exact isKey_of_scriptExtension? hfound
  · exact isKey_of_age? hfound
  all_goals exact isKey_of_breakClass? (by simp) hfound

end WorkflowAudit.Unicode
