import WorkflowAudit.Proofs.Table
import WorkflowAudit.Proofs.Text.Pieces
import WorkflowAudit.Repository.Tree

/-!
# Paths in a tree of files

A file of a tree stands at the end of some names, and its path has a slash between
neighbours.  In a tree as a file system holds it, a path below a directory leads where its
names lead from that directory, however the directory itself was reached.
-/

namespace WorkflowAudit

open Text

/-! ## Names and paths -/

/-- A name that is one segment of a path, and no way to stay or to go back. -/
structure IsName (name : String) : Prop where
  ne_empty : name ≠ ""
  ne_here : name ≠ "."
  ne_back : name ≠ ".."
  slash_not_mem : '/' ∉ name.toList

instance (name : String) : Decidable (IsName name) :=
  decidable_of_iff (name ≠ "" ∧ name ≠ "." ∧ name ≠ ".." ∧ '/' ∉ name.toList)
    ⟨fun ⟨hempty, hhere, hback, hslash⟩ => ⟨hempty, hhere, hback, hslash⟩,
      fun ⟨hempty, hhere, hback, hslash⟩ => ⟨hempty, hhere, hback, hslash⟩⟩

/-- The names with a slash between neighbours. -/
def pathOf (names : List String) : String :=
  String.ofList (joinWith ['/'] (names.map String.toList))

theorem toList_pathOf_cons (name : String) (names : List String) :
    (pathOf (name :: names)).toList =
      name.toList ++ names.flatMap fun next => '/' :: next.toList := by
  induction names generalizing name with
  | nil => simp [pathOf, joinWith]
  | cons next names ih =>
      have hnext := ih next
      rw [pathOf, String.toList_ofList] at hnext ⊢
      rw [List.map_cons, List.map_cons, joinWith, ← List.map_cons, hnext]
      · simp
      · simp

theorem pathOf_concat {names : List String} (hnames : names ≠ []) (last : String) :
    (pathOf (names ++ [last])).toList = (pathOf names).toList ++ '/' :: last.toList := by
  obtain ⟨name, names, rfl⟩ := List.exists_cons_of_ne_nil hnames
  rw [List.cons_append, toList_pathOf_cons, toList_pathOf_cons]
  simp

theorem splitOn_pathOf_cons {name : String} {names : List String}
    (hnames : ∀ next ∈ name :: names, '/' ∉ next.toList) :
    splitOn '/' (pathOf (name :: names)).toList = (name :: names).map String.toList := by
  induction names generalizing name with
  | nil =>
      rw [toList_pathOf_cons, List.flatMap_nil, List.append_nil]
      exact splitOn_of_not_mem (hnames name List.mem_cons_self)
  | cons next names ih =>
      have hrest := ih fun other hother => hnames other (.tail _ hother)
      rw [toList_pathOf_cons] at hrest ⊢
      rw [List.flatMap_cons, List.cons_append,
        splitOn_append_separator (hnames name List.mem_cons_self), hrest]
      rfl

/-- Cutting a path at its slashes gives the names back. -/
theorem segments_pathOf {names : List String} (hne : names ≠ [])
    (hnames : ∀ name ∈ names, IsName name) : segments (pathOf names) = names := by
  obtain ⟨name, names, rfl⟩ := List.exists_cons_of_ne_nil hne
  rw [segments, splitOn_pathOf_cons fun next hnext => (hnames next hnext).slash_not_mem,
    List.map_map]
  exact List.map_id'' (fun next => String.ofList_toList) _

theorem pathOf_injOn {names names' : List String} (hne : names ≠ []) (hne' : names' ≠ [])
    (hnames : ∀ name ∈ names, IsName name) (hnames' : ∀ name ∈ names', IsName name)
    (heq : pathOf names = pathOf names') : names = names' := by
  rw [← segments_pathOf hne hnames, heq, segments_pathOf hne' hnames']

theorem IsName.exists_cons {name : String} (hname : IsName name) :
    ∃ c rest, name.toList = c :: rest ∧ c ≠ '/' := by
  cases hchars : name.toList with
  | nil => exact absurd (String.toList_eq_nil_iff.1 hchars) hname.ne_empty
  | cons c rest =>
      refine ⟨c, rest, rfl, ?_⟩
      rintro rfl
      exact hname.slash_not_mem (hchars ▸ List.mem_cons_self)

theorem startsWith_slash_iff {path : String} :
    path.startsWith "/" = true ↔ path.toList.head? = some '/' := by
  rw [String.startsWith_string_iff]
  cases path.toList with
  | nil => decide
  | cons c rest => simp [eq_comm]

theorem startsWith_pathOf {names : List String} (hne : names ≠ [])
    (hnames : ∀ name ∈ names, IsName name) : (pathOf names).startsWith "/" = false := by
  obtain ⟨name, names, rfl⟩ := List.exists_cons_of_ne_nil hne
  obtain ⟨c, rest, hchars, hc⟩ := (hnames name List.mem_cons_self).exists_cons
  rw [← Bool.not_eq_true, startsWith_slash_iff, toList_pathOf_cons, hchars]
  simpa using hc

theorem endsWith_slash_iff {path : String} :
    path.endsWith "/" = true ↔ ∃ front, path.toList = front ++ ['/'] := by
  rw [String.endsWith, String.Slice.endsWith_string_iff, String.copy_toSlice]
  exact ⟨fun ⟨front, h⟩ => ⟨front, h.symm⟩, fun ⟨front, h⟩ => ⟨front, h.symm⟩⟩

theorem endsWith_pathOf {names : List String} (hne : names ≠ [])
    (hnames : ∀ name ∈ names, IsName name) : (pathOf names).endsWith "/" = false := by
  rw [← Bool.not_eq_true, endsWith_slash_iff]
  rintro ⟨front, hfront⟩
  -- A path that ends in a slash has an empty last segment.
  have hsegments := segments_pathOf hne hnames
  rw [segments, hfront, splitOn_append] at hsegments
  have hempty : "" ∈ names := by
    rw [← hsegments]
    simp [splitOn]
  exact (hnames "" hempty).ne_empty rfl

/-- A name below a path is one name more. -/
theorem joinPath_pathOf {names : List String} {last : String} (hne : names ≠ [])
    (hnames : ∀ name ∈ names, IsName name) (hlast : IsName last) :
    joinPath (pathOf names) last = pathOf (names ++ [last]) := by
  have hlast' : last.startsWith "/" = false := by
    obtain ⟨c, rest, hchars, hc⟩ := hlast.exists_cons
    rw [← Bool.not_eq_true, startsWith_slash_iff, hchars]
    simpa using hc
  have hnonempty : (pathOf names).isEmpty = false := by
    obtain ⟨name, names, rfl⟩ := List.exists_cons_of_ne_nil hne
    obtain ⟨c, rest, hchars, -⟩ := (hnames name List.mem_cons_self).exists_cons
    rw [← Bool.not_eq_true, String.isEmpty_iff, ← String.toList_eq_nil_iff, toList_pathOf_cons,
      hchars]
    simp
  apply String.toList_inj.1
  rw [pathOf_concat hne, joinPath, hlast', hnonempty, endsWith_pathOf hne hnames]
  simp [String.toList_append]

namespace Tree

/-! ## Files at the end of names -/

/-- A tree as a file system holds it, with every directory open to be listed: the entries of
a directory have different names. -/
inductive IsProper : Tree → Prop
  | file (content : FileContent) : IsProper (.file content)
  | directory {entries : List (String × Tree)} (hdistinct : (entries.map Prod.fst).Nodup)
      (hnames : ∀ entry ∈ entries, IsName entry.1) (hbelow : ∀ entry ∈ entries, IsProper entry.2) :
      IsProper (.directory entries)

/-- The file at the end of some names. -/
inductive FileAt : Tree → List String → FileContent → Prop
  | here (content : FileContent) : FileAt (.file content) [] content
  | inside {entries : List (String × Tree)} {name : String} {entry : Tree} {names : List String}
      {content : FileContent} (hentry : (name, entry) ∈ entries)
      (hfile : FileAt entry names content) : FileAt (.directory entries) (name :: names) content

/-- What stands at the end of some names. -/
def below? : List String → Tree → Option Tree
  | [], tree => some tree
  | name :: names, tree => (tree.entries.lookup name).bind (below? names)

variable {tree entry : Tree} {entries : List (String × Tree)} {name : String}
  {names front back : List String} {content : FileContent}

@[simp]
theorem fileAt_file_iff {written : FileContent} :
    (Tree.file written).FileAt names content ↔ names = [] ∧ content = written := by
  constructor
  · rintro ⟨⟩
    exact ⟨rfl, rfl⟩
  · rintro ⟨rfl, rfl⟩
    exact .here _

@[simp]
theorem not_fileAt_closed {detail : String} : ¬(Tree.closed detail).FileAt names content :=
  nofun

theorem fileAt_directory_iff :
    (Tree.directory entries).FileAt names content ↔
      ∃ name rest entry, names = name :: rest ∧ (name, entry) ∈ entries ∧
        entry.FileAt rest content := by
  constructor
  · rintro (_ | ⟨hentry, hfile⟩)
    exact ⟨_, _, _, rfl, hentry, hfile⟩
  · rintro ⟨name, rest, entry, rfl, hentry, hfile⟩
    exact .inside hentry hfile

theorem IsProper.lookup_eq_some_iff (hproper : (Tree.directory entries).IsProper) :
    entries.lookup name = some entry ↔ (name, entry) ∈ entries := by
  cases hproper with
  | directory hdistinct _ _ => exact lookup_eq_some_iff_mem_of_nodup hdistinct

theorem IsProper.of_mem (hproper : (Tree.directory entries).IsProper)
    (hentry : (name, entry) ∈ entries) : IsName name ∧ entry.IsProper := by
  cases hproper with
  | directory _ hnames hbelow => exact ⟨hnames _ hentry, hbelow _ hentry⟩

theorem FileAt.isName (hfile : tree.FileAt names content) (hproper : tree.IsProper) :
    ∀ name ∈ names, IsName name := by
  induction hfile with
  | here => simp
  | inside hentry _ ih =>
      obtain ⟨hname, hbelow⟩ := hproper.of_mem hentry
      exact List.forall_mem_cons.2 ⟨hname, ih hbelow⟩

/-- A file below some names is a file of what stands at their end. -/
theorem fileAt_append_iff (hproper : tree.IsProper) (front back : List String) :
    tree.FileAt (front ++ back) content ↔
      ∃ inner, tree.below? front = some inner ∧ inner.FileAt back content := by
  induction front generalizing tree with
  | nil => simp [below?]
  | cons name front ih =>
      cases tree with
      | file written => simp [below?, Tree.entries]
      | closed detail => cases hproper
      | directory entries =>
          simp only [below?, Tree.entries, Option.bind_eq_some_iff, hproper.lookup_eq_some_iff,
            List.cons_append, fileAt_directory_iff, List.cons.injEq]
          constructor
          · rintro ⟨_, _, entry, ⟨rfl, rfl⟩, hentry, hfile⟩
            obtain ⟨inner, hinner, hfile⟩ := (ih (hproper.of_mem hentry).2).1 hfile
            exact ⟨inner, ⟨entry, hentry, hinner⟩, hfile⟩
          · rintro ⟨inner, ⟨entry, hentry, hinner⟩, hfile⟩
            exact ⟨name, front ++ back, entry, ⟨rfl, rfl⟩, hentry,
              (ih (hproper.of_mem hentry).2).2 ⟨inner, hinner, hfile⟩⟩

theorem IsProper.below? (hproper : tree.IsProper) (hbelow : tree.below? names = some entry) :
    entry.IsProper := by
  induction names generalizing tree with
  | nil =>
      cases hbelow
      exact hproper
  | cons name names ih =>
      cases tree with
      | file written | closed detail => cases hbelow
      | directory entries =>
          obtain ⟨next, hnext, hbelow⟩ := Option.bind_eq_some_iff.1 hbelow
          exact ih (hproper.of_mem (hproper.lookup_eq_some_iff.1 hnext)).2 hbelow

/-! ## Walking -/

theorem walk_append (above : List (String × Tree)) (here : Tree) (front back : List String) :
    walk above here (front ++ back) =
      (walk above here front).bind fun (above, here) => walk above here back := by
  induction front generalizing above here with
  | nil => rfl
  | cons name front ih =>
      rw [List.cons_append]
      cases here with
      | file written | closed detail => rfl
      | directory entries =>
          simp only [walk]
          split
          · exact ih above _
          · split
            · cases above with
              | nil => rfl
              | cons left above => exact ih above _
            · cases entries.lookup name with
              | none => rfl
              | some next => exact ih _ next

/-- Names lead on from where the walk stands, whatever it has left behind. -/
theorem walk_names (above : List (String × Tree)) (here : Tree)
    (hnames : ∀ name ∈ names, IsName name) :
    (walk above here names).map Prod.snd = here.below? names := by
  induction names generalizing above here with
  | nil => rfl
  | cons name names ih =>
      have hname := hnames name List.mem_cons_self
      cases here with
      | file written | closed detail => rfl
      | directory entries =>
          have hstay : (name == "" || name == ".") = false := by
            simp [hname.ne_empty, hname.ne_here]
          have hback : (name == "..") = false := by
            simp [hname.ne_back]
          simp only [walk, hstay, hback, Bool.false_eq_true, if_false, below?, Tree.entries]
          cases entries.lookup name with
          | none => rfl
          | some next => exact ih _ next fun other hother => hnames other (.tail _ hother)

theorem find?_of_relative {path : String} (hrelative : path.startsWith "/" = false) :
    tree.find? path = (walk [] tree (segments path)).map Prod.snd := by
  have hdevice : (path == nullDevice) = false := by
    rw [beq_eq_false_iff_ne]
    rintro rfl
    exact absurd hrelative (by decide +kernel)
  rw [find?, hdevice, hrelative]
  rfl

theorem find?_here : (Tree.directory entries).find? "." = some (.directory entries) := by
  have hsegments : segments "." = ["."] := by decide +kernel
  rw [find?_of_relative (by decide +kernel), hsegments]
  simp [walk]

/-- A directory is found under a relative path only. -/
theorem startsWith_of_find?_eq_directory {path : String}
    (hfind : tree.find? path = some (.directory entries)) : path.startsWith "/" = false := by
  rw [← Bool.not_eq_true]
  intro habsolute
  rw [find?, habsolute] at hfind
  split at hfind <;> cases hfind

theorem segments_append (front back : String) :
    segments (front ++ "/" ++ back) = segments front ++ segments back := by
  simp [segments, splitOn_append]

/-- The names of a path below a directory stand behind a way to that directory. -/
theorem exists_segments_joinPath {root below : String}
    (hroot : tree.find? root = some (.directory entries))
    (hbelow : below.startsWith "/" = false) :
    ∃ front above, segments (joinPath root below) = front ++ segments below ∧
      walk [] tree front = some (above, .directory entries) ∧
      (joinPath root below).startsWith "/" = false := by
  have hrelative := startsWith_of_find?_eq_directory hroot
  rw [find?_of_relative hrelative] at hroot
  obtain ⟨⟨above, _⟩, hwalk, rfl⟩ := Option.map_eq_some_iff.1 hroot
  rw [joinPath, hbelow, Bool.false_or]
  by_cases hempty : root.isEmpty = true
  · rw [if_pos hempty]
    obtain rfl := String.isEmpty_iff.1 hempty
    have hstart : walk [] tree [""] = some (above, .directory entries) := hwalk
    cases tree with
    | file written | closed detail => cases hstart
    | directory written => exact ⟨[], above, rfl, hstart, hbelow⟩
  rw [if_neg hempty]
  have hfirst : ∀ rest : String, (root ++ rest).startsWith "/" = false := by
    intro rest
    rw [← Bool.not_eq_true, startsWith_slash_iff] at hrelative ⊢
    rw [String.toList_append, List.head?_append_of_ne_nil]
    · exact hrelative
    · rwa [Ne, String.toList_eq_nil_iff, ← String.isEmpty_iff]
  by_cases hslash : root.endsWith "/" = true
  · rw [if_pos hslash]
    obtain ⟨front, hfront⟩ := endsWith_slash_iff.1 hslash
    obtain rfl : root = String.ofList front ++ "/" := by
      apply String.toList_inj.1
      simp [hfront]
    refine ⟨segments (String.ofList front), above, segments_append _ _, ?_, hfirst below⟩
    -- The segment behind the slash is empty, and stays where the walk is.
    have hempty : segments (String.ofList front ++ "/") = segments (String.ofList front) ++ [""] := by
      simp [segments, splitOn_append, splitOn]
    rw [hempty, walk_append] at hwalk
    obtain ⟨⟨above', here⟩, hfront', hstay⟩ := Option.bind_eq_some_iff.1 hwalk
    cases here with
    | file written | closed detail => cases hstay
    | directory written =>
        cases hstay
        exact hfront'
  · rw [if_neg hslash]
    refine ⟨segments root, above, segments_append root below, hwalk, ?_⟩
    rw [String.append_assoc]
    exact hfirst ("/" ++ below)

/-- A path below a directory leads where its names lead from there. -/
theorem find?_joinPath {root : String} (hroot : tree.find? root = some (.directory entries))
    (hne : names ≠ []) (hnames : ∀ name ∈ names, IsName name) :
    tree.find? (joinPath root (pathOf names)) = (Tree.directory entries).below? names := by
  obtain ⟨front, above, hsegments, hwalk, hrelative⟩ :=
    exists_segments_joinPath hroot (startsWith_pathOf hne hnames)
  calc tree.find? (joinPath root (pathOf names))
    _ = (walk [] tree (front ++ names)).map Prod.snd := by
        rw [find?_of_relative hrelative, hsegments, segments_pathOf hne hnames]
    _ = (walk above (.directory entries) names).map Prod.snd := by
        rw [walk_append, hwalk, Option.bind_some]
    _ = (Tree.directory entries).below? names := walk_names above _ hnames

end Tree

end WorkflowAudit
