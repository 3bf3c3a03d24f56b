import WorkflowAudit.Proofs.CommandLine.Check
import WorkflowAudit.Proofs.Repository.Paths
import WorkflowAudit.Proofs.Text.ByteOrder
import WorkflowAudit.Repository.Discovery

/-!
# What is found in a repository

The walk lists files directory by directory and sorts them at the end.  Where every
directory can be listed, it finds every definition and nothing else: the workflows directly
in their directory and the bundles at the root and at any depth below the actions, each
once, ascending by the bytes of its path.  No other file has a say in the result.
-/

namespace WorkflowAudit

open Text

/-! ## Paths of definitions -/

/-- A name that goes on behind its last dot with `extension`, and does not begin with
that dot. -/
def HasExtension (name extension : String) : Prop :=
  ∃ stem, stem ≠ [] ∧ name.toList = stem ++ '.' :: extension.toList ∧ '.' ∉ extension.toList

/-- The names that lead to a workflow. -/
def IsWorkflowPath (names : List String) : Prop :=
  ∃ name, names = [".github", "workflows", name] ∧
    (HasExtension name "yml" ∨ HasExtension name "yaml")

/-- The names that lead to a step bundle. -/
def IsBundlePath (names : List String) : Prop :=
  ∃ above name, names = above ++ [name] ∧ (name = "action.yml" ∨ name = "action.yaml") ∧
    (above = [] ∨ ∃ below, above = ".github" :: "actions" :: below)

/-- A file of a tree, by its names. -/
def Tree.Holds (tree : Tree) (names : List String) (file : FoundFile) : Prop :=
  tree.FileAt names file.content ∧ file.path = pathOf names

theorem fileExtension?_eq_some_iff {name extension : String} :
    fileExtension? name = some extension ↔ HasExtension name extension := by
  have hsplit : ∀ {backwards front : List Char},
      splitFirst? '.' name.toList.reverse = some (backwards, front) ↔
        '.' ∉ backwards.reverse ∧ name.toList = front.reverse ++ '.' :: backwards.reverse := by
    intro backwards front
    rw [splitFirst?_eq_some_iff, List.mem_reverse, List.reverse_eq_iff]
    simp
  constructor
  · intro hextension
    unfold fileExtension? at hextension
    split at hextension
    · next backwards c front hfirst =>
        obtain ⟨hdot, hname⟩ := hsplit.1 hfirst
        cases hextension
        exact ⟨(c :: front).reverse, by simp, by simpa using hname, by simpa using hdot⟩
    · cases hextension
  · rintro ⟨stem, hstem, hname, hdot⟩
    have hfirst := (@hsplit extension.toList.reverse stem.reverse).2 (by simp [hname, hdot])
    unfold fileExtension?
    rw [hfirst]
    cases hreverse : stem.reverse with
    | nil => exact absurd (List.reverse_eq_nil_iff.1 hreverse) hstem
    | cons c front => simp

theorem hasYamlExtension_iff {name : String} :
    hasYamlExtension name = true ↔ HasExtension name "yml" ∨ HasExtension name "yaml" := by
  rw [hasYamlExtension, Bool.or_eq_true, beq_iff_eq, beq_iff_eq, fileExtension?_eq_some_iff,
    fileExtension?_eq_some_iff]

theorem mem_bundleNames_iff {name : String} :
    bundleNames.contains name = true ↔ name = "action.yml" ∨ name = "action.yaml" := by
  simp [bundleNames]

theorem workflowDirectory_eq : workflowDirectory = pathOf [".github", "workflows"] := by
  decide +kernel

theorem actionDirectory_eq : actionDirectory = pathOf [".github", "actions"] := by
  decide +kernel

theorem areNames_workflows : ∀ name ∈ [".github", "workflows"], IsName name := by
  decide

theorem areNames_workflow {name : String} (hname : IsName name) :
    ∀ other ∈ [".github", "workflows", name], IsName other :=
  List.forall_mem_append.2 ⟨areNames_workflows, List.forall_mem_singleton.2 hname⟩

theorem areNames_actions : ∀ name ∈ [".github", "actions"], IsName name := by
  decide

/-! ## Lists of found files -/

theorem mem_foundFile?_iff {path : String} {tree : Tree} {file : FoundFile} :
    foundFile? path tree = some file ↔ tree.FileAt [] file.content ∧ file.path = path := by
  obtain ⟨path', content⟩ := file
  cases tree with
  | file written => simp [foundFile?, eq_comm, and_comm]
  | directory entries => simp [foundFile?, Tree.fileAt_directory_iff]
  | closed detail => simp [foundFile?]

theorem sorted_of_nodup {files : List FoundFile} (hdistinct : (files.map FoundFile.path).Nodup) :
    (sortFiles files).Pairwise fun left right => octets left.path < octets right.path := by
  have hsorted := pairwise_sortFiles files
  have hdistinct' : ((sortFiles files).map FoundFile.path).Nodup :=
    ((List.mergeSort_perm files _).map FoundFile.path).nodup_iff.2 hdistinct
  refine hsorted.imp₂ (fun left right hle hne => ?_) (List.pairwise_map.1 hdistinct')
  exact octets_lt_iff.2 (lt_of_le_of_ne hle hne)

theorem mem_sortFiles_iff {files : List FoundFile} {file : FoundFile} :
    file ∈ sortFiles files ↔ file ∈ files :=
  (List.mergeSort_perm files _).mem_iff

/-- Ascending lists of the same items are one list. -/
theorem eq_of_ascending {α : Type} (key : α → String) {items items' : List α}
    (hitems : items.Pairwise fun left right => octets (key left) < octets (key right))
    (hitems' : items'.Pairwise fun left right => octets (key left) < octets (key right))
    (hmem : ∀ item, item ∈ items ↔ item ∈ items') : items = items' := by
  let before : α → α → Prop := fun left right => octets (key left) < octets (key right)
  have hirrefl : Std.Irrefl before := ⟨fun item => List.lt_irrefl (octets (key item))⟩
  have hantisymm : Std.Antisymm before :=
    ⟨fun left right hlt hgt => absurd (List.lt_trans hlt hgt) (List.lt_irrefl _)⟩
  exact List.Pairwise.eq_of_mem_iff (r := before) hitems hitems' hmem

theorem documents_map_ok (files : List FoundFile) : documents (files.map .ok) = .ok files := by
  induction files with
  | nil => rfl
  | cons file rest ih =>
      rw [List.map_cons, documents, ih]
      rfl

/-- A search that comes upon files only: the ones of a kind, each with a path of its own. -/
def Gathers (encounters : List Encounter) (IsFound : FoundFile → Prop) : Prop :=
  ∃ files : List FoundFile, encounters = files.map .ok ∧ (files.map FoundFile.path).Nodup ∧
    ∀ file, file ∈ files ↔ IsFound file

namespace Gathers

variable {encounters : List Encounter} {IsFound IsFound' : FoundFile → Prop}
  {entries : List (String × Tree)}

theorem documents_eq (hgathers : Gathers encounters IsFound) :
    ∃ files, documents encounters = .ok files ∧ (files.map FoundFile.path).Nodup ∧
      ∀ file, file ∈ files ↔ IsFound file := by
  obtain ⟨files, rfl, hnodup, hmem⟩ := hgathers
  exact ⟨files, documents_map_ok files, hnodup, hmem⟩

theorem congr (hgathers : Gathers encounters IsFound)
    (hiff : ∀ file, IsFound file ↔ IsFound' file) :
    Gathers encounters IsFound' := by
  obtain ⟨files, hfiles, hnodup, hmem⟩ := hgathers
  exact ⟨files, hfiles, hnodup, fun file => (hmem file).trans (hiff file)⟩

theorem nil (hnone : ∀ file, ¬IsFound file) : Gathers [] IsFound :=
  ⟨[], rfl, by simp, fun file => by simpa using hnone file⟩

theorem ofOption (found : Option FoundFile) :
    Gathers (found.map .ok).toList fun file => found = some file := by
  cases found with
  | none => exact nil fun file => nofun
  | some file => exact ⟨[file], rfl, by simp, fun file' => by simp [eq_comm]⟩

/-- Files gathered from the entries of a directory have different paths where a path tells
which entry it comes from. -/
theorem flatMap (hproper : (Tree.directory entries).IsProper)
    {gather : String × Tree → List Encounter} {IsFoundIn : String × Tree → FoundFile → Prop}
    (hentries : ∀ entry ∈ entries, Gathers (gather entry) (IsFoundIn entry))
    (hname : ∀ entry ∈ entries, ∀ entry' ∈ entries, ∀ file file', IsFoundIn entry file →
      IsFoundIn entry' file' → file.path = file'.path → entry.1 = entry'.1) :
    Gathers (entries.flatMap gather) fun file => ∃ entry ∈ entries, IsFoundIn entry file := by
  choose! files hgather hnodup hmem using hentries
  refine ⟨entries.flatMap files, ?_, ?_, fun file => ?_⟩
  · rw [List.map_flatMap]
    exact List.flatMap_congr hgather
  · cases hproper with
    | directory hdistinct _ _ =>
        rw [List.map_flatMap, List.nodup_flatMap]
        refine ⟨hnodup, (List.pairwise_map.1 hdistinct).imp_of_mem ?_⟩
        intro entry entry' hentry hentry' hne path hpath hpath'
        obtain ⟨file, hfile, rfl⟩ := List.mem_map.1 hpath
        obtain ⟨file', hfile', heq⟩ := List.mem_map.1 hpath'
        exact hne (hname entry hentry entry' hentry' file file' ((hmem entry hentry file).1 hfile)
          ((hmem entry' hentry' file').1 hfile') heq.symm)
  · rw [List.mem_flatMap]
    exact exists_congr fun entry => and_congr_right fun hentry => hmem entry hentry file

end Gathers

/-! ## Workflows -/

theorem joinPath_workflowDirectory {name : String} (hname : IsName name) :
    joinPath workflowDirectory name = pathOf [".github", "workflows", name] := by
  rw [workflowDirectory_eq, joinPath_pathOf (by simp) areNames_workflows hname]
  rfl

theorem gathers_workflowEncounters (root : String) {entries : List (String × Tree)}
    (hproper : (Tree.directory entries).IsProper) :
    Gathers (workflowEncounters root (.directory entries)) fun file =>
      ∃ name, (HasExtension name "yml" ∨ HasExtension name "yaml") ∧
        (Tree.directory entries).FileAt [name] file.content ∧
        file.path = pathOf [".github", "workflows", name] := by
  let found? : String × Tree → Option FoundFile := fun entry =>
    if hasYamlExtension entry.1 then foundFile? (joinPath workflowDirectory entry.1) entry.2
    else none
  have hencounters : workflowEncounters root (.directory entries) =
      entries.flatMap fun entry => ((found? entry).map .ok).toList := by
    rw [workflowEncounters, List.filterMap_eq_flatMap_toList]
    refine List.flatMap_congr fun entry _ => ?_
    dsimp only [found?]
    split <;> rfl
  have hfound : ∀ entry ∈ entries, ∀ file, found? entry = some file ↔
      (HasExtension entry.1 "yml" ∨ HasExtension entry.1 "yaml") ∧
        entry.2.FileAt [] file.content ∧ file.path = pathOf [".github", "workflows", entry.1] := by
    intro entry hentry file
    rw [← joinPath_workflowDirectory (hproper.of_mem hentry).1, ← hasYamlExtension_iff,
      ← mem_foundFile?_iff]
    dsimp only [found?]
    split <;> simp [*]
  rw [hencounters]
  refine (Gathers.flatMap hproper (fun entry _ => .ofOption (found? entry)) ?_).congr fun file => ?_
  · intro entry hentry entry' hentry' file file' hfile hfile' heq
    rw [((hfound entry hentry file).1 hfile).2.2, ((hfound entry' hentry' file').1 hfile').2.2]
      at heq
    have heq := pathOf_injOn (by simp) (by simp) (areNames_workflow (hproper.of_mem hentry).1)
      (areNames_workflow (hproper.of_mem hentry').1) heq
    simpa using heq
  · constructor
    · rintro ⟨entry, hentry, hfile⟩
      obtain ⟨hextension, hfile, hpath⟩ := (hfound entry hentry file).1 hfile
      exact ⟨entry.1, hextension, .inside hentry hfile, hpath⟩
    · rintro ⟨name, hextension, hfile, hpath⟩
      obtain ⟨_, _, entry, heq, hentry, hfile⟩ := Tree.fileAt_directory_iff.1 hfile
      cases heq
      exact ⟨(name, entry), hentry, (hfound _ hentry file).2 ⟨hextension, hfile, hpath⟩⟩

/-! ## Bundles -/

/-- The last name is one that a bundle has. -/
def EndsInBundle (names : List String) : Prop :=
  names.getLast? = some "action.yml" ∨ names.getLast? = some "action.yaml"

theorem encountersIn_eq (root path : String) (entries : List (String × Tree)) :
    encountersIn root path entries =
      entries.map fun entry => (entry.1, bundleEncounters root path entry.1 entry.2) := by
  induction entries with
  | nil => rfl
  | cons entry rest ih => rw [encountersIn, ih, List.map_cons]

/-- The entries of a directory in the order in which they are visited. -/
def visited (entries : List (String × Tree)) : List (String × Tree) :=
  entries.mergeSort fun left right => decide (left.1 ≤ right.1)

theorem perm_visited (entries : List (String × Tree)) : (visited entries).Perm entries :=
  List.mergeSort_perm entries _

theorem flatten_byName_encountersIn (root path : String) (entries : List (String × Tree)) :
    (byName (encountersIn root path entries)).flatten =
      (visited entries).flatMap fun entry => bundleEncounters root path entry.1 entry.2 := by
  have hsorted := List.map_mergeSort (r := fun left right => decide (left.1 ≤ right.1))
    (s := fun left right => decide (left.1 ≤ right.1)) (l := entries)
    (f := fun entry => (entry.1, bundleEncounters root path entry.1 entry.2)) fun _ _ _ _ => rfl
  rw [byName, encountersIn_eq, ← hsorted, List.map_map, List.flatMap_def]
  rfl

section

variable {above : List String} {name : String}

theorem gathers_bundleEncounters_file (root : String) (content : FileContent) (hne : above ≠ [])
    (habove : ∀ name ∈ above, IsName name) (hname : IsName name) :
    Gathers (bundleEncounters root (pathOf above) name (.file content)) fun file =>
      ∃ names, EndsInBundle (name :: names) ∧ (Tree.file content).FileAt names file.content ∧
        file.path = pathOf (above ++ name :: names) := by
  rw [bundleEncounters, joinPath_pathOf hne habove hname]
  split
  · next hbundle =>
      refine (Gathers.ofOption (some ⟨pathOf (above ++ [name]), content⟩)).congr ?_
      rintro ⟨path, content'⟩
      have hlast := mem_bundleNames_iff.1 hbundle
      simp [EndsInBundle, hlast, eq_comm, and_comm]
  · next hbundle =>
      refine .nil ?_
      rintro file ⟨names, hlast, hfile, -⟩
      obtain ⟨rfl, -⟩ := Tree.fileAt_file_iff.1 hfile
      exact hbundle (mem_bundleNames_iff.2 (by simpa [EndsInBundle] using hlast))

/-- The bundles in an entry are at the end of names that begin with its own. -/
theorem gathers_bundleEncounters (root : String) {tree : Tree} (hproper : tree.IsProper)
    (hne : above ≠ []) (habove : ∀ name ∈ above, IsName name) (hname : IsName name) :
    Gathers (bundleEncounters root (pathOf above) name tree) fun file =>
      ∃ names, EndsInBundle (name :: names) ∧ tree.FileAt names file.content ∧
        file.path = pathOf (above ++ name :: names) := by
  induction hproper generalizing above name with
  | file content => exact gathers_bundleEncounters_file root content hne habove hname
  | @directory entries hdistinct hnames hbelow ih =>
      have habove' : ∀ other ∈ above ++ [name], IsName other := by
        simpa [or_imp, forall_and] using ⟨habove, hname⟩
      have hperm := perm_visited entries
      have hvisited : (Tree.directory (visited entries)).IsProper :=
        .directory ((hperm.map Prod.fst).nodup_iff.2 hdistinct)
          (fun entry hentry => hnames entry (hperm.mem_iff.1 hentry))
          (fun entry hentry => hbelow entry (hperm.mem_iff.1 hentry))
      have hnames' : ∀ {entry : String × Tree} {names : List String} {content : FileContent},
          entry ∈ visited entries → entry.2.FileAt names content →
            ∀ other ∈ above ++ [name] ++ entry.1 :: names, IsName other := by
        intro entry names content hentry hfile
        obtain ⟨hfirst, hentry⟩ := hvisited.of_mem hentry
        exact List.forall_mem_append.2
          ⟨habove', List.forall_mem_cons.2 ⟨hfirst, hfile.isName hentry⟩⟩
      rw [bundleEncounters, joinPath_pathOf hne habove hname, flatten_byName_encountersIn]
      refine (Gathers.flatMap hvisited (fun entry hentry => ih entry (hperm.mem_iff.1 hentry)
        (by simp) habove' (hnames entry (hperm.mem_iff.1 hentry))) ?_).congr fun file => ?_
      · rintro entry hentry entry' hentry' file file' ⟨names, -, hfile, hpath⟩
          ⟨names', -, hfile', hpath'⟩ heq
        rw [hpath, hpath'] at heq
        have heq := pathOf_injOn (by simp) (by simp) (hnames' hentry hfile)
          (hnames' hentry' hfile') heq
        rw [List.append_cancel_left_eq] at heq
        exact (List.cons.inj heq).1
      · constructor
        · rintro ⟨entry, hentry, names, hlast, hfile, hpath⟩
          exact ⟨entry.1 :: names, by simpa [EndsInBundle] using hlast,
            .inside (hperm.mem_iff.1 hentry) hfile, by simpa using hpath⟩
        · rintro ⟨_, hlast, hfile, hpath⟩
          obtain ⟨name', names, entry, rfl, hentry, hfile⟩ := Tree.fileAt_directory_iff.1 hfile
          exact ⟨(name', entry), hperm.mem_iff.2 hentry, names,
            by simpa [EndsInBundle] using hlast, hfile, by simpa using hpath⟩

end

theorem isBundlePath_iff {names : List String} :
    IsBundlePath names ↔
      (∃ name, names = [name] ∧ (name = "action.yml" ∨ name = "action.yaml")) ∨
        ∃ below, names = ".github" :: "actions" :: below ∧ EndsInBundle ("actions" :: below) := by
  constructor
  · rintro ⟨above, name, rfl, hname, rfl | ⟨below, rfl⟩⟩
    · exact .inl ⟨name, rfl, hname⟩
    · refine .inr ⟨below ++ [name], rfl, ?_⟩
      rw [EndsInBundle, ← List.cons_append, List.getLast?_concat]
      simpa using hname
  · rintro (⟨name, rfl, hname⟩ | ⟨below, rfl, hlast⟩)
    · exact ⟨[], name, rfl, hname, .inl rfl⟩
    · rcases List.eq_nil_or_concat' below with rfl | ⟨below, name, rfl⟩
      · simp [EndsInBundle] at hlast
      · refine ⟨".github" :: "actions" :: below, name, by simp, ?_, .inr ⟨below, rfl⟩⟩
        rw [EndsInBundle, ← List.cons_append, List.getLast?_concat] at hlast
        simpa using hlast

/-! ## What is found -/

section

variable {tree : Tree} {root : String} {entries : List (String × Tree)}

/-- The workflows are gathered from one directory. -/
theorem gathers_workflows (hroot : tree.find? root = some (.directory entries))
    (hproper : (Tree.directory entries).IsProper) :
    Gathers ((tree.find? (joinPath root workflowDirectory)).elim [] (workflowEncounters root))
      fun file => ∃ names, IsWorkflowPath names ∧ (Tree.directory entries).Holds names file := by
  have hholds : ∀ file : FoundFile, (∃ names, IsWorkflowPath names ∧
      (Tree.directory entries).Holds names file) ↔
        ∃ inner, (Tree.directory entries).below? [".github", "workflows"] = some inner ∧
          ∃ name, (HasExtension name "yml" ∨ HasExtension name "yaml") ∧
            inner.FileAt [name] file.content ∧
            file.path = pathOf [".github", "workflows", name] := by
    intro file
    constructor
    · rintro ⟨_, ⟨name, rfl, hextension⟩, hfile, hpath⟩
      obtain ⟨inner, hinner, hfile⟩ :=
        (Tree.fileAt_append_iff hproper [".github", "workflows"] [name]).1 hfile
      exact ⟨inner, hinner, name, hextension, hfile, hpath⟩
    · rintro ⟨inner, hinner, name, hextension, hfile, hpath⟩
      exact ⟨_, ⟨name, rfl, hextension⟩,
        (Tree.fileAt_append_iff hproper [".github", "workflows"] [name]).2
          ⟨inner, hinner, hfile⟩, hpath⟩
  have hview := Tree.find?_joinPath hroot (by simp) areNames_workflows
  rw [← workflowDirectory_eq] at hview
  simp only [hview, hholds]
  cases hbelow : (Tree.directory entries).below? [".github", "workflows"] with
  | none => exact .nil (by simp)
  | some inner =>
      have hinner := hproper.below? hbelow
      cases hinner with
      | file content => exact .nil (by simp)
      | directory hdistinct hnames hproper =>
          exact (gathers_workflowEncounters root (.directory hdistinct hnames hproper)).congr
            (by simp)

/-- The bundles at the root, by the names they may have. -/
theorem mem_atRoot_iff (hroot : tree.find? root = some (.directory entries))
    (hproper : (Tree.directory entries).IsProper) {file : FoundFile} :
    file ∈ bundleNames.filterMap (fun name =>
        (tree.find? (joinPath root name)).bind (foundFile? name)) ↔
      ∃ name, (name = "action.yml" ∨ name = "action.yaml") ∧
        (Tree.directory entries).Holds [name] file := by
  have hentry : ∀ {name}, name = "action.yml" ∨ name = "action.yaml" →
      ((tree.find? (joinPath root name)).bind (foundFile? name) = some file ↔
        (Tree.directory entries).Holds [name] file) := by
    intro name hname
    have hpath : pathOf [name] = name := String.ofList_toList
    have hnames : ∀ other ∈ [name], IsName other := by
      intro other hother
      rw [List.mem_singleton.1 hother]
      rcases hname with rfl | rfl <;> decide
    have hview := Tree.find?_joinPath hroot (List.cons_ne_nil name []) hnames
    rw [hpath] at hview
    have hfile := @Tree.fileAt_append_iff _ file.content hproper [name] []
    rw [List.append_nil] at hfile
    rw [hview, Option.bind_eq_some_iff, Tree.Holds, hpath, hfile]
    simp only [mem_foundFile?_iff, exists_and_right, ← and_assoc]
  simp only [List.mem_filterMap]
  constructor
  · rintro ⟨name, hname, hfile⟩
    have hname := mem_bundleNames_iff.1 (List.contains_iff_mem.2 hname)
    exact ⟨name, hname, (hentry hname).1 hfile⟩
  · rintro ⟨name, hname, hfile⟩
    exact ⟨name, List.contains_iff_mem.1 (mem_bundleNames_iff.2 hname), (hentry hname).2 hfile⟩

theorem nodup_atRoot (view : FileView) (root : String) :
    ((bundleNames.filterMap fun name =>
      (view (joinPath root name)).bind (foundFile? name)).map FoundFile.path).Nodup := by
  rw [List.Nodup, List.pairwise_map, List.pairwise_filterMap]
  refine (by decide : bundleNames.Nodup).imp ?_
  intro name name' hne file hfile file' hfile' heq
  obtain ⟨_, -, hfile⟩ := Option.bind_eq_some_iff.1 hfile
  obtain ⟨_, -, hfile'⟩ := Option.bind_eq_some_iff.1 hfile'
  rw [(mem_foundFile?_iff.1 hfile).2, (mem_foundFile?_iff.1 hfile').2] at heq
  exact hne heq

/-- The bundles below the actions. -/
theorem gathers_belowActions (hroot : tree.find? root = some (.directory entries))
    (hproper : (Tree.directory entries).IsProper) :
    Gathers ((tree.find? (joinPath root actionDirectory)).elim [] (actionEncounters root))
      fun file => ∃ below, EndsInBundle ("actions" :: below) ∧
        (Tree.directory entries).Holds (".github" :: "actions" :: below) file := by
  have hview := Tree.find?_joinPath hroot (by simp) areNames_actions
  have hholds : ∀ (file : FoundFile) (below : List String),
      (Tree.directory entries).Holds (".github" :: "actions" :: below) file ↔
        ∃ inner, (Tree.directory entries).below? [".github", "actions"] = some inner ∧
          inner.FileAt below file.content ∧
          file.path = pathOf ([".github"] ++ "actions" :: below) := by
    intro file below
    have hfile := @Tree.fileAt_append_iff _ file.content hproper [".github", "actions"] below
    simp only [List.cons_append, List.nil_append] at hfile ⊢
    simp only [Tree.Holds, hfile, exists_and_right, ← and_assoc]
  rw [← actionDirectory_eq] at hview
  simp only [hview, hholds]
  cases hbelow : (Tree.directory entries).below? [".github", "actions"] with
  | none => exact .nil (by simp)
  | some inner =>
      have hinner := hproper.below? hbelow
      have hgithub : ∀ name ∈ [".github"], IsName name := by decide
      have hactions : IsName "actions" := by decide
      have hgathers := gathers_bundleEncounters root hinner (by simp) hgithub hactions
      cases hinner with
      | file content => exact .nil (by simp [EndsInBundle])
      | directory =>
          rw [bundleEncounters, joinPath_pathOf (by simp) hgithub hactions] at hgathers
          rw [Option.elim_some, actionEncounters, actionDirectory_eq]
          exact hgathers.congr (by simp)

/-- Where every directory can be listed, both lists are sorted from files with different
paths. -/
theorem exists_discover_eq (hroot : tree.find? root = some (.directory entries))
    (hproper : (Tree.directory entries).IsProper) :
    ∃ pipelines bundles, discover tree.find? root = .ok ⟨sortFiles pipelines, sortFiles bundles⟩ ∧
      (pipelines.map FoundFile.path).Nodup ∧ (bundles.map FoundFile.path).Nodup ∧
      (∀ file, file ∈ pipelines ↔
        ∃ names, IsWorkflowPath names ∧ (Tree.directory entries).Holds names file) ∧
      ∀ file, file ∈ bundles ↔
        ∃ names, IsBundlePath names ∧ (Tree.directory entries).Holds names file := by
  obtain ⟨pipelines, hpipelines, hdistinct, hmem⟩ :=
    (gathers_workflows hroot hproper).documents_eq
  obtain ⟨below, hbelow, hdistinct', hmem'⟩ := (gathers_belowActions hroot hproper).documents_eq
  let atRoot := bundleNames.filterMap fun name =>
    (tree.find? (joinPath root name)).bind (foundFile? name)
  refine ⟨pipelines, atRoot ++ below, ?_, hdistinct, ?_, hmem, fun file => ?_⟩
  · rw [discover, hpipelines, hbelow]
    rfl
  · rw [List.map_append, List.nodup_append']
    refine ⟨nodup_atRoot _ _, hdistinct', ?_⟩
    intro path hpath hpath'
    obtain ⟨file, hfile, rfl⟩ := List.mem_map.1 hpath
    obtain ⟨file', hfile', heq⟩ := List.mem_map.1 hpath'
    obtain ⟨name, -, hfile, hname⟩ := (mem_atRoot_iff hroot hproper).1 hfile
    obtain ⟨names, -, hfile', hnames⟩ := (hmem' file').1 hfile'
    rw [hname, hnames] at heq
    -- A file at the root has one name, one below the actions has two at least.
    have heq := pathOf_injOn (by simp) (by simp) (hfile'.isName hproper) (hfile.isName hproper) heq
    simp at heq
  · rw [List.mem_append, mem_atRoot_iff hroot hproper, hmem']
    constructor
    · rintro (⟨name, hname, hfile⟩ | ⟨below, hlast, hfile⟩)
      · exact ⟨_, isBundlePath_iff.2 (.inl ⟨name, rfl, hname⟩), hfile⟩
      · exact ⟨_, isBundlePath_iff.2 (.inr ⟨below, rfl, hlast⟩), hfile⟩
    · rintro ⟨names, hnames, hfile⟩
      rcases isBundlePath_iff.1 hnames with ⟨name, rfl, hname⟩ | ⟨below, rfl, hlast⟩
      · exact .inl ⟨name, hname, hfile⟩
      · exact .inr ⟨below, hlast, hfile⟩

/-- Both lists hold the files of their kind, and ascend by the bytes of their paths. -/
theorem exists_discover_ascending (hroot : tree.find? root = some (.directory entries))
    (hproper : (Tree.directory entries).IsProper) :
    ∃ found, discover tree.find? root = .ok found ∧
      (∀ file, file ∈ found.pipelines ↔
        ∃ names, IsWorkflowPath names ∧ (Tree.directory entries).Holds names file) ∧
      (∀ file, file ∈ found.bundles ↔
        ∃ names, IsBundlePath names ∧ (Tree.directory entries).Holds names file) ∧
      found.pipelines.Pairwise (fun left right => octets left.path < octets right.path) ∧
      found.bundles.Pairwise (fun left right => octets left.path < octets right.path) := by
  obtain ⟨pipelines, bundles, hfound, hdistinct, hdistinct', hmem, hmem'⟩ :=
    exists_discover_eq hroot hproper
  exact ⟨_, hfound, fun file => mem_sortFiles_iff.trans (hmem file),
    fun file => mem_sortFiles_iff.trans (hmem' file), sorted_of_nodup hdistinct,
    sorted_of_nodup hdistinct'⟩

end

section

variable {tree tree' : Tree} {root root' : String} {entries entries' : List (String × Tree)}

theorem mem_paths_iff {repository : Tree} {files : List FoundFile} {IsPath : List String → Prop}
    (hmem : ∀ file, file ∈ files ↔ ∃ names, IsPath names ∧ repository.Holds names file)
    {path : String} :
    path ∈ files.map FoundFile.path ↔
      ∃ names, IsPath names ∧ (∃ content, repository.FileAt names content) ∧
        path = pathOf names := by
  simp only [List.mem_map, hmem]
  constructor
  · rintro ⟨file, ⟨names, hnames, hfile, hpath⟩, rfl⟩
    exact ⟨names, hnames, ⟨file.content, hfile⟩, hpath⟩
  · rintro ⟨names, hnames, ⟨content, hfile⟩, rfl⟩
    exact ⟨⟨pathOf names, content⟩, ⟨names, hnames, hfile, rfl⟩, rfl⟩

/-- Ascending lists of the files at some paths are one list where these paths lead to the
same contents. -/
theorem eq_of_sameFiles {files files' : List FoundFile} {IsPath : List String → Prop}
    (hfiles : files.Pairwise fun left right => octets left.path < octets right.path)
    (hfiles' : files'.Pairwise fun left right => octets left.path < octets right.path)
    (hmem : ∀ file, file ∈ files ↔ ∃ names, IsPath names ∧ tree.Holds names file)
    (hmem' : ∀ file, file ∈ files' ↔ ∃ names, IsPath names ∧ tree'.Holds names file)
    (hsame : ∀ names, IsPath names →
      ∀ content, tree.FileAt names content ↔ tree'.FileAt names content) :
    files = files' := by
  apply eq_of_ascending FoundFile.path hfiles hfiles'
  intro file
  rw [hmem, hmem']
  refine exists_congr fun names => and_congr_right fun hnames => ?_
  rw [Tree.Holds, Tree.Holds, hsame names hnames]

/-- Where the same paths lead to files, the paths found are the same, whatever the files hold. -/
theorem paths_eq_of_samePaths {files files' : List FoundFile} {IsPath : List String → Prop}
    (hfiles : files.Pairwise fun left right => octets left.path < octets right.path)
    (hfiles' : files'.Pairwise fun left right => octets left.path < octets right.path)
    (hmem : ∀ file, file ∈ files ↔ ∃ names, IsPath names ∧ tree.Holds names file)
    (hmem' : ∀ file, file ∈ files' ↔ ∃ names, IsPath names ∧ tree'.Holds names file)
    (hsame : ∀ names, IsPath names →
      ((∃ content, tree.FileAt names content) ↔ ∃ content, tree'.FileAt names content)) :
    files.map FoundFile.path = files'.map FoundFile.path := by
  apply eq_of_ascending id (List.pairwise_map.2 hfiles) (List.pairwise_map.2 hfiles')
  intro path
  rw [mem_paths_iff hmem, mem_paths_iff hmem']
  refine exists_congr fun names => and_congr_right fun hnames => ?_
  rw [hsame names hnames]

/-- The definitions of a repository are found, each once and by ascending path, and nothing
else is; and what the repository holds besides them has no say in the result. -/
theorem discover_finds_definitions (hroot : tree.find? root = some (.directory entries))
    (hproper : (Tree.directory entries).IsProper) :
    ∃ found, discover tree.find? root = .ok found ∧
      (∀ file, file ∈ found.pipelines ↔
        ∃ names, IsWorkflowPath names ∧ (Tree.directory entries).Holds names file) ∧
      (∀ file, file ∈ found.bundles ↔
        ∃ names, IsBundlePath names ∧ (Tree.directory entries).Holds names file) ∧
      found.pipelines.Pairwise (fun left right => octets left.path < octets right.path) ∧
      found.bundles.Pairwise (fun left right => octets left.path < octets right.path) ∧
      ∀ (tree' : Tree) (root' : String) (entries' : List (String × Tree)),
        tree'.find? root' = some (.directory entries') → (Tree.directory entries').IsProper →
        ∃ found', discover tree'.find? root' = .ok found' ∧
          ((∀ names, IsWorkflowPath names ∨ IsBundlePath names →
              ((∃ content, (Tree.directory entries).FileAt names content) ↔
                ∃ content, (Tree.directory entries').FileAt names content)) →
            found.pipelines.map FoundFile.path = found'.pipelines.map FoundFile.path ∧
              found.bundles.map FoundFile.path = found'.bundles.map FoundFile.path) ∧
          ((∀ names, IsWorkflowPath names ∨ IsBundlePath names →
              ∀ content, (Tree.directory entries).FileAt names content ↔
                (Tree.directory entries').FileAt names content) →
            found = found') := by
  obtain ⟨found, hfound, hpipeline, hbundle, hpipelines, hbundles⟩ :=
    exists_discover_ascending hroot hproper
  refine ⟨found, hfound, hpipeline, hbundle, hpipelines, hbundles, ?_⟩
  intro tree' root' entries' hroot' hproper'
  obtain ⟨found', hfound', hpipeline', hbundle', hpipelines', hbundles'⟩ :=
    exists_discover_ascending hroot' hproper'
  refine ⟨found', hfound', fun hsame => ?_, fun hsame => ?_⟩
  · exact ⟨paths_eq_of_samePaths hpipelines hpipelines' hpipeline hpipeline'
        fun names hnames => hsame names (.inl hnames),
      paths_eq_of_samePaths hbundles hbundles' hbundle hbundle'
        fun names hnames => hsame names (.inr hnames)⟩
  · have heq := eq_of_sameFiles hpipelines hpipelines' hpipeline hpipeline'
      fun names hnames => hsame names (.inl hnames)
    have heq' := eq_of_sameFiles hbundles hbundles' hbundle hbundle'
      fun names hnames => hsame names (.inr hnames)
    calc found
      _ = ⟨found.pipelines, found.bundles⟩ := rfl
      _ = found' := by rw [heq, heq']

end

/-- A repository with a workflow, a bundle at the root and two below the actions, whose
directories come the other way round than their paths, and a directory named as a workflow. -/
def sampleEntries : List (String × Tree) :=
  [("action.yml", .file (.text "root")),
   (".github", .directory
     [("workflows", .directory
        [("ci.yml", .file (.text "ci")), (".yml", .file (.text "hidden")),
         ("old.yaml", .directory [("ci.yml", .file (.text "old"))])]),
      ("actions", .directory
        [("b", .directory [("action.yaml", .file (.text "b"))]),
         ("b-c", .directory [("action.yml", .file (.text "b-c"))])])])]

theorem isProper_sampleEntries : (Tree.directory sampleEntries).IsProper := by
  have hproper : ∀ entry ∈ sampleEntries, entry.2.IsProper := by
    simp only [sampleEntries, List.forall_mem_cons]
    refine ⟨.file _, .directory (by decide) (by decide) ?_, by simp⟩
    simp only [List.forall_mem_cons]
    refine ⟨.directory (by decide) (by decide) ?_, .directory (by decide) (by decide) ?_, by simp⟩
    · simp only [List.forall_mem_cons]
      refine ⟨.file _, .file _, .directory (by decide) (by decide) ?_, by simp⟩
      simpa using .file _
    · simp only [List.forall_mem_cons]
      refine ⟨.directory (by decide) (by decide) ?_, .directory (by decide) (by decide) ?_, by simp⟩
      all_goals simpa using .file _
  exact .directory (by decide) (by decide) hproper

/-- A file of another name at the root leaves the result as it was. -/
theorem discover_finds_definitions_sample :
    ∃ found, discover (Tree.directory sampleEntries).find? "." = .ok found ∧
      (∀ file, file ∈ found.pipelines ↔
        ∃ names, IsWorkflowPath names ∧ (Tree.directory sampleEntries).Holds names file) ∧
      discover (Tree.directory (("ci.yml", .file (.text "ci")) :: sampleEntries)).find? "." =
        .ok found := by
  have hproper := isProper_sampleEntries
  have hproper' : (Tree.directory (("ci.yml", .file (.text "ci")) :: sampleEntries)).IsProper := by
    cases hproper with
    | directory _ hnames hbelow =>
        refine .directory (by decide) (by decide) (List.forall_mem_cons.2 ⟨.file _, hbelow⟩)
  have hroot : (Tree.directory sampleEntries).find? "." = some (.directory sampleEntries) :=
    Tree.find?_here
  obtain ⟨found, hfound, hpipelines, -, -, -, hothers⟩ := discover_finds_definitions hroot hproper
  obtain ⟨found', hfound', -, hsame⟩ := hothers _ "." _ Tree.find?_here hproper'
  refine ⟨found, hfound, hpipelines, ?_⟩
  rw [hfound']
  refine congrArg Except.ok (hsame ?_).symm
  intro names hnames content
  have hfirst : names.head? ≠ some "ci.yml" := by
    rcases hnames with ⟨name, rfl, -⟩ | ⟨above, name, rfl, hname, rfl | ⟨below, rfl⟩⟩
    · simp
    · rcases hname with rfl | rfl <;> simp
    · simp
  simp only [Tree.fileAt_directory_iff, List.mem_cons]
  constructor
  · rintro ⟨name, rest, entry, rfl, hentry, hfile⟩
    exact ⟨name, rest, entry, rfl, .inr hentry, hfile⟩
  · rintro ⟨name, rest, entry, rfl, hentry | hentry, hfile⟩
    · cases hentry
      exact absurd rfl hfirst
    · exact ⟨name, rest, entry, rfl, hentry, hfile⟩

end WorkflowAudit
