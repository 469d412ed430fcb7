import Mathlib.Data.Set.Card
import JavaAtlas.Project.Sources
import JavaAtlas.Proofs.Data.Dict
import JavaAtlas.Proofs.Path

set_option autoImplicit false

/-! # Sources by their paths

The walk through a project leaves hidden directories out as it meets them, and never looks at a path
as a whole. In a tree whose entries have proper names the components of a path are the names on the
way (`components_relativePath`), so the walk finds the files whose path has no hidden component
(`mem_visibleFiles_iff`), each once, and counting them is counting paths
(`countSources_eq_encard`). -/

namespace JavaAtlas

instance : DecidablePred Path.IsName := fun _ => inferInstanceAs (Decidable (_ ∧ _))

/-! ## Proper trees -/

namespace FileTree

mutual

/-- Whether the entries of every directory in the tree have distinct names, which are names of
files. -/
def isProper : FileTree → Bool
  | file _ _ => true
  | directory entries => decide (Assoc.keys entries).Nodup && entriesProper entries

/-- Whether the entries are proper trees under names of files. -/
def entriesProper : List (FileName × FileTree) → Bool
  | [] => true
  | (name, tree) :: rest => decide (Path.IsName name) && tree.isProper && entriesProper rest

end

theorem entriesProper_iff {entries : List (FileName × FileTree)} :
    entriesProper entries = true ↔
      ∀ entry ∈ entries, Path.IsName entry.1 ∧ entry.2.isProper = true := by
  induction entries with
  | nil => simp [entriesProper]
  | cons entry rest ih =>
    rw [entriesProper, Bool.and_eq_true, Bool.and_eq_true, decide_eq_true_iff, ih,
      List.forall_mem_cons]

theorem isProper_directory_iff {entries : List (FileName × FileTree)} :
    (directory entries).isProper = true ↔ (Assoc.keys entries).Nodup ∧
      ∀ entry ∈ entries, Path.IsName entry.1 ∧ entry.2.isProper = true := by
  rw [isProper, Bool.and_eq_true, decide_eq_true_iff, entriesProper_iff]

/-- In a proper tree the way to a node has proper names. -/
theorem isName_of_get? {address : List FileName} {tree node : FileTree}
    (hproper : tree.isProper = true) (h : tree.get? address = some node) :
    ∀ name ∈ address, Path.IsName name := by
  induction address generalizing tree with
  | nil => exact List.forall_mem_nil _
  | cons name names ih =>
    rw [get?] at h
    obtain ⟨child, hchild, hrest⟩ := Option.bind_eq_some_iff.1 h
    cases tree with
    | file => cases hchild
    | directory entries =>
      obtain ⟨hname, hproper⟩ := (isProper_directory_iff.1 hproper).2 _
        (Assoc.mem_of_find?_eq_some hchild)
      exact List.forall_mem_cons.2 ⟨hname, ih hproper hrest⟩

end FileTree

namespace Project

open JavaAtlas.Path FileTree

/-! ## Relative paths -/

theorem head?_relativePath {name : FileName} (hname : IsName name) (names : List FileName) :
    (relativePath (name :: names)).bytes.head? = name.head? := by
  obtain ⟨b, rest, rfl⟩ := List.exists_cons_of_ne_nil (isName_iff.1 hname).2.1
  cases names <;> rfl

theorem split_relativePath {address : List FileName} (hne : address ≠ [])
    (hnames : ∀ name ∈ address, IsName name) : split (relativePath address).bytes = address := by
  induction address with
  | nil => exact absurd rfl hne
  | cons name names ih =>
    obtain ⟨hname, hnames⟩ := List.forall_mem_cons.1 hnames
    cases names with
    | nil => exact split_of_not_mem hname.1
    | cons next rest =>
      rw [relativePath, split_append_separator, split_of_not_mem hname.1,
        ih (List.cons_ne_nil _ _) hnames]
      · rfl
      · exact List.cons_ne_nil _ _

/-- The components of the path to a file are the names on the way. -/
theorem components_relativePath {address : List FileName}
    (hnames : ∀ name ∈ address, IsName name) :
    (relativePath address).components = address.map Component.name := by
  cases address with
  | nil => rfl
  | cons name names =>
    have hname := hnames name List.mem_cons_self
    obtain ⟨hseparator, hnil, hdot, -⟩ := isName_iff.1 hname
    have hrelative : (relativePath (name :: names)).isAbsolute = false := by
      unfold isAbsolute
      rw [head?_relativePath hname, beq_eq_false_iff_ne]
      intro hhead
      exact hseparator (List.mem_of_mem_head? hhead)
    have hsteps : (name :: names).filterMap stepOf? = (name :: names).map Component.name := by
      rw [← List.filterMap_eq_map]
      exact List.filterMap_congr fun part hpart => (hnames part hpart).2
    unfold components
    dsimp only
    rw [split_relativePath (List.cons_ne_nil _ _) hnames, hrelative, hsteps, List.head?_cons,
      if_neg (by simp), if_neg (by simpa using hdot), List.nil_append]

theorem fileName?_relativePath {address : List FileName}
    (hnames : ∀ name ∈ address, IsName name) :
    (relativePath address).fileName? = address.getLast? := by
  unfold fileName?
  rw [components_relativePath hnames, List.getLast?_map]
  cases address.getLast? <;> rfl

/-! ## The walk -/

theorem isHidden_eq_false_iff {name : FileName} :
    isHidden name = false ↔ name.head? ≠ some dot := by
  unfold isHidden
  exact beq_eq_false_iff_ne

theorem mem_visibleEntries_iff {entries : List (FileName × FileTree)} {address : List FileName} :
    address ∈ visibleEntries entries ↔ ∃ name names tree, address = name :: names ∧
      (name, tree) ∈ entries ∧ isHidden name = false ∧ names ∈ visibleFiles tree := by
  induction entries with
  | nil => simp [visibleEntries]
  | cons entry rest ih =>
    obtain ⟨name, tree⟩ := entry
    rw [visibleEntries, List.mem_append, ih]
    constructor
    · rintro (hfirst | ⟨other, names, child, rfl, hmem, hother⟩)
      · split at hfirst
        · cases hfirst
        · next hname =>
          obtain ⟨names, hnames, rfl⟩ := List.mem_map.1 hfirst
          exact ⟨name, names, tree, rfl, List.mem_cons_self, Bool.eq_false_iff.2 hname, hnames⟩
      · exact ⟨other, names, child, rfl, List.mem_cons_of_mem _ hmem, hother⟩
    · rintro ⟨other, names, child, rfl, hmem, hvisible, hnames⟩
      rcases List.mem_cons.1 hmem with heq | hmem
      · obtain ⟨rfl, rfl⟩ := Prod.mk.inj heq
        rw [hvisible]
        exact .inl (List.mem_map_of_mem hnames)
      · exact .inr ⟨other, names, child, rfl, hmem, hvisible, hnames⟩

/-- The walk finds the files to which a way without hidden names leads. -/
theorem mem_visibleFiles_iff {address : List FileName} {tree : FileTree}
    (hproper : tree.isProper = true) :
    address ∈ visibleFiles tree ↔
      (∃ content executable, tree.get? address = some (.file content executable)) ∧
        ∀ name ∈ address, isHidden name = false := by
  induction address generalizing tree with
  | nil => cases tree <;> simp [visibleFiles, mem_visibleEntries_iff, get?]
  | cons name names ih =>
    cases tree with
    | file => simp [visibleFiles, get?, child?]
    | directory entries =>
      obtain ⟨hnodup, hentries⟩ := isProper_directory_iff.1 hproper
      rw [visibleFiles, mem_visibleEntries_iff, List.forall_mem_cons, get?, child?]
      constructor
      · rintro ⟨_, _, child, heq, hmem, hname, hnames⟩
        obtain ⟨rfl, rfl⟩ := List.cons.inj heq
        rw [ih (hentries _ hmem).2] at hnames
        rw [Assoc.find?_eq_some_of_mem hnodup hmem]
        exact ⟨hnames.1, hname, hnames.2⟩
      · rintro ⟨⟨content, executable, hget⟩, hname, hnames⟩
        obtain ⟨child, hfind, hget⟩ := Option.bind_eq_some_iff.1 hget
        have hmem := Assoc.mem_of_find?_eq_some hfind
        exact ⟨name, names, child, rfl, hmem, hname,
          (ih (hentries _ hmem).2).2 ⟨⟨content, executable, hget⟩, hnames⟩⟩

mutual

/-- The walk finds no file twice. -/
theorem nodup_visibleFiles (tree : FileTree) (hproper : tree.isProper = true) :
    (visibleFiles tree).Nodup := by
  match tree with
  | .file _ _ => exact List.nodup_singleton _
  | .directory entries =>
    obtain ⟨hnodup, hentries⟩ := isProper_directory_iff.1 hproper
    exact nodup_visibleEntries entries hnodup (entriesProper_iff.2 hentries)

theorem nodup_visibleEntries (entries : List (FileName × FileTree))
    (hnodup : (Assoc.keys entries).Nodup) (hproper : entriesProper entries = true) :
    (visibleEntries entries).Nodup := by
  match entries with
  | [] => exact List.nodup_nil
  | (name, tree) :: rest =>
    rw [entriesProper, Bool.and_eq_true, Bool.and_eq_true] at hproper
    rw [Assoc.keys_cons, List.nodup_cons] at hnodup
    have hrest := nodup_visibleEntries rest hnodup.2 hproper.2
    rw [visibleEntries]
    split
    · exact hrest
    · have hfirst := (nodup_visibleFiles tree hproper.1.2).map (List.cons_injective (a := name))
      refine hfirst.append hrest ?_
      -- addresses below other entries begin with other names
      intro address hmem hmem'
      obtain ⟨names, -, rfl⟩ := List.mem_map.1 hmem
      obtain ⟨other, names', child, heq, hentry, -⟩ := mem_visibleEntries_iff.1 hmem'
      obtain ⟨rfl, rfl⟩ := List.cons.inj heq
      exact hnodup.1 (Assoc.mem_keys_iff.2 ⟨child, hentry⟩)

end

/-! ## Counting -/

/-- Whether an address is that of a source, as its path from the project says: there is a file, no
component of the path begins with a dot, the extension is that of Java sources, and the settings do
not exclude the path. -/
structure IsSourcePath (settings : Config.Settings) (tree : FileTree) (address : List FileName) :
    Prop where
  isFile : ∃ content executable, tree.get? address = some (.file content executable)
  visible : ∀ name, .name name ∈ (relativePath address).components → name.head? ≠ some dot
  extension : (relativePath address).extension? = some (Utf8.encode "java")
  included : settings.isExcluded (relativePath address).display = false

variable {settings : Config.Settings} {entries : List (FileName × FileTree)}

theorem isSource_iff (project : Path) {address : List FileName} (hne : address ≠ [])
    (hnames : ∀ name ∈ address, IsName name) :
    isSource settings project address = true ↔
      (relativePath address).extension? = some (Utf8.encode "java") ∧
        settings.isExcluded (relativePath address).display = false := by
  obtain ⟨front, last, rfl⟩ := (List.eq_nil_or_concat' address).resolve_left hne
  have hextension : (relativePath (front ++ [last])).extension? = (splitExtension last).2 := by
    unfold extension?
    rw [fileName?_relativePath hnames, List.getLast?_concat]
    rfl
  unfold isSource
  rw [List.getLast?_concat, hextension]
  simp only [Bool.and_eq_true, beq_iff_eq, Bool.not_eq_true']
  rfl

theorem isSourcePath_iff (project : Path) (hproper : (directory entries).isProper = true)
    {address : List FileName} :
    IsSourcePath settings (.directory entries) address ↔
      address ∈ (visibleFiles (.directory entries)).filter (isSource settings project) := by
  rw [List.mem_filter, mem_visibleFiles_iff hproper]
  simp only [isHidden_eq_false_iff]
  constructor
  · rintro ⟨hfile, hvisible, hextension, hincluded⟩
    obtain ⟨content, executable, hget⟩ := hfile
    have hnames := isName_of_get? hproper hget
    have hne : address ≠ [] := by
      rintro rfl
      cases hget
    rw [components_relativePath hnames] at hvisible
    refine ⟨⟨⟨content, executable, hget⟩, fun name hname => ?_⟩, ?_⟩
    · exact hvisible name (List.mem_map_of_mem hname)
    · exact (isSource_iff project hne hnames).2 ⟨hextension, hincluded⟩
  · rintro ⟨⟨⟨content, executable, hget⟩, hvisible⟩, hsource⟩
    have hnames := isName_of_get? hproper hget
    have hne : address ≠ [] := by
      rintro rfl
      cases hget
    obtain ⟨hextension, hincluded⟩ := (isSource_iff project hne hnames).1 hsource
    refine ⟨⟨content, executable, hget⟩, fun name hname => ?_, hextension, hincluded⟩
    rw [components_relativePath hnames] at hname
    obtain ⟨_, hmem, heq⟩ := List.mem_map.1 hname
    obtain rfl := Component.name.inj heq
    exact hvisible _ hmem

/-- **Sources are counted by their paths.** In a project with a proper tree the number of sources is
the number of files below it whose path has no component that begins with a dot, ends in a name with
the extension of Java sources, and is not excluded. It is the same wherever the tree lies, whatever
the project is called. -/
theorem countSources_eq_encard {files : FileSystem} {project : Path}
    (hnode : files.node project = .ok (.directory entries))
    (hproper : (directory entries).isProper = true) (settings : Config.Settings) :
    (countSources settings files project : ℕ∞) =
        {address | IsSourcePath settings (.directory entries) address}.encard ∧
      ∀ otherFiles otherProject, otherFiles.node otherProject = .ok (.directory entries) →
        countSources settings otherFiles otherProject = countSources settings files project := by
  have hcount : ∀ files' project', files'.node project' = .ok (.directory entries) →
      (countSources settings files' project' : ℕ∞) =
        {address | IsSourcePath settings (.directory entries) address}.encard := by
    intro files' project' hnode'
    let found := (visibleFiles (.directory entries)).filter (isSource settings project')
    have hfound : {address | IsSourcePath settings (.directory entries) address} =
        (found.toFinset : Set (List FileName)) := by
      ext address
      rw [List.coe_toFinset]
      exact isSourcePath_iff project' hproper
    have hnodup : found.Nodup := (nodup_visibleFiles _ hproper).filter _
    rw [hfound, Set.encard_coe_eq_coe_finsetCard, List.toFinset_card_of_nodup hnodup]
    unfold countSources
    rw [hnode']
    exact congrArg _ List.countP_eq_length_filter
  refine ⟨hcount files project hnode, fun otherFiles otherProject hother => ?_⟩
  have hsame := (hcount otherFiles otherProject hother).trans (hcount files project hnode).symm
  exact_mod_cast hsame

/-- A project with two sources, one more in a hidden directory, one in an excluded directory, and a
file with another extension. -/
def mixedEntries : List (FileName × FileTree) := [
  (Utf8.encode "Main.java", .file [] false),
  (Utf8.encode ".idea", .directory [(Utf8.encode "Draft.java", .file [] false)]),
  (Utf8.encode "build", .directory [(Utf8.encode "Made.java", .file [] false)]),
  (Utf8.encode "src", .directory [(Utf8.encode "Shop.java", .file [] false),
    (Utf8.encode "Shop.javax", .file [] false)])]

/-- A file system in which the project has a hidden name. -/
def hiddenProject : FileSystem where
  tree := .directory [(Utf8.encode ".work", .directory mixedEntries)]

theorem node_hiddenProject :
    hiddenProject.node (.ofString "/.work") = .ok (.directory mixedEntries) := by
  have hsplit : split (Path.ofString "/.work").bytes = [[], Utf8.encode ".work"] := by
    decide +kernel
  have hroot : stepOf? [] = none := rfl
  have hstep : stepOf? (Utf8.encode ".work") = some (.name (Utf8.encode ".work")) := by
    decide +kernel
  have hlength : ¬(Utf8.encode ".work").length > 255 := by decide +kernel
  unfold FileSystem.node FileSystem.resolve
  rw [if_neg (by decide +kernel), if_neg (by decide +kernel), if_neg (by decide +kernel),
    if_pos (by decide +kernel), hsplit]
  simp [FileSystem.follow, hroot, hstep, hlength, hiddenProject, get?, child?, Assoc.find?]

theorem countSources_eq_encard_hidden :
    hiddenProject.node (.ofString "/.work") = .ok (.directory mixedEntries) ∧
      (directory mixedEntries).isProper = true ∧
      countSources {} hiddenProject (.ofString "/.work") = 2 ∧
      {address | IsSourcePath {} (.directory mixedEntries) address}.encard = 2 := by
  have hproper : (directory mixedEntries).isProper = true := by decide +kernel
  have hcount : countSources {} hiddenProject (.ofString "/.work") = 2 := by decide +kernel
  refine ⟨node_hiddenProject, hproper, hcount, ?_⟩
  rw [← (countSources_eq_encard node_hiddenProject hproper {}).1, hcount]
  rfl

end Project

end JavaAtlas
