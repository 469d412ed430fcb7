import JavaAtlas.Proofs.Data.Except
import JavaAtlas.Proofs.File.Replacing
import JavaAtlas.Proofs.Path

set_option autoImplicit false

/-! # What the files of a tree hold

Every operation on files changes what stands at one address, and every operation on directories
leaves all files as they are. `fileAt?` is the view of a tree in which this is said: one equation
for putting a node (`fileAt?_put`) and one for removing it (`fileAt?_remove`), from which follow
those for writing, renaming and making directories. -/

namespace JavaAtlas

namespace FileTree

/-! ## Trees -/

/-- The content of a file, and whether it may be run. -/
def file? : FileTree → Option (List UInt8 × Bool)
  | file content executable => some (content, executable)
  | directory _ => none

/-- What the file at an address holds, if there is a file. -/
def fileAt? (tree : FileTree) (address : List FileName) : Option (List UInt8 × Bool) :=
  (tree.get? address).bind file?

variable {tree : FileTree} {address other : List FileName}

theorem fileAt?_directory_nil (entries : List (FileName × FileTree)) :
    (directory entries).fileAt? [] = none := rfl

theorem fileAt?_directory_cons (entries : List (FileName × FileTree)) (name : FileName)
    (names : List FileName) :
    (directory entries).fileAt? (name :: names) =
      (Assoc.find? name entries).bind fun child => child.fileAt? names := by
  unfold fileAt?
  rw [get?, child?]
  cases Assoc.find? name entries <;> rfl

theorem fileAt?_file_cons (content : List UInt8) (executable : Bool) (name : FileName)
    (names : List FileName) : (file content executable).fileAt? (name :: names) = none := rfl

theorem fileAt?_of_get? {content : List UInt8} {executable : Bool}
    (h : tree.get? address = some (file content executable)) :
    tree.fileAt? address = some (content, executable) := by
  rw [fileAt?, h]
  rfl

/-- There are no files below what is not a directory. -/
theorem fileAt?_below (h : ¬tree.IsDirectoryAt address) (hbelow : address <+: other)
    (hne : other ≠ address) : tree.fileAt? other = none := by
  obtain ⟨more, rfl⟩ := hbelow
  have hmore : more ≠ [] := fun hnil => hne (by rw [hnil, List.append_nil])
  rw [fileAt?, get?_append]
  cases hget : tree.get? address with
  | none => rfl
  | some node =>
    cases node with
    | file content executable =>
      cases more with
      | nil => exact absurd rfl hmore
      | cons name names => rfl
    | directory entries => exact absurd ⟨entries, hget⟩ h

theorem fileAt?_directory_insert (entries : List (FileName × FileTree)) (name : FileName)
    (child : FileTree) (k : FileName) (names : List FileName) :
    (directory (Assoc.insert name child entries)).fileAt? (k :: names) =
      if name = k then child.fileAt? names else (directory entries).fileAt? (k :: names) := by
  rw [fileAt?_directory_cons, fileAt?_directory_cons, Assoc.find?_insert]
  split <;> rfl

theorem fileAt?_directory_erase (entries : List (FileName × FileTree)) (name k : FileName)
    (names : List FileName) :
    (directory (Assoc.erase name entries)).fileAt? (k :: names) =
      if name = k then none else (directory entries).fileAt? (k :: names) := by
  rw [fileAt?_directory_cons, fileAt?_directory_cons, Assoc.find?_erase]
  split <;> rfl

/-- Putting a node changes the files at its address and below. -/
theorem fileAt?_put (h : tree.HasPlace address) (node : FileTree) (other : List FileName) :
    (put node address tree).fileAt? other =
      if address <+: other then node.fileAt? (other.drop address.length)
      else tree.fileAt? other := by
  induction address generalizing tree other with
  | nil => rw [put, if_pos List.nil_prefix, List.length_nil, List.drop_zero]
  | cons name names ih =>
    obtain ⟨entries, rfl, hnames⟩ := h.cons
    -- whatever was there, the entry becomes a child with the node in its place
    have hput : ∃ child, put node (name :: names) (directory entries) =
          directory (Assoc.insert name child entries) ∧
        ∀ rest, child.fileAt? rest =
          if names <+: rest then node.fileAt? (rest.drop names.length)
          else (directory entries).fileAt? (name :: rest) := by
      rcases hnames with rfl | ⟨child, hfind, hplace⟩
      · refine ⟨node, ?_, fun rest => by simp⟩
        rw [put]
        cases Assoc.find? name entries <;> rfl
      · refine ⟨put node names child, by rw [put, hfind], fun rest => ?_⟩
        rw [ih hplace, fileAt?_directory_cons, hfind]
        rfl
    obtain ⟨child, hput, hchild⟩ := hput
    rw [hput]
    cases other with
    | nil => simp [fileAt?_directory_nil]
    | cons k rest =>
      rw [fileAt?_directory_insert]
      by_cases hk : name = k
      · subst hk
        simp [hchild rest]
      · simp [hk]

/-- Where no directory is, a file can be put without any change to the other files. -/
theorem fileAt?_put_file (hplace : tree.HasPlace address) (h : ¬tree.IsDirectoryAt address)
    (content : List UInt8) (executable : Bool) (other : List FileName) :
    (put (file content executable) address tree).fileAt? other =
      if other = address then some (content, executable) else tree.fileAt? other := by
  rw [fileAt?_put hplace]
  by_cases heq : other = address
  · subst heq
    rw [if_pos (List.prefix_refl _), if_pos rfl, List.drop_length]
    rfl
  · rw [if_neg heq]
    split
    · next hbelow =>
      rw [fileAt?_below h hbelow heq]
      obtain ⟨more, rfl⟩ := hbelow
      rw [List.drop_left]
      cases more with
      | nil => exact absurd (List.append_nil _) heq
      | cons name names => rfl
    · rfl

/-- A new directory changes no files. -/
theorem fileAt?_put_directory (hplace : tree.HasPlace address) (h : tree.get? address = none)
    (other : List FileName) :
    (put (directory []) address tree).fileAt? other = tree.fileAt? other := by
  rw [fileAt?_put hplace]
  split
  · next hbelow =>
    obtain ⟨more, rfl⟩ := hbelow
    have hnone : tree.fileAt? (address ++ more) = none := by rw [fileAt?, get?_append, h]; rfl
    rw [hnone, List.drop_left]
    cases more <;> rfl
  · rfl

/-- Removing a node removes the files at its address and below. -/
theorem fileAt?_remove (hne : address ≠ []) (tree : FileTree) (other : List FileName) :
    (remove address tree).fileAt? other =
      if address <+: other then none else tree.fileAt? other := by
  induction address generalizing tree other with
  | nil => exact absurd rfl hne
  | cons name names ih =>
    cases tree with
    | file content executable =>
      cases other with
      | nil => simp [remove]
      | cons k rest => rw [remove, fileAt?_file_cons, ite_self]
    | directory entries =>
      cases other with
      | nil =>
        rw [if_neg (by simp), remove]
        cases names.isEmpty <;> cases Assoc.find? name entries <;> rfl
      | cons k rest =>
        simp only [List.cons_prefix_cons]
        by_cases hlast : names = []
        · subst hlast
          rw [remove, List.isEmpty_nil, if_pos rfl, fileAt?_directory_erase]
          simp
        · have hmore : names.isEmpty = false := List.isEmpty_eq_false_iff.2 hlast
          cases hfind : Assoc.find? name entries with
          | none =>
            by_cases hk : name = k
            · subst hk
              simp [remove, hmore, hfind, fileAt?_directory_cons]
            · simp [remove, hmore, hfind, hk]
          | some child =>
            rw [remove, hmore, hfind]
            show (directory (Assoc.insert name (remove names child) entries)).fileAt? _ = _
            rw [fileAt?_directory_insert]
            by_cases hk : name = k
            · subst hk
              rw [if_pos rfl, ih hlast, fileAt?_directory_cons, hfind]
              simp
            · simp [hk]

/-- Removing what is no directory removes at most one file. -/
theorem fileAt?_remove_file (hne : address ≠ []) (h : ¬tree.IsDirectoryAt address)
    (other : List FileName) :
    (remove address tree).fileAt? other =
      if other = address then none else tree.fileAt? other := by
  rw [fileAt?_remove hne]
  by_cases heq : other = address
  · rw [if_pos heq, if_pos (heq ▸ List.prefix_refl _)]
  · rw [if_neg heq]
    split
    · next hbelow => rw [fileAt?_below h hbelow heq]
    · rfl

end FileTree

namespace FileSystem

/-! ## Making directories -/

/-- Whether two file systems hold the same files. -/
def SameFiles (fs other : FileSystem) : Prop :=
  ∀ address, other.tree.fileAt? address = fs.tree.fileAt? address

theorem SameFiles.refl (fs : FileSystem) : fs.SameFiles fs := fun _ => rfl

theorem SameFiles.trans {fs other third : FileSystem} (h : fs.SameFiles other)
    (hother : other.SameFiles third) : fs.SameFiles third :=
  fun address => (hother address).trans (h address)

theorem sameFiles_makeDirectory {fs made : FileSystem} {path : Path}
    (h : fs.makeDirectory path = .ok made) : fs.SameFiles made := by
  unfold makeDirectory at h
  split at h
  · next address hresolve =>
    cases h
    have hvacant := standsIn_of_resolve hresolve
    exact FileTree.fileAt?_put_directory hvacant.2 hvacant.1
  · cases h
  · split at h <;> cases h

theorem sameFiles_ensureDirectory {fs made : FileSystem} {path : Path}
    (h : fs.ensureDirectory path = .ok made) : fs.SameFiles made := by
  unfold ensureDirectory at h
  split at h
  · next hmake =>
    cases h
    exact sameFiles_makeDirectory hmake
  · split at h <;> cases h
    exact .refl fs

theorem sameFiles_ensureDirectoriesWithin {depth : Nat} {fs made : FileSystem} {path : Path}
    (h : ensureDirectoriesWithin depth fs path = .ok made) : fs.SameFiles made := by
  induction depth generalizing fs made path with
  | zero => cases h
  | succ depth ih =>
    rw [ensureDirectoriesWithin] at h
    split at h
    · cases h
      exact .refl fs
    split at h
    · next hmake =>
      cases h
      exact sameFiles_makeDirectory hmake
    · split at h
      · cases h
      · obtain ⟨parents, hparents, hlast⟩ := Fallible.bind_eq_ok_iff.1 h
        exact (ih hparents).trans (sameFiles_ensureDirectory hlast)
    · split at h <;> cases h
      exact .refl fs

theorem sameFiles_ensureDirectories {fs made : FileSystem} {path : Path}
    (h : fs.ensureDirectories path = .ok made) : fs.SameFiles made :=
  sameFiles_ensureDirectoriesWithin h

/-! ## The end of a path -/

theorem isDirectoryAt_dropLast {root : FileTree} {address : List FileName}
    (h : root.IsDirectoryAt address) : root.IsDirectoryAt address.dropLast := by
  rcases List.eq_nil_or_concat' address with rfl | ⟨front, name, rfl⟩
  · exact h
  · obtain ⟨entries, hget⟩ := h
    rw [List.dropLast_concat]
    exact FileTree.hasPlace_of_get? hget front name rfl

/-- A path that leads to no directory ends with a name, which is the name of its target. -/
theorem Leads.last {root : FileTree} {address : List FileName} {parts : List (List UInt8)}
    {part : List UInt8} {target : Target} (h : Leads root address (parts ++ [part]) target)
    (hfree : target.IsFree) :
    ∃ name directory, Path.stepOf? part = some (.name name) ∧
      target.address = directory ++ [name] := by
  have hnode : ∀ {address tree}, root.get? address = some tree → root.IsDirectoryAt address →
      ¬Target.IsFree (.node address tree) := by
    rintro address tree hget ⟨entries, hentries⟩ hfree
    obtain rfl := Option.some.inj (hget.symm.trans hentries)
    exact hfree (FileTree.isDirectoryAt_nil_iff.2 ⟨entries, rfl⟩)
  induction parts generalizing address with
  | nil =>
    rw [List.nil_append] at h
    cases h with
    | stay hdirectory _ _ hrest =>
      cases hrest with
      | here hget => exact absurd hfree (hnode hget hdirectory)
    | up hdirectory _ hrest =>
      cases hrest with
      | here hget => exact absurd hfree (hnode hget (isDirectoryAt_dropLast hdirectory))
    | down _ hname _ _ hrest =>
      cases hrest with
      | here => exact ⟨_, _, hname, rfl⟩
    | vacant _ hname => exact ⟨_, _, hname, rfl⟩
  | cons first parts ih =>
    rw [List.cons_append] at h
    generalize hmore : parts ++ [part] = more at h ih
    cases h with
    | stay _ _ _ hrest => exact ih hrest
    | up _ _ hrest => exact ih hrest
    | down _ _ _ _ hrest => exact ih hrest
    | vacant => exact absurd hmore (by simp)

theorem last_of_resolve {fs : FileSystem} {front part : List UInt8} (hfront : Path.IsFront front)
    (hpart : Path.separator ∉ part) {target : Target}
    (h : fs.resolve ⟨front ++ part⟩ = .ok target) (hfree : target.IsFree) :
    Path.IsName part ∧ ∃ directory, target.address = directory ++ [part] := by
  obtain ⟨parts, hsplit⟩ := hfront.exists_split
  unfold resolve at h
  split at h
  · cases h
  split at h
  · cases h
  split at h
  · cases h
  rw [hsplit part hpart] at h
  obtain ⟨name, directory, hstep, haddress⟩ := (leads_of_follow h).last hfree
  obtain rfl := Path.name_of_stepOf? hstep
  exact ⟨⟨hpart, hstep⟩, directory, haddress⟩

/-- A path leads to the root only if the root is a directory. -/
theorem address_ne_nil {fs : FileSystem} {path : Path} {target : Target}
    (h : fs.resolve path = .ok target) (hfree : target.IsFree) : target.address ≠ [] := by
  obtain ⟨bytes⟩ := path
  obtain ⟨front, part, hfront, hpart, rfl⟩ := Path.exists_front bytes
  obtain ⟨-, directory, haddress⟩ := last_of_resolve hfront hpart h hfree
  simp [haddress]

/-! ## Replacing a file -/

section Replaces

variable {fs written renamed : FileSystem} {temporary path : Path} {content : List UInt8}
  {executable : Bool} {beside place : Target}

/-- **What replacing a file changes.** The file that the path leads to has the new content, and the
temporary path leads to no other file any more. All other files stay as they are. -/
theorem Replaces.fileAt?_renamed
    (h : Replaces fs temporary path content written renamed executable beside place)
    (address : List FileName) :
    renamed.tree.fileAt? address =
      if address = place.address then some (content, executable)
      else if address = beside.address then none
      else fs.tree.fileAt? address := by
  have hbeside := standsIn_of_resolve h.beside_resolves
  have hplace := standsIn_of_resolve h.place_resolves
  have hfile : written.tree.get? beside.address = some (.file content executable) :=
    standsIn_of_resolve h.resolve_temporary
  have hwritten : ∀ address, written.tree.fileAt? address =
      if address = beside.address then some (content, executable)
      else fs.tree.fileAt? address := by
    rw [h.written_eq]
    exact FileTree.fileAt?_put_file hbeside.hasPlace (h.beside_free.not_isDirectoryAt hbeside) _ _
  rw [h.renamed_eq]
  by_cases heq : place.address = beside.address
  · rw [if_pos heq, hwritten, heq]
    split <;> rfl
  · have hremove := FileTree.sameDirectories_remove_file hfile
    have hfree := h.place_free.not_isDirectoryAt hplace
    have hgone : ¬written.tree.IsDirectoryAt beside.address := fun ⟨entries, hentries⟩ => by
      cases hfile.symm.trans hentries
    rw [if_neg heq]
    show (FileTree.put _ _ _).fileAt? address = _
    rw [FileTree.fileAt?_put_file (hplace.hasPlace.of_sameDirectories hremove)
      fun hdirectory => hfree ((hremove _).2 hdirectory),
      FileTree.fileAt?_remove_file (address_ne_nil h.beside_resolves h.beside_free) hgone, hwritten]
    split
    · rfl
    · split <;> rfl

/-- The temporary path leads to the file itself exactly if it is the path of the file. -/
theorem Replaces.address_eq_iff {extension : List UInt8}
    (h : Replaces fs (path.withExtension extension) path content written renamed executable
      beside place) (hextension : Path.separator ∉ extension) :
    place.address = beside.address ↔ path.withExtension extension = path := by
  constructor
  · intro heq
    obtain ⟨bytes⟩ := path
    obtain ⟨front, part, hfront, hpart, rfl⟩ := Path.exists_front bytes
    obtain ⟨hname, directory, hplace⟩ :=
      last_of_resolve hfront hpart h.place_resolves h.place_free
    obtain ⟨other, hother, htemporary⟩ := Path.withExtension_append hfront hname hextension
    have hresolve := h.beside_resolves
    rw [htemporary] at hresolve ⊢
    obtain ⟨-, parent, hbeside⟩ := last_of_resolve hfront hother hresolve h.beside_free
    rw [hplace, hbeside] at heq
    obtain rfl := List.singleton_inj.1 (List.append_inj' heq rfl).2
    rfl
  · intro hpath
    have hresolve := h.resolve_temporary
    rw [hpath, h.place_resolves] at hresolve
    rw [Except.ok.inj hresolve]
    rfl

/-- A path names no file exactly if no file stands where it leads. -/
theorem isFile_eq_false_iff {target : Target} (h : fs.resolve path = .ok target)
    (hfree : target.IsFree) :
    fs.isFile path = false ↔ fs.tree.fileAt? target.address = none := by
  have hstands := standsIn_of_resolve h
  rw [isFile, node, h]
  cases target with
  | node address tree =>
    cases tree with
    | file content executable =>
      simp [FileTree.isDirectory, FileTree.fileAt?_of_get? hstands, Target.address]
    | directory entries =>
      exact absurd (FileTree.isDirectoryAt_nil_iff.2 ⟨entries, rfl⟩) hfree
  | vacant address => simp [FileTree.fileAt?, hstands.1, Target.address]

end Replaces

end FileSystem

end JavaAtlas
