import JavaAtlas.File.System
import JavaAtlas.Proofs.Data.Dict

set_option autoImplicit false

/-! # Files that take the place of others

Neither writing a file nor removing one touches a directory (`SameDirectories`), and a path is
followed through directories alone. So a path leads to the same place before and after
(`resolve_of_sameDirectories`), and a file that is written beside another one and then renamed is
found in its place (`node_of_rename`). -/

namespace JavaAtlas

namespace FileTree

/-! ## Directories -/

/-- Whether there is a directory at an address. -/
def IsDirectoryAt (tree : FileTree) (address : List FileName) : Prop :=
  ∃ entries, tree.get? address = some (.directory entries)

theorem isDirectoryAt_nil_iff {tree : FileTree} :
    tree.IsDirectoryAt [] ↔ ∃ entries, tree = .directory entries := by
  simp [IsDirectoryAt, get?]

theorem isDirectoryAt_cons_iff {entries : List (FileName × FileTree)} {name : FileName}
    {names : List FileName} :
    (directory entries).IsDirectoryAt (name :: names) ↔
      ∃ child, Assoc.find? name entries = some child ∧ child.IsDirectoryAt names := by
  unfold IsDirectoryAt
  rw [get?, child?]
  cases Assoc.find? name entries <;> simp

theorem not_isDirectoryAt_file (content : List UInt8) (executable : Bool)
    (address : List FileName) : ¬(file content executable).IsDirectoryAt address := by
  rintro ⟨entries, h⟩
  cases address with
  | nil => cases h
  | cons name names => cases h

theorem get?_append (address more : List FileName) (tree : FileTree) :
    tree.get? (address ++ more) = (tree.get? address).bind (get? more) := by
  induction address generalizing tree with
  | nil => rfl
  | cons name names ih =>
    rw [List.cons_append, get?, get?]
    cases tree.child? name with
    | none => rfl
    | some child => exact ih child

/-- An entry is found in the directory that it is in. -/
theorem get?_concat {tree : FileTree} {address : List FileName}
    {entries : List (FileName × FileTree)} (h : tree.get? address = some (.directory entries))
    (name : FileName) : tree.get? (address ++ [name]) = Assoc.find? name entries := by
  rw [get?_append, h]
  show (Assoc.find? name entries).bind (get? []) = _
  cases Assoc.find? name entries <;> rfl

/-- Whether two trees have directories at the same addresses. -/
def SameDirectories (tree other : FileTree) : Prop :=
  ∀ address, tree.IsDirectoryAt address ↔ other.IsDirectoryAt address

theorem SameDirectories.refl (tree : FileTree) : tree.SameDirectories tree := fun _ => .rfl

theorem SameDirectories.trans {tree other third : FileTree} (h : tree.SameDirectories other)
    (hother : other.SameDirectories third) : tree.SameDirectories third :=
  fun address => (h address).trans (hother address)

/-- Entries matter only for the directories in them. -/
theorem sameDirectories_directory {entries others : List (FileName × FileTree)}
    (h : ∀ name names,
      (∃ child, Assoc.find? name entries = some child ∧ child.IsDirectoryAt names) ↔
        ∃ child, Assoc.find? name others = some child ∧ child.IsDirectoryAt names) :
    (directory entries).SameDirectories (directory others) := by
  intro address
  cases address with
  | nil => simp [isDirectoryAt_nil_iff]
  | cons name names => rw [isDirectoryAt_cons_iff, isDirectoryAt_cons_iff, h]

theorem sameDirectories_insert {entries : List (FileName × FileTree)} {name : FileName}
    {child : FileTree} (hfind : Assoc.find? name entries = some child) {other : FileTree}
    (h : child.SameDirectories other) :
    (directory entries).SameDirectories (directory (Assoc.insert name other entries)) := by
  refine sameDirectories_directory fun k names => ?_
  rw [Assoc.find?_insert]
  by_cases hk : name = k
  · subst hk
    simp [hfind, h names]
  · rw [if_neg hk]

theorem sameDirectories_insert_file {entries : List (FileName × FileTree)} {name : FileName}
    (hfind : Assoc.find? name entries = none) (content : List UInt8) (executable : Bool) :
    (directory entries).SameDirectories
      (directory (Assoc.insert name (.file content executable) entries)) := by
  refine sameDirectories_directory fun k names => ?_
  rw [Assoc.find?_insert]
  by_cases hk : name = k
  · subst hk
    simp [hfind, not_isDirectoryAt_file]
  · rw [if_neg hk]

theorem sameDirectories_erase {entries : List (FileName × FileTree)} {name : FileName}
    (h : ∀ child, Assoc.find? name entries = some child → ∀ names, ¬child.IsDirectoryAt names) :
    (directory entries).SameDirectories (directory (Assoc.erase name entries)) := by
  refine sameDirectories_directory fun k names => ?_
  rw [Assoc.find?_erase]
  by_cases hk : name = k
  · subst hk
    rw [if_pos rfl]
    simp only [reduceCtorEq, false_and, exists_false, iff_false, not_exists, not_and]
    exact fun child hfind => h child hfind names
  · rw [if_neg hk]

theorem not_isDirectoryAt_of_nil {tree : FileTree} (h : ¬tree.IsDirectoryAt [])
    (address : List FileName) : ¬tree.IsDirectoryAt address := by
  cases tree with
  | file content executable => exact not_isDirectoryAt_file content executable address
  | directory entries => exact absurd (isDirectoryAt_nil_iff.2 ⟨entries, rfl⟩) h

theorem sameDirectories_of_files {tree other : FileTree} (h : ¬tree.IsDirectoryAt [])
    (hother : ¬other.IsDirectoryAt []) : tree.SameDirectories other := fun address =>
  iff_of_false (not_isDirectoryAt_of_nil h address) (not_isDirectoryAt_of_nil hother address)

/-- A file that takes a place where no directory is changes no directories. -/
theorem sameDirectories_put {address : List FileName} {tree : FileTree}
    (h : ¬tree.IsDirectoryAt address) (content : List UInt8) (executable : Bool) :
    tree.SameDirectories (put (.file content executable) address tree) := by
  induction address generalizing tree with
  | nil => exact sameDirectories_of_files h (not_isDirectoryAt_file content executable [])
  | cons name names ih =>
    cases tree with
    | file => exact .refl _
    | directory entries =>
      rw [put]
      cases hfind : Assoc.find? name entries with
      | some child =>
        refine sameDirectories_insert hfind (ih fun hchild => h ?_)
        exact isDirectoryAt_cons_iff.2 ⟨child, hfind, hchild⟩
      | none =>
        dsimp only
        split
        · exact sameDirectories_insert_file hfind content executable
        · exact .refl _

/-- The removal of a node that is no directory changes no directories. -/
theorem sameDirectories_remove {address : List FileName} {tree : FileTree}
    (h : ¬tree.IsDirectoryAt address) : tree.SameDirectories (remove address tree) := by
  induction address generalizing tree with
  | nil => exact .refl _
  | cons name names ih =>
    cases tree with
    | file => exact .refl _
    | directory entries =>
      have hchild : ∀ child, Assoc.find? name entries = some child → ¬child.IsDirectoryAt names :=
        fun child hfind hchild => h (isDirectoryAt_cons_iff.2 ⟨child, hfind, hchild⟩)
      rw [remove]
      split
      · next hlast =>
        obtain rfl := List.isEmpty_iff.1 hlast
        exact sameDirectories_erase fun child hfind => not_isDirectoryAt_of_nil (hchild child hfind)
      · cases hfind : Assoc.find? name entries with
        | some child => exact sameDirectories_insert hfind (ih (hchild child hfind))
        | none => exact .refl _

theorem sameDirectories_remove_file {address : List FileName} {tree : FileTree}
    {content : List UInt8} {executable : Bool}
    (h : tree.get? address = some (.file content executable)) :
    tree.SameDirectories (remove address tree) := by
  refine sameDirectories_remove fun ⟨entries, hentries⟩ => ?_
  cases h.symm.trans hentries

/-! ## Places -/

/-- Whether a node may stand at an address: the directory that it would be in exists. -/
def HasPlace (tree : FileTree) (address : List FileName) : Prop :=
  ∀ front name, address = front ++ [name] → tree.IsDirectoryAt front

theorem HasPlace.of_sameDirectories {tree other : FileTree} {address : List FileName}
    (h : tree.HasPlace address) (hsame : tree.SameDirectories other) : other.HasPlace address :=
  fun front name heq => (hsame front).1 (h front name heq)

theorem hasPlace_of_get? {tree node : FileTree} {address : List FileName}
    (h : tree.get? address = some node) : tree.HasPlace address := by
  rintro front name rfl
  rw [get?_append] at h
  obtain ⟨parent, hparent, hnode⟩ := Option.bind_eq_some_iff.1 h
  cases parent with
  | file => cases hnode
  | directory entries => exact ⟨entries, hparent⟩

/-- A place below an entry of a directory. -/
theorem HasPlace.cons {tree : FileTree} {name : FileName} {names : List FileName}
    (h : tree.HasPlace (name :: names)) :
    ∃ entries, tree = .directory entries ∧
      (names = [] ∨ ∃ child, Assoc.find? name entries = some child ∧ child.HasPlace names) := by
  have hbelow : ∀ front last, names = front ++ [last] → tree.IsDirectoryAt (name :: front) :=
    fun front last heq => h (name :: front) last (by rw [heq, List.cons_append])
  rcases List.eq_nil_or_concat' names with rfl | ⟨front, last, hlast⟩
  · obtain ⟨entries, rfl⟩ := isDirectoryAt_nil_iff.1 (h [] name rfl)
    exact ⟨entries, rfl, .inl rfl⟩
  · cases tree with
    | file => exact absurd (hbelow front last hlast) (not_isDirectoryAt_file _ _ _)
    | directory entries =>
      obtain ⟨child, hfind, -⟩ := isDirectoryAt_cons_iff.1 (hbelow front last hlast)
      refine ⟨entries, rfl, .inr ⟨child, hfind, fun front last heq => ?_⟩⟩
      obtain ⟨found, hfound, hdirectory⟩ := isDirectoryAt_cons_iff.1 (hbelow front last heq)
      rw [hfind] at hfound
      obtain rfl := Option.some.inj hfound
      exact hdirectory

/-- A node that is put in its place is found there. -/
theorem get?_put {address : List FileName} {tree : FileTree} (h : tree.HasPlace address)
    (node : FileTree) : (put node address tree).get? address = some node := by
  induction address generalizing tree with
  | nil => rfl
  | cons name names ih =>
    have hinsert : ∀ (child : FileTree) entries,
        (directory (Assoc.insert name child entries)).get? (name :: names) = child.get? names := by
      intro child entries
      rw [get?, child?, Assoc.find?_insert, if_pos rfl, Option.bind_some]
    obtain ⟨entries, rfl, rfl | ⟨child, hfind, hplace⟩⟩ := h.cons
    · rw [put]
      cases Assoc.find? name entries <;> exact hinsert node entries
    · rw [put, hfind]
      exact (hinsert _ entries).trans (ih hplace)

end FileTree

namespace FileSystem

/-! ## Following paths -/

/-- The address that a path leads to. -/
def Target.address : Target → List FileName
  | node address _ | vacant address => address

/-- The ways in which the parts of a path lead from a directory to a target. -/
inductive Leads (root : FileTree) : List FileName → List (List UInt8) → Target → Prop where
  | here {address : List FileName} {tree : FileTree} (hget : root.get? address = some tree) :
    Leads root address [] (.node address tree)
  | stay {address : List FileName} {part : List UInt8} {parts : List (List UInt8)} {target : Target}
    (hdirectory : root.IsDirectoryAt address) (hparent : Path.stepOf? part ≠ some .parent)
    (hname : ∀ name, Path.stepOf? part ≠ some (.name name)) :
    Leads root address parts target → Leads root address (part :: parts) target
  | up {address : List FileName} {part : List UInt8} {parts : List (List UInt8)} {target : Target}
    (hdirectory : root.IsDirectoryAt address) (hparent : Path.stepOf? part = some .parent) :
    Leads root address.dropLast parts target → Leads root address (part :: parts) target
  | down {address : List FileName} {part : List UInt8} {parts : List (List UInt8)} {target : Target}
    {name : FileName} {child : FileTree} (hdirectory : root.IsDirectoryAt address)
    (hname : Path.stepOf? part = some (.name name)) (hlength : name.length ≤ 255)
    (hchild : root.get? (address ++ [name]) = some child) :
    Leads root (address ++ [name]) parts target → Leads root address (part :: parts) target
  | vacant {address : List FileName} {part : List UInt8} {name : FileName}
    (hdirectory : root.IsDirectoryAt address) (hname : Path.stepOf? part = some (.name name))
    (hlength : name.length ≤ 255) (hnone : root.get? (address ++ [name]) = none) :
    Leads root address [part] (.vacant (address ++ [name]))

theorem leads_of_follow {root : FileTree} {address : List FileName} {parts : List (List UInt8)}
    {target : Target} (h : follow root address parts = .ok target) :
    Leads root address parts target := by
  induction parts generalizing address with
  | nil =>
    rw [follow] at h
    split at h
    · next hget =>
      cases h
      exact .here hget
    · cases h
  | cons part parts ih =>
    rw [follow] at h
    split at h
    · cases h
    · cases h
    · next entries hget =>
      have hdirectory : root.IsDirectoryAt address := ⟨entries, hget⟩
      split at h
      · next hstep => exact .stay hdirectory (by simp [hstep]) (by simp [hstep]) (ih h)
      · next hstep => exact .up hdirectory hstep (ih h)
      · next name hstep =>
        split at h
        · cases h
        · next hlength =>
          split at h
          · next child hfind =>
            exact .down hdirectory hstep (Nat.le_of_not_lt hlength)
              ((FileTree.get?_concat hget name).trans hfind) (ih h)
          · next hfind =>
            split at h
            · next hlast =>
              subst hlast
              cases h
              exact .vacant hdirectory hstep (Nat.le_of_not_lt hlength)
                ((FileTree.get?_concat hget name).trans hfind)
            · cases h
      · next step hparent hname hstep =>
        refine .stay hdirectory ?_ (fun name => ?_) (ih h)
        · rw [hstep]
          exact fun heq => hparent (Option.some.inj heq)
        · rw [hstep]
          exact fun heq => hname name (Option.some.inj heq)

theorem follow_of_leads {root : FileTree} {address : List FileName} {parts : List (List UInt8)}
    {target : Target} (h : Leads root address parts target) :
    follow root address parts = .ok target := by
  induction h with
  | here hget => rw [follow, hget]
  | stay hdirectory hparent hname _ ih =>
    obtain ⟨entries, hget⟩ := hdirectory
    rw [follow, hget]
    cases hstep : Path.stepOf? _ with
    | none => exact ih
    | some step =>
      cases step with
      | root => exact ih
      | current => exact ih
      | parent => exact absurd hstep hparent
      | name name => exact absurd hstep (hname name)
  | up hdirectory hparent _ ih =>
    obtain ⟨entries, hget⟩ := hdirectory
    rw [follow, hget]
    simp only [hparent, ih]
  | @down _ _ _ _ name _ hdirectory hname hlength hchild _ ih =>
    obtain ⟨entries, hget⟩ := hdirectory
    rw [FileTree.get?_concat hget name] at hchild
    rw [follow, hget]
    simp only [hname, hchild, ih]
    exact if_neg (Nat.not_lt.2 hlength)
  | @vacant _ _ name hdirectory hname hlength hnone =>
    obtain ⟨entries, hget⟩ := hdirectory
    rw [FileTree.get?_concat hget name] at hnone
    rw [follow, hget]
    simp only [hname, hnone]
    exact if_neg (Nat.not_lt.2 hlength)

/-- A path ends where it starts, or starts at a directory. -/
theorem Leads.start {root : FileTree} {address : List FileName} {parts : List (List UInt8)}
    {target : Target} (h : Leads root address parts target) :
    target.address = address ∨ root.IsDirectoryAt address := by
  cases h with
  | here => exact .inl rfl
  | stay hdirectory => exact .inr hdirectory
  | up hdirectory => exact .inr hdirectory
  | down hdirectory => exact .inr hdirectory
  | vacant hdirectory => exact .inr hdirectory

/-- Whether a target is what a tree holds at its address, or a place that the tree has for it. -/
def Target.StandsIn (root : FileTree) : Target → Prop
  | node address tree => root.get? address = some tree
  | vacant address => root.get? address = none ∧ root.HasPlace address

theorem Leads.standsIn {root : FileTree} {address : List FileName} {parts : List (List UInt8)}
    {target : Target} (h : Leads root address parts target) : target.StandsIn root := by
  induction h with
  | here hget => exact hget
  | stay _ _ _ _ ih => exact ih
  | up _ _ _ ih => exact ih
  | down _ _ _ _ _ ih => exact ih
  | vacant hdirectory _ _ hnone =>
    refine ⟨hnone, fun front last heq => ?_⟩
    obtain ⟨rfl, -⟩ := List.append_inj' heq rfl
    exact hdirectory

/-- In a tree with the same directories, a path leads to what stands at the end of it there. -/
theorem Leads.of_sameDirectories {root other : FileTree} {address : List FileName}
    {parts : List (List UInt8)} {target : Target} (h : Leads root address parts target)
    (hsame : root.SameDirectories other) {tree : FileTree}
    (hget : other.get? target.address = some tree) :
    Leads other address parts (.node target.address tree) := by
  induction h with
  | here => exact .here hget
  | stay hdirectory hparent hname _ ih =>
    exact .stay ((hsame _).1 hdirectory) hparent hname (ih hget)
  | up hdirectory hparent _ ih => exact .up ((hsame _).1 hdirectory) hparent (ih hget)
  | @down address _ _ _ name _ hdirectory hname hlength _ hmore ih =>
    have hchild : ∃ child, other.get? (address ++ [name]) = some child := by
      rcases hmore.start with heq | hchild
      · exact ⟨tree, heq ▸ hget⟩
      · obtain ⟨entries, hentries⟩ := (hsame _).1 hchild
        exact ⟨_, hentries⟩
    obtain ⟨child, hchild⟩ := hchild
    exact .down ((hsame _).1 hdirectory) hname hlength hchild (ih hget)
  | vacant hdirectory hname hlength =>
    exact .down ((hsame _).1 hdirectory) hname hlength hget (.here hget)

/-! ## Paths -/

theorem standsIn_of_resolve {fs : FileSystem} {path : Path} {target : Target}
    (h : fs.resolve path = .ok target) : target.StandsIn fs.tree := by
  unfold resolve at h
  split at h
  · cases h
  split at h
  · cases h
  split at h
  · cases h
  · exact (leads_of_follow h).standsIn

/-- In a file system with the same directories, a path leads to what stands at the end of it
there. -/
theorem resolve_of_sameDirectories {fs other : FileSystem} {path : Path} {target : Target}
    (h : fs.resolve path = .ok target) (hsame : fs.tree.SameDirectories other.tree)
    (hworking : other.working = fs.working) {tree : FileTree}
    (hget : other.tree.get? target.address = some tree) :
    other.resolve path = .ok (.node target.address tree) := by
  unfold resolve at h ⊢
  rw [hworking]
  split at h
  · cases h
  next hzero =>
  split at h
  · cases h
  next hempty =>
  split at h
  · cases h
  next hlong =>
  rw [if_neg hzero, if_neg hempty, if_neg hlong]
  exact follow_of_leads ((leads_of_follow h).of_sameDirectories hsame hget)

/-! ## Files -/

/-- Whether a target is no directory. -/
def Target.IsFree : Target → Prop
  | node _ tree => ¬tree.IsDirectoryAt []
  | vacant _ => True

theorem Target.IsFree.not_isDirectoryAt {root : FileTree} {target : Target} (h : target.IsFree)
    (hstands : target.StandsIn root) : ¬root.IsDirectoryAt target.address := by
  rintro ⟨entries, hget⟩
  cases target with
  | node address tree =>
    obtain rfl := Option.some.inj (hstands.symm.trans hget)
    exact h (FileTree.isDirectoryAt_nil_iff.2 ⟨entries, rfl⟩)
  | vacant address =>
    cases hstands.1.symm.trans hget

theorem Target.StandsIn.hasPlace {root : FileTree} {target : Target} (h : target.StandsIn root) :
    root.HasPlace target.address := by
  cases target with
  | node address tree => exact FileTree.hasPlace_of_get? h
  | vacant address => exact h.2

/-- What writing a file does. -/
theorem exists_of_writeBytes {fs written : FileSystem} {path : Path} {content : List UInt8}
    (h : fs.writeBytes path content = .ok written) :
    ∃ target executable, fs.resolve path = .ok target ∧ target.IsFree ∧
      written = { fs with tree := .put (.file content executable) target.address fs.tree } := by
  unfold writeBytes at h
  split at h
  · next address content executable hresolve =>
    cases h
    exact ⟨_, executable, hresolve, FileTree.not_isDirectoryAt_file _ _ _, rfl⟩
  · cases h
  · next address hresolve =>
    cases h
    exact ⟨_, false, hresolve, trivial, rfl⟩
  · cases h

/-- What renaming a file does. -/
theorem exists_of_rename {fs renamed : FileSystem} {source path : Path} {address : List FileName}
    {moved : FileTree} (hmoved : moved.isDirectory = false)
    (hsource : fs.resolve source = .ok (.node address moved))
    (h : fs.rename source path = .ok renamed) :
    ∃ target, fs.resolve path = .ok target ∧ target.IsFree ∧
      renamed = if target.address = address then fs else
        { fs with tree := .put moved target.address (.remove address fs.tree) } := by
  have hplace : ∀ {place : List FileName},
      (if place = address then .ok fs
        else .ok { fs with tree := .put moved place (.remove address fs.tree) } :
          Except FileFault FileSystem) = .ok renamed →
      renamed = if place = address then fs else
        { fs with tree := .put moved place (.remove address fs.tree) } := by
    intro place hok
    split at hok <;> cases hok
    · next heq => rw [if_pos heq]
    · next hne => rw [if_neg hne]
  unfold rename at h
  rw [hsource] at h
  simp only [bind, Except.bind] at h
  cases htarget : fs.resolve path with
  | error fault =>
    rw [htarget] at h
    cases h
  | ok target =>
    rw [htarget] at h
    cases target with
    | node place tree =>
      cases tree with
      | file =>
        simp only [hmoved] at h
        exact ⟨_, rfl, FileTree.not_isDirectoryAt_file _ _ _, hplace h⟩
      | directory =>
        simp only [hmoved] at h
        cases h
    | vacant place => exact ⟨_, rfl, trivial, hplace h⟩

/-- A file that has been put where a path leads is found there. -/
theorem resolve_put {fs : FileSystem} {path : Path} {target : Target}
    (h : fs.resolve path = .ok target) (hfree : target.IsFree) (content : List UInt8)
    (executable : Bool) :
    ({ fs with tree := .put (.file content executable) target.address fs.tree } :
      FileSystem).resolve path = .ok (.node target.address (.file content executable)) := by
  have hstands := standsIn_of_resolve h
  have hsame := FileTree.sameDirectories_put (hfree.not_isDirectoryAt hstands) content executable
  exact resolve_of_sameDirectories h hsame (by rfl) (FileTree.get?_put hstands.hasPlace _)

/-- A file that has been moved to where a path leads is found there. -/
theorem resolve_move {fs : FileSystem} {path : Path} {target : Target}
    (h : fs.resolve path = .ok target) (hfree : target.IsFree) {address : List FileName}
    {content : List UInt8} {executable : Bool}
    (hfile : fs.tree.get? address = some (.file content executable)) :
    ({ fs with
        tree := .put (.file content executable) target.address (.remove address fs.tree) } :
      FileSystem).resolve path = .ok (.node target.address (.file content executable)) := by
  have hstands := standsIn_of_resolve h
  have hremove := FileTree.sameDirectories_remove_file hfile
  have hput := FileTree.sameDirectories_put
    (fun hdirectory => hfree.not_isDirectoryAt hstands ((hremove _).2 hdirectory))
    content executable
  exact resolve_of_sameDirectories h (hremove.trans hput) (by rfl)
    (FileTree.get?_put (hstands.hasPlace.of_sameDirectories hremove) _)

/-- How a file is written where a temporary path leads, and moved from there to where another path
leads. -/
structure Replaces (fs : FileSystem) (temporary path : Path) (content : List UInt8)
    (written renamed : FileSystem) (executable : Bool) (beside place : Target) : Prop where
  beside_resolves : fs.resolve temporary = .ok beside
  beside_free : beside.IsFree
  written_eq : written =
    { fs with tree := .put (.file content executable) beside.address fs.tree }
  place_resolves : written.resolve path = .ok place
  place_free : place.IsFree
  renamed_eq : renamed = if place.address = beside.address then written else
    { written with
      tree := .put (.file content executable) place.address
        (.remove beside.address written.tree) }

section Replaces

variable {fs written renamed : FileSystem} {temporary path : Path} {content : List UInt8}
  {executable : Bool} {beside place : Target}

theorem exists_replaces (hwrite : fs.writeBytes temporary content = .ok written)
    (hrename : written.rename temporary path = .ok renamed) :
    ∃ executable beside place,
      Replaces fs temporary path content written renamed executable beside place := by
  obtain ⟨beside, executable, hbeside, hbesideFree, hwritten⟩ := exists_of_writeBytes hwrite
  have hsource : written.resolve temporary =
      .ok (.node beside.address (.file content executable)) := by
    rw [hwritten]
    exact resolve_put hbeside hbesideFree content executable
  obtain ⟨place, hplace, hplaceFree, hrenamed⟩ := exists_of_rename rfl hsource hrename
  exact ⟨executable, beside, place, hbeside, hbesideFree, hwritten, hplace, hplaceFree, hrenamed⟩

theorem Replaces.resolve_temporary
    (h : Replaces fs temporary path content written renamed executable beside place) :
    written.resolve temporary = .ok (.node beside.address (.file content executable)) := by
  rw [h.written_eq]
  exact resolve_put h.beside_resolves h.beside_free content executable

/-- The file is found where the path leads. -/
theorem Replaces.resolve_path
    (h : Replaces fs temporary path content written renamed executable beside place) :
    renamed.resolve path = .ok (.node place.address (.file content executable)) := by
  have hfile := standsIn_of_resolve h.resolve_temporary
  rw [h.renamed_eq]
  by_cases heq : place.address = beside.address
  · rw [if_pos heq]
    exact resolve_of_sameDirectories h.place_resolves (.refl _) rfl (heq ▸ hfile)
  · rw [if_neg heq]
    exact resolve_move h.place_resolves h.place_free hfile

end Replaces

/-- **A file that is written beside another and then renamed is found in its place.** -/
theorem node_of_rename {fs written renamed : FileSystem} {temporary path : Path}
    {content : List UInt8} (hwrite : fs.writeBytes temporary content = .ok written)
    (hrename : written.rename temporary path = .ok renamed) :
    ∃ executable, renamed.node path = .ok (.file content executable) := by
  obtain ⟨executable, beside, place, h⟩ := exists_replaces hwrite hrename
  exact ⟨executable, by rw [node, h.resolve_path]⟩

end FileSystem

end JavaAtlas
