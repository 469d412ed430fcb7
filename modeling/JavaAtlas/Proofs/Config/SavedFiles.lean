import JavaAtlas.Proofs.Config.Saving
import JavaAtlas.Proofs.File.Contents

set_option autoImplicit false

/-! # What a save does to the files

A save replaces the file of the store by way of a temporary neighbour, whose path is that of the
file with another extension. Making the directories changes no files, so what a save changes is what
the replacement changes (`exists_of_save`): it touches nothing else exactly if the neighbour is the
file itself or did not exist (`save_changesOnly_iff`). -/

namespace JavaAtlas.Config.Store

theorem separator_not_mem_temporaryExtension : Path.separator ∉ temporaryExtension := by
  decide +kernel

/-- A save that succeeds has taken all its steps. -/
theorem accepts_of_save {store : Store} {path : Path} (hpath : store.path = some path)
    {files after : FileSystem} (h : store.save files = (.ok (), after)) :
    Accepts files path store.content after := by
  unfold save at h
  rw [hpath] at h
  dsimp only at h
  split at h
  · cases h
  next prepared hprepared =>
  split at h
  · cases h
  next written hwritten =>
  split at h
  · cases h
  next renamed hrenamed =>
  cases h
  exact ⟨prepared, written, hprepared, hwritten, hrenamed⟩

theorem sameFiles_prepare {files prepared : FileSystem} {path : Path}
    (h : prepare files path = .ok prepared) : files.SameFiles prepared := by
  unfold prepare at h
  split at h
  · exact FileSystem.sameFiles_ensureDirectories h
  · cases h
    exact .refl files

/-- Whether only the file that a path leads to has changed, and holds a content now. -/
def ChangesOnly (files after : FileSystem) (path : Path) (content : List UInt8) : Prop :=
  ∃ place executable, after.resolve path = .ok (.node place (.file content executable)) ∧
    ∀ address, address ≠ place → after.tree.fileAt? address = files.tree.fileAt? address

/-- **What a save changes.** After a save the path of the store leads to a file with the text of the
store. With the directories in place, its temporary neighbour leads to another place or to the same
one; a file that stood in that other place is gone, and all other files are as they were. So the
save touches the file of the store only, exactly if the neighbour is that file, or if there was no
file under its path. -/
theorem save_changesOnly_iff {store : Store} {path : Path} (hpath : store.path = some path)
    {files after : FileSystem} (hsave : store.save files = (.ok (), after)) :
    ∃ prepared beside place executable, prepare files path = .ok prepared ∧
      prepared.resolve (temporary path) = .ok beside ∧
      after.resolve path = .ok (.node place (.file store.content executable)) ∧
      (∀ address, after.tree.fileAt? address =
        if address = place then some (store.content, executable)
        else if address = beside.address then none
        else files.tree.fileAt? address) ∧
      (ChangesOnly files after path store.content ↔
        temporary path = path ∨ prepared.isFile (temporary path) = false) := by
  obtain ⟨prepared, written, hprepare, hwrite, hrename⟩ := accepts_of_save hpath hsave
  obtain ⟨executable, beside, target, h⟩ := FileSystem.exists_replaces hwrite hrename
  have hsame := sameFiles_prepare hprepare
  have hfiles : ∀ address, after.tree.fileAt? address =
      if address = target.address then some (store.content, executable)
      else if address = beside.address then none
      else files.tree.fileAt? address := by
    intro address
    rw [h.fileAt?_renamed, hsame]
  refine ⟨prepared, beside, target.address, executable, hprepare, h.beside_resolves, h.resolve_path,
    hfiles, ?_⟩
  rw [FileSystem.isFile_eq_false_iff h.beside_resolves h.beside_free, hsame, temporary,
    ← h.address_eq_iff separator_not_mem_temporaryExtension]
  constructor
  -- the place of the file is not free to choose, since the path leads there
  · rintro ⟨place, _, hplace, hothers⟩
    obtain ⟨rfl, -⟩ := FileSystem.Target.node.inj (Except.ok.inj (hplace.symm.trans h.resolve_path))
    by_cases heq : target.address = beside.address
    · exact .inl heq
    · have hbeside := hothers beside.address (Ne.symm heq)
      rw [hfiles, if_neg (Ne.symm heq), if_pos rfl] at hbeside
      exact .inr hbeside.symm
  · intro hspared
    refine ⟨target.address, executable, h.resolve_path, fun address hne => ?_⟩
    rw [hfiles, if_neg hne]
    split
    · next hbeside =>
      rcases hspared with heq | hnone
      · exact absurd (hbeside.trans heq.symm) hne
      · rw [hbeside, hnone]
    · rfl

theorem save_changesOnly_iff_unsaved :
    unsaved.path = some configPath ∧
      unsaved.save { tree := .directory [] } = (.ok (), holding unsaved.content) ∧
      ChangesOnly { tree := .directory [] } (holding unsaved.content) configPath
        unsaved.content := by
  have hsave := save_of_accepts rfl (accepts_first unsaved.content)
  obtain ⟨prepared, _, _, _, hprepared, -, -, -, hiff⟩ := save_changesOnly_iff rfl hsave
  obtain rfl : { tree := .directory [] } = prepared := Except.ok.inj hprepared
  refine ⟨rfl, hsave, hiff.2 (.inr ?_)⟩
  rw [temporary_configPath]
  rfl

/-- A file with the name of the temporary neighbour is lost. -/
theorem neighbour_lost :
    ∃ files after, unsaved.save files = (.ok (), after) ∧
      files.readBytes (temporary configPath) = .ok [0x78] ∧
      after.pathExists (temporary configPath) = false ∧
      ¬ChangesOnly files after configPath unsaved.content := by
  let before : FileSystem :=
    { tree := .directory [([0x63, 0x2E, 0x74, 0x6D, 0x70], .file [0x78] false)] }
  have haccepts : Accepts before configPath unsaved.content (holding unsaved.content) := by
    rw [Accepts, temporary_configPath]
    let written : FileTree :=
      .directory [([0x63, 0x2E, 0x74, 0x6D, 0x70], .file unsaved.content false)]
    exact ⟨before, { tree := written }, rfl, rfl, rfl⟩
  refine ⟨before, holding unsaved.content, save_of_accepts rfl haccepts, ?_, ?_, ?_⟩
  · rw [temporary_configPath]
    rfl
  · rw [temporary_configPath]
    rfl
  · rintro ⟨place, executable, hplace, hothers⟩
    obtain ⟨rfl, -⟩ := FileSystem.Target.node.inj (Except.ok.inj hplace)
    have hlost := hothers [[0x63, 0x2E, 0x74, 0x6D, 0x70]] (by decide)
    cases hlost

end JavaAtlas.Config.Store
