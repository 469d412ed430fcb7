import Mathlib.Data.List.Infix
import JavaAtlas.Atlas.Basic
import JavaAtlas.Proofs.Data.Dict
import JavaAtlas.Proofs.Path
import JavaAtlas.Proofs.Text.Utf8

set_option autoImplicit false

/-! # Looking up a file

A path names a file of the project in one of three ways, of which the first that applies counts
(`Atlas.Names`). A lookup answers what it should for every path but the empty one: it has no
component, so its components are the last ones of every key, and where neither it nor the root of
the project is a key the lookup answers with the first file there is
(`compilationUnit_iff_names`). -/

namespace JavaAtlas

/-! ## Paths without components -/

namespace Path

/-- The first part of a path that does not begin at the root is not empty. -/
theorem split_cons {b : UInt8} (h : b ≠ separator) (rest : List UInt8) :
    ∃ part parts, split (b :: rest) = (b :: part) :: parts := by
  rw [split, if_neg h]
  cases hrest : split rest with
  | nil => exact absurd hrest (split_ne_nil rest)
  | cons part parts => exact ⟨part, parts, rfl⟩

/-- Only the empty path has no component. -/
theorem components_eq_nil_iff {p : Path} : p.components = [] ↔ p.bytes = [] := by
  obtain ⟨bytes⟩ := p
  cases bytes with
  | nil => decide
  | cons b rest =>
    refine iff_of_false (fun h => ?_) (List.cons_ne_nil b rest)
    unfold components at h
    dsimp only at h
    by_cases hroot : b = separator
    · subst hroot
      simp [isAbsolute] at h
    · obtain ⟨part, parts, hsplit⟩ := split_cons hroot rest
      have hrelative : ¬(⟨b :: rest⟩ : Path).isAbsolute = true := by simp [isAbsolute, hroot]
      rw [hsplit, if_neg hrelative] at h
      by_cases hdot : b :: part = [dot]
      · rw [hdot] at h
        simp at h
      · -- the first part is neither empty nor a dot, so it is a step
        have hstep : ∃ step, stepOf? (b :: part) = some step := by
          unfold stepOf?
          split
          · next hnone => simp [hdot] at hnone
          · split <;> exact ⟨_, rfl⟩
        obtain ⟨step, hstep⟩ := hstep
        rw [List.filterMap_cons_some hstep] at h
        simp at h

theorem components_ofString_eq_nil_iff {s : String} : (ofString s).components = [] ↔ s = "" := by
  have hempty : Utf8.encode "" = [] := by decide +kernel
  rw [components_eq_nil_iff]
  constructor
  · intro h
    have hread := Utf8.toString?_encode s
    have hbytes : Utf8.encode s = Utf8.encode "" := h.trans hempty.symm
    rw [hbytes, Utf8.toString?_encode] at hread
    exact (Option.some.inj hread).symm
  · rintro rfl
    exact hempty

theorem text?_eq_some_iff {p : Path} {s : String} : p.text? = some s ↔ p = ofString s := by
  obtain ⟨bytes⟩ := p
  show Utf8.toString? bytes = some s ↔ _
  rw [Utf8.toString?_eq_some_iff, ofString, mk.injEq]

theorem endsWith_iff {p suffix : Path} :
    p.endsWith suffix = true ↔ suffix.components <:+ p.components := List.isSuffixOf_iff_suffix

end Path

namespace Atlas

variable {atlas : Atlas} {path : String}

/-! ## What a path names -/

/-- Whether a path has a component and its components are the last ones of a key. -/
def NamesTail (path key : String) : Prop :=
  (Path.ofString path).components ≠ [] ∧
    (Path.ofString path).components <:+ (Path.ofString key).components

/-- Whether a path, seen from the root of the project, is a key. -/
def NamesFromRoot (atlas : Atlas) (path key : String) : Prop :=
  atlas.root.push path = .ofString key ∧ key ∈ atlas.symbolTable.keys

/-- The file that a path names: the one under the path itself, else the one under the path seen from
the root, else the first one whose key has the path as its tail. -/
inductive Names (atlas : Atlas) (path : String) : CompilationUnit → Prop where
  | key {unit : CompilationUnit} (h : atlas.symbolTable.get? path = some unit) :
      Names atlas path unit
  | fromRoot {key : String} {unit : CompilationUnit} (hkey : path ∉ atlas.symbolTable.keys)
      (hroot : atlas.NamesFromRoot path key) (h : atlas.symbolTable.get? key = some unit) :
      Names atlas path unit
  | tail {before after : List (String × CompilationUnit)} {key : String} {unit : CompilationUnit}
      (hkey : path ∉ atlas.symbolTable.keys) (hroot : ∀ key, ¬atlas.NamesFromRoot path key)
      (hentries : atlas.symbolTable.entries = before ++ (key, unit) :: after)
      (htail : NamesTail path key) (hfirst : ∀ entry ∈ before, ¬NamesTail path entry.1) :
      Names atlas path unit

/-- Whether a lookup answers with the file that a path names, and with a fault if it names none. -/
def AnswersAsNamed (atlas : Atlas) (path : String) : Prop :=
  (∀ unit, atlas.compilationUnit path = .ok unit ↔ atlas.Names path unit) ∧
    ((∀ unit, ¬atlas.Names path unit) → atlas.compilationUnit path = .error (.unknownFile path))

/-! ## What is found -/

/-- The file under a path, or under the path seen from the root. -/
def fileAt? (atlas : Atlas) (path : String) : Option CompilationUnit :=
  (atlas.symbolTable.get? path).or
    ((atlas.root.push path).text?.bind atlas.symbolTable.get?)

/-- The first file whose key ends with the components of a path. -/
def fileByTail? (atlas : Atlas) (path : String) : Option CompilationUnit :=
  (atlas.symbolTable.entries.find? fun entry =>
    (Path.ofString entry.1).endsWith (Path.ofString path)).map Prod.snd

theorem compilationUnit_eq (atlas : Atlas) (path : String) :
    atlas.compilationUnit path =
      ((atlas.fileAt? path).or (atlas.fileByTail? path)).elim (.error (.unknownFile path)) .ok := by
  unfold compilationUnit fileAt? fileByTail?
  dsimp only
  split
  · next unit hunit => rw [hunit]; rfl
  · next hnone => rw [hnone]; rfl

theorem get?_eq_none_iff {key : String} :
    atlas.symbolTable.get? key = none ↔ key ∉ atlas.symbolTable.keys :=
  Assoc.find?_eq_none_iff ..

theorem fromRoot?_eq_some_iff {unit : CompilationUnit} :
    (atlas.root.push path).text?.bind atlas.symbolTable.get? = some unit ↔
      ∃ key, atlas.NamesFromRoot path key ∧ atlas.symbolTable.get? key = some unit := by
  rw [Option.bind_eq_some_iff]
  constructor
  · rintro ⟨key, hkey, hunit⟩
    exact ⟨key, ⟨Path.text?_eq_some_iff.1 hkey, Dict.mem_keys_iff.2 ⟨unit, hunit⟩⟩, hunit⟩
  · rintro ⟨key, ⟨hkey, -⟩, hunit⟩
    exact ⟨key, Path.text?_eq_some_iff.2 hkey, hunit⟩

theorem fromRoot?_eq_none_iff :
    (atlas.root.push path).text?.bind atlas.symbolTable.get? = none ↔
      ∀ key, ¬atlas.NamesFromRoot path key := by
  rw [Option.eq_none_iff_forall_ne_some]
  constructor
  · intro h key hkey
    obtain ⟨unit, hunit⟩ := Dict.mem_keys_iff.1 hkey.2
    exact h unit (fromRoot?_eq_some_iff.2 ⟨key, hkey, hunit⟩)
  · intro h unit hunit
    obtain ⟨key, hkey, -⟩ := fromRoot?_eq_some_iff.1 hunit
    exact h key hkey

theorem fileAt?_eq_none_iff : atlas.fileAt? path = none ↔
    path ∉ atlas.symbolTable.keys ∧ ∀ key, ¬atlas.NamesFromRoot path key := by
  unfold fileAt?
  rw [Option.or_eq_none_iff, get?_eq_none_iff, fromRoot?_eq_none_iff]

/-- A path that is not empty ends exactly the keys that have it as their tail. -/
theorem endsWith_iff_namesTail (hpath : path ≠ "") {key : String} :
    (Path.ofString key).endsWith (.ofString path) = true ↔ NamesTail path key := by
  rw [Path.endsWith_iff]
  exact (and_iff_right fun h => hpath (Path.components_ofString_eq_nil_iff.1 h)).symm

theorem fileByTail?_eq_some_iff (hpath : path ≠ "") {unit : CompilationUnit} :
    atlas.fileByTail? path = some unit ↔ ∃ before key after,
      atlas.symbolTable.entries = before ++ (key, unit) :: after ∧ NamesTail path key ∧
        ∀ entry ∈ before, ¬NamesTail path entry.1 := by
  unfold fileByTail?
  rw [Option.map_eq_some_iff]
  constructor
  · rintro ⟨⟨key, unit⟩, hfind, rfl⟩
    obtain ⟨htail, before, after, hentries, hbefore⟩ := List.find?_eq_some_iff_append.1 hfind
    refine ⟨before, key, after, hentries, (endsWith_iff_namesTail hpath).1 htail, ?_⟩
    intro entry hentry hends
    have hnot := hbefore entry hentry
    rw [(endsWith_iff_namesTail hpath).2 hends] at hnot
    exact absurd hnot (by simp)
  · rintro ⟨before, key, after, hentries, htail, hbefore⟩
    refine ⟨(key, unit), List.find?_eq_some_iff_append.2 ⟨?_, before, after, hentries, ?_⟩, rfl⟩
    · exact (endsWith_iff_namesTail hpath).2 htail
    · intro entry hentry
      rw [Bool.not_eq_true', Bool.eq_false_iff]
      exact fun hends => hbefore entry hentry ((endsWith_iff_namesTail hpath).1 hends)

/-- The empty path ends every key, so it finds the first file. -/
theorem fileByTail?_empty (atlas : Atlas) :
    atlas.fileByTail? "" = atlas.symbolTable.entries.head?.map Prod.snd := by
  unfold fileByTail?
  have hends : ∀ key : String, (Path.ofString key).endsWith (.ofString "") = true := by
    intro key
    rw [Path.endsWith_iff, Path.components_ofString_eq_nil_iff.2 rfl]
    exact List.nil_suffix
  cases atlas.symbolTable.entries with
  | nil => rfl
  | cons entry rest => simp only [hends, List.find?_cons_of_pos, List.head?_cons]

theorem names_iff {unit : CompilationUnit} :
    atlas.Names path unit ↔ atlas.fileAt? path = some unit ∨ atlas.fileAt? path = none ∧
      ∃ before key after, atlas.symbolTable.entries = before ++ (key, unit) :: after ∧
        NamesTail path key ∧ ∀ entry ∈ before, ¬NamesTail path entry.1 := by
  constructor
  · rintro (h | ⟨hkey, hroot, h⟩ | ⟨hkey, hroot, hentries, htail, hfirst⟩)
    · exact .inl (Option.or_eq_some_iff.2 (.inl h))
    · exact .inl (Option.or_eq_some_iff.2
        (.inr ⟨get?_eq_none_iff.2 hkey, fromRoot?_eq_some_iff.2 ⟨_, hroot, h⟩⟩))
    · exact .inr ⟨fileAt?_eq_none_iff.2 ⟨hkey, hroot⟩, _, _, _, hentries, htail, hfirst⟩
  · rintro (h | ⟨h, before, key, after, hentries, htail, hfirst⟩)
    · rcases Option.or_eq_some_iff.1 h with h | ⟨hnone, h⟩
      · exact .key h
      · obtain ⟨key, hroot, hunit⟩ := fromRoot?_eq_some_iff.1 h
        exact .fromRoot (get?_eq_none_iff.1 hnone) hroot hunit
    · obtain ⟨hkey, hroot⟩ := fileAt?_eq_none_iff.1 h
      exact .tail hkey hroot hentries htail hfirst

theorem names_iff_of_ne (hpath : path ≠ "") {unit : CompilationUnit} :
    atlas.Names path unit ↔ (atlas.fileAt? path).or (atlas.fileByTail? path) = some unit := by
  rw [names_iff, Option.or_eq_some_iff, fileByTail?_eq_some_iff hpath]

/-- The empty path is no tail. -/
theorem names_empty_iff {unit : CompilationUnit} :
    atlas.Names "" unit ↔ atlas.fileAt? "" = some unit := by
  rw [names_iff]
  refine or_iff_left ?_
  rintro ⟨-, before, key, after, -, htail, -⟩
  exact htail.1 (Path.components_ofString_eq_nil_iff.2 rfl)

theorem exists_names_iff : (∃ unit, atlas.Names path unit) ↔ path ∈ atlas.symbolTable.keys ∨
    (∃ key, atlas.NamesFromRoot path key) ∨ ∃ key ∈ atlas.symbolTable.keys, NamesTail path key := by
  constructor
  · rintro ⟨unit, h | ⟨-, hroot, -⟩ | ⟨-, -, hentries, htail, -⟩⟩
    · exact .inl (Dict.mem_keys_iff.2 ⟨unit, h⟩)
    · exact .inr (.inl ⟨_, hroot⟩)
    · refine .inr (.inr ⟨_, Dict.mem_keys_iff.2 ⟨unit, Dict.mem_entries_iff.1 ?_⟩, htail⟩)
      rw [hentries]
      exact List.mem_append_right _ List.mem_cons_self
  · intro h
    cases hfound : atlas.fileAt? path with
    | some unit => exact ⟨unit, names_iff.2 (.inl hfound)⟩
    | none =>
      obtain ⟨hkey, hroot⟩ := fileAt?_eq_none_iff.1 hfound
      obtain ⟨key, hmem, htail⟩ := (h.resolve_left hkey).resolve_left fun ⟨key, h⟩ => hroot key h
      have hpath : path ≠ "" := fun h => htail.1 (Path.components_ofString_eq_nil_iff.2 h)
      obtain ⟨unit, hunit⟩ := Dict.mem_keys_iff.1 hmem
      obtain ⟨entry, hentry⟩ : ∃ entry, atlas.symbolTable.entries.find?
          (fun entry => (Path.ofString entry.1).endsWith (.ofString path)) = some entry :=
        Option.isSome_iff_exists.1 (List.find?_isSome.2
          ⟨_, Dict.mem_entries_iff.2 hunit, (endsWith_iff_namesTail hpath).2 htail⟩)
      refine ⟨entry.2, (names_iff_of_ne hpath).2 ?_⟩
      rw [hfound, Option.none_or, fileByTail?, hentry, Option.map_some]

/-! ## Looking up -/

theorem compilationUnit_eq_ok_iff {unit : CompilationUnit} : atlas.compilationUnit path = .ok unit ↔
    (atlas.fileAt? path).or (atlas.fileByTail? path) = some unit := by
  rw [compilationUnit_eq]
  cases (atlas.fileAt? path).or (atlas.fileByTail? path) <;> simp

theorem compilationUnit_eq_error_iff :
    atlas.compilationUnit path = .error (.unknownFile path) ↔
      (atlas.fileAt? path).or (atlas.fileByTail? path) = none := by
  rw [compilationUnit_eq]
  cases (atlas.fileAt? path).or (atlas.fileByTail? path) <;> simp

theorem answersAsNamed_of_ne (hpath : path ≠ "") : atlas.AnswersAsNamed path := by
  refine ⟨fun unit => compilationUnit_eq_ok_iff.trans (names_iff_of_ne hpath).symm, fun h => ?_⟩
  rw [compilationUnit_eq_error_iff, Option.eq_none_iff_forall_ne_some]
  exact fun unit hunit => h unit ((names_iff_of_ne hpath).2 hunit)

/-- The empty path is answered with the first file if it names none. -/
theorem compilationUnit_empty (h : atlas.fileAt? "" = none) : atlas.compilationUnit "" =
    (atlas.symbolTable.entries.head?.map Prod.snd).elim (.error (.unknownFile "")) .ok := by
  rw [compilationUnit_eq, h, Option.none_or, fileByTail?_empty]

/-- The empty path has its answer only where it names a file or there is none to be found. -/
theorem answersAsNamed_empty_iff : atlas.AnswersAsNamed "" ↔
    (∃ unit, atlas.Names "" unit) ∨ atlas.symbolTable.entries = [] := by
  cases hfound : atlas.fileAt? "" with
  | some unit =>
    refine iff_of_true ⟨fun other => ?_, fun h => ?_⟩ (.inl ⟨unit, names_empty_iff.2 hfound⟩)
    · rw [compilationUnit_eq_ok_iff, names_empty_iff, hfound, Option.some_or]
    · exact absurd (names_empty_iff.2 hfound) (h unit)
  | none =>
    have hnone : ∀ unit, ¬atlas.Names "" unit := by
      intro unit h
      rw [names_empty_iff, hfound] at h
      exact absurd h nofun
    rw [or_iff_right fun ⟨unit, h⟩ => hnone unit h, AnswersAsNamed, compilationUnit_empty hfound]
    cases hentries : atlas.symbolTable.entries with
    | nil => simp [hnone]
    | cons first rest => simp [hnone]

/-- **Looking up a file.** A path names a file exactly if it is a key, or is one seen from the root,
or has a component and ends a key. A lookup answers with the file that the path names, and with a
fault of the analysis if it names none, exactly if the path is not empty, or names a file all the
same, or there is no file at all. Otherwise it answers with the first file. -/
theorem compilationUnit_iff_names (atlas : Atlas) (path : String) :
    ((∃ unit, atlas.Names path unit) ↔ path ∈ atlas.symbolTable.keys ∨
      (∃ key, atlas.NamesFromRoot path key) ∨
      ∃ key ∈ atlas.symbolTable.keys, NamesTail path key) ∧
    (QueryFault.unknownFile path).toFailure.kind = .analysis ∧
    (atlas.AnswersAsNamed path ↔
      path ≠ "" ∨ (∃ unit, atlas.Names path unit) ∨ atlas.symbolTable.entries = []) ∧
    ∀ first rest, path = "" → (∀ unit, ¬atlas.Names path unit) →
      atlas.symbolTable.entries = first :: rest → atlas.compilationUnit path = .ok first.2 := by
  refine ⟨exists_names_iff, rfl, ?_, ?_⟩
  · by_cases hpath : path = ""
    · subst hpath
      exact answersAsNamed_empty_iff.trans (or_iff_right (not_not_intro rfl)).symm
    · exact iff_of_true (answersAsNamed_of_ne hpath) (.inl hpath)
  · rintro first rest rfl hnone hentries
    have hfound : atlas.fileAt? "" = none :=
      Option.eq_none_iff_forall_ne_some.2 fun unit h => hnone unit (names_empty_iff.2 h)
    rw [compilationUnit_empty hfound, hentries]
    rfl

/-- A program at `/p` with two files of the same name. -/
def twoRuns : Atlas := ofReport (.ofString "/p") {
  symbolTable := .ofList [
    ("app/Run.java", { filePath := "app/Run.java" }),
    ("lib/Run.java", { filePath := "lib/Run.java" })] }

theorem not_names_twoRuns : ∀ unit, ¬twoRuns.Names "" unit := by
  intro unit h
  have hnone : twoRuns.fileAt? "" = none := by decide +kernel
  exact nomatch hnone.symm.trans (names_empty_iff.1 h)

theorem compilationUnit_iff_names_twoRuns :
    twoRuns.AnswersAsNamed "./Run.java" ∧
    (∃ unit, twoRuns.Names "Run.java" unit ∧ twoRuns.compilationUnit "Run.java" = .ok unit ∧
      unit.filePath = "app/Run.java") ∧
    ∃ unit, (∀ other, ¬twoRuns.Names "" other) ∧ twoRuns.compilationUnit "" = .ok unit ∧
      unit.filePath = "app/Run.java" := by
  obtain ⟨hexists, -, hanswers, -⟩ := compilationUnit_iff_names twoRuns "Run.java"
  obtain ⟨unit, hunit⟩ := hexists.2
    (.inr (.inr ⟨"app/Run.java", by decide +kernel, by decide +kernel, by decide +kernel⟩))
  have hfound := ((hanswers.2 (.inl (by decide))).1 unit).2 hunit
  have hfirst : (twoRuns.compilationUnit "Run.java").toOption.map (·.filePath) =
    some "app/Run.java" := by decide +kernel
  rw [hfound] at hfirst
  refine ⟨(compilationUnit_iff_names twoRuns "./Run.java").2.2.1.2 (.inl (by decide)),
    ⟨unit, hunit, hfound, Option.some.inj hfirst⟩, { filePath := "app/Run.java" },
    not_names_twoRuns, ?_, rfl⟩
  exact (compilationUnit_iff_names twoRuns "").2.2.2 ("app/Run.java", _) _ rfl not_names_twoRuns rfl

/-- The empty path names no file here, and one is found all the same. -/
theorem empty_path_finds_file : ¬∀ (atlas : Atlas) (path : String), atlas.AnswersAsNamed path := by
  intro hanswers
  rcases answersAsNamed_empty_iff.1 (hanswers twoRuns "") with ⟨unit, h⟩ | h
  · exact not_names_twoRuns unit h
  · exact nomatch h

end Atlas

end JavaAtlas
