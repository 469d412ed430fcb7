import Mathlib.Data.List.Basic
import Mathlib.Data.List.Induction
import Mathlib.Data.List.TakeWhile
import Mathlib.Tactic.SplitIfs
import JavaAtlas.Path

set_option autoImplicit false

/-! # The last part of a path

A path is a front, which is empty or ends with a separator, and a last part without separators
(`exists_front`). Exchanging the extension of a path that ends with a name changes nothing but the
last part (`withExtension_append`). -/

namespace JavaAtlas.Path

/-! ## Parts -/

theorem split_ne_nil (bytes : List UInt8) : split bytes ≠ [] := by
  cases bytes with
  | nil => simp [split]
  | cons b rest =>
    rw [split]
    split
    · simp
    · split <;> simp

theorem split_of_not_mem {part : List UInt8} (h : separator ∉ part) : split part = [part] := by
  induction part with
  | nil => rfl
  | cons b rest ih =>
    rw [List.mem_cons, not_or] at h
    rw [split, if_neg (Ne.symm h.1), ih h.2]

theorem split_append_separator (front rest : List UInt8) :
    split (front ++ separator :: rest) = split front ++ split rest := by
  induction front with
  | nil =>
    show (if separator = separator then [] :: split rest else _) = _
    rw [if_pos rfl]
    rfl
  | cons b front ih =>
    rw [List.cons_append, split, split, ih]
    by_cases hb : b = separator
    · rw [if_pos hb, if_pos hb, List.cons_append]
    · rw [if_neg hb, if_neg hb]
      cases hfront : split front with
      | nil => exact absurd hfront (split_ne_nil front)
      | cons part parts => rfl

/-- Whether some bytes end where the last part of a path may begin. -/
def IsFront (front : List UInt8) : Prop := front = [] ∨ ∃ before, front = before ++ [separator]

theorem exists_front (bytes : List UInt8) :
    ∃ front part, IsFront front ∧ separator ∉ part ∧ bytes = front ++ part := by
  induction bytes using List.reverseRecOn with
  | nil => exact ⟨[], [], .inl rfl, by simp, rfl⟩
  | append_singleton bytes b ih =>
    by_cases hb : b = separator
    · exact ⟨bytes ++ [b], [], .inr ⟨bytes, by rw [hb]⟩, by simp, by simp⟩
    · obtain ⟨front, part, hfront, hpart, rfl⟩ := ih
      exact ⟨front, part ++ [b], hfront, by simp [hpart, Ne.symm hb], by simp⟩

/-- The front determines all parts but the last one. -/
theorem IsFront.exists_split {front : List UInt8} (h : IsFront front) :
    ∃ parts, ∀ part, separator ∉ part → split (front ++ part) = parts ++ [part] := by
  rcases h with rfl | ⟨before, rfl⟩
  · exact ⟨[], fun part hpart => split_of_not_mem hpart⟩
  · refine ⟨split before, fun part hpart => ?_⟩
    rw [List.append_assoc, List.singleton_append, split_append_separator, split_of_not_mem hpart]

/-! ## Names -/

/-- Whether a part is the name of a file. -/
def IsName (part : List UInt8) : Prop := separator ∉ part ∧ stepOf? part = some (.name part)

theorem name_of_stepOf? {part name : List UInt8} (h : stepOf? part = some (.name name)) :
    name = part := by
  unfold stepOf? at h
  split at h
  · cases h
  · split at h <;> cases h
    rfl

theorem isName_iff {part : List UInt8} :
    IsName part ↔ separator ∉ part ∧ part ≠ [] ∧ part ≠ [dot] ∧ part ≠ [dot, dot] := by
  unfold IsName stepOf?
  split
  · next h => rcases h with rfl | rfl <;> simp
  · next h =>
    rw [not_or] at h
    split <;> simp_all

/-- The last component of a path is the step that its last part stands for. -/
theorem getLast?_components {front part : List UInt8} (hfront : IsFront front)
    (hpart : separator ∉ part) {step : Component} (hstep : stepOf? part = some step) :
    (components ⟨front ++ part⟩).getLast? = some step := by
  obtain ⟨parts, hsplit⟩ := hfront.exists_split
  unfold components
  dsimp only
  rw [hsplit part hpart, List.filterMap_append, List.filterMap_cons_some hstep,
    List.filterMap_nil, ← List.append_assoc, List.getLast?_concat]

theorem fileName?_append {front name : List UInt8} (hfront : IsFront front) (hname : IsName name) :
    fileName? ⟨front ++ name⟩ = some name := by
  rw [fileName?, getLast?_components hfront hname.1 hname.2]

/-- Nothing has to be dropped after a name. -/
theorem dropTrailingSteps_append (front : List UInt8) {name : List UInt8} (hname : IsName name) :
    dropTrailingSteps (front ++ name) = front ++ name := by
  obtain ⟨hseparator, hnil, hdot, -⟩ := isName_iff.1 hname
  obtain ⟨before, b, rfl⟩ := (List.eq_nil_or_concat' name).resolve_left hnil
  simp only [List.mem_append, List.mem_singleton, not_or] at hseparator
  have hgo : dropTrailingSteps.go (front ++ (before ++ [b])).reverse =
      (front ++ (before ++ [b])).reverse := by
    simp only [List.reverse_append, List.reverse_singleton, List.cons_append]
    rw [dropTrailingSteps.go.eq_def]
    dsimp only
    rw [if_neg (Ne.symm hseparator.2)]
    split_ifs with hb
    · -- the dot is not the whole name, so another byte of the name stands before it
      obtain ⟨before, c, rfl⟩ := (List.eq_nil_or_concat' before).resolve_left fun hbefore =>
        hdot (by rw [hbefore, hb]; rfl)
      have hc : c ≠ separator := by
        rintro rfl
        exact hseparator.1 (by simp)
      simp [hc]
    · rfl
  rw [dropTrailingSteps, hgo, List.reverse_reverse]

/-! ## Extensions -/

theorem splitExtension_of_not_mem {name : List UInt8} (h : dot ∉ name) :
    splitExtension name = (name, none) := by
  have htail : (name.reverse.takeWhile (· ≠ dot)).reverse = name := by
    rw [List.takeWhile_eq_self_iff.2 fun b hb => ?_, List.reverse_reverse]
    rw [List.mem_reverse] at hb
    exact decide_eq_true fun hdot => h (hdot ▸ hb)
  unfold splitExtension
  dsimp only
  rw [htail, if_pos (.inl rfl)]

/-- The extension stands behind the last dot, but not behind a dot at the beginning. -/
theorem splitExtension_append (stem : List UInt8) {extension : List UInt8} (h : dot ∉ extension) :
    splitExtension (stem ++ dot :: extension) =
      if stem = [] then (stem ++ dot :: extension, none) else (stem, some extension) := by
  have htail : ((stem ++ dot :: extension).reverse.takeWhile (· ≠ dot)).reverse = extension := by
    rw [List.reverse_append, List.reverse_cons, List.append_assoc,
      List.takeWhile_append_of_pos fun b hb => ?_, List.singleton_append,
      List.takeWhile_cons_of_neg (by simp), List.append_nil, List.reverse_reverse]
    rw [List.mem_reverse] at hb
    exact decide_eq_true fun hdot => h (hdot ▸ hb)
  have hstem : (stem ++ dot :: extension).take
      ((stem ++ dot :: extension).length - extension.length - 1) = stem := by
    rw [List.length_append, List.length_cons, List.take_append_of_le_length (by omega),
      List.take_of_length_le (by omega)]
  unfold splitExtension
  dsimp only
  rw [htail, hstem]
  have hlength : extension.length ≠ (stem ++ dot :: extension).length := by
    rw [List.length_append, List.length_cons]
    omega
  by_cases hnil : stem = []
  · rw [if_pos (.inr hnil), if_pos hnil]
  · rw [if_neg (not_or.2 ⟨hlength, hnil⟩), if_neg hnil]

/-- A name has no extension, or it is a stem with an extension. -/
theorem splitExtension_cases (name : List UInt8) :
    splitExtension name = (name, none) ∨
      ∃ stem extension, stem ≠ [] ∧ name = stem ++ dot :: extension ∧
        splitExtension name = (stem, some extension) := by
  by_cases hdot : dot ∈ name
  · obtain ⟨after, before, hname, hafter⟩ :=
      List.eq_append_cons_of_mem (List.mem_reverse.2 hdot)
    rw [List.reverse_eq_iff] at hname
    simp only [List.reverse_append, List.reverse_cons, List.append_assoc,
      List.singleton_append] at hname
    have hsplit := splitExtension_append before.reverse (List.mem_reverse.not.2 hafter)
    rw [← hname] at hsplit
    by_cases hnil : before.reverse = []
    · exact .inl (by rw [hsplit, if_pos hnil])
    · exact .inr ⟨_, _, hnil, hname, by rw [hsplit, if_neg hnil]⟩
  · exact .inl (splitExtension_of_not_mem hdot)

theorem setExtension_append {front name : List UInt8} (hfront : IsFront front)
    (hname : IsName name) (extension : List UInt8) :
    setExtension ⟨front ++ name⟩ extension =
      ⟨front ++ ((splitExtension name).1 ++ dot :: extension)⟩ := by
  unfold setExtension
  rw [fileName?_append hfront hname]
  dsimp only
  rw [dropTrailingSteps_append front hname]
  simp

theorem not_mem_append_dot {stem extension : List UInt8} (hstem : separator ∉ stem)
    (hextension : separator ∉ extension) : separator ∉ stem ++ dot :: extension := by
  have hdot : separator ≠ dot := by decide
  simp [hstem, hextension, hdot]

/-- Exchanging the extension changes nothing but the last part of a path. -/
theorem withExtension_append {front name : List UInt8} (hfront : IsFront front)
    (hname : IsName name) {extension : List UInt8} (hextension : separator ∉ extension) :
    ∃ part, separator ∉ part ∧ withExtension ⟨front ++ name⟩ extension = ⟨front ++ part⟩ := by
  have hfile := fileName?_append hfront hname
  unfold withExtension
  rcases splitExtension_cases name with hsplit | ⟨stem, old, hstem, rfl, hsplit⟩
  · have hcut : extension? ⟨front ++ name⟩ = none := by
      rw [extension?, hfile, Option.bind_some, hsplit]
    have hset := setExtension_append hfront hname extension
    rw [hsplit] at hset
    rw [hcut]
    simp only [Option.map_none, Option.getD_none, Nat.sub_zero, List.take_length]
    exact ⟨_, not_mem_append_dot hname.1 hextension, hset⟩
  · have hplain : separator ∉ stem := fun hmem => hname.1 (List.mem_append_left _ hmem)
    have hcut : extension? ⟨front ++ (stem ++ dot :: old)⟩ = some old := by
      rw [extension?, hfile, Option.bind_some, hsplit]
    have hkept : (front ++ (stem ++ dot :: old)).take
        ((front ++ (stem ++ dot :: old)).length - old.length) = front ++ (stem ++ [dot]) := by
      have hparts : front ++ (stem ++ dot :: old) = front ++ (stem ++ [dot]) ++ old := by simp
      have hlength : (front ++ (stem ++ [dot]) ++ old).length - old.length =
          (front ++ (stem ++ [dot])).length := by
        rw [List.length_append, Nat.add_sub_cancel]
      rw [hparts, hlength, List.take_left]
    rw [hcut]
    simp only [Option.map_some, Option.getD_some, hkept]
    by_cases hparent : stem = [dot]
    · -- what is left is the step to the parent, which has no extension to exchange
      subst hparent
      have hlast : (components ⟨front ++ [dot, dot]⟩).getLast? = some .parent :=
        getLast?_components hfront (by decide) rfl
      exact ⟨[dot, dot], by decide, by simp [setExtension, fileName?, hlast]⟩
    · have hstart : IsName (stem ++ [dot]) := by
        refine isName_iff.2 ⟨not_mem_append_dot hplain (by simp), by simp, fun heq => ?_,
          fun heq => ?_⟩
        · simp at heq
          exact hstem heq
        · exact hparent (List.append_cancel_right (heq : stem ++ [dot] = [dot] ++ [dot]))
      have hset := setExtension_append hfront hstart extension
      rw [splitExtension_append stem (by simp), if_neg hstem] at hset
      exact ⟨_, not_mem_append_dot hplain hextension, hset⟩

end JavaAtlas.Path
