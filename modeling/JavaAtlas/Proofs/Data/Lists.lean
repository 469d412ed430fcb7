import Mathlib.Data.List.Flatten
import Mathlib.Data.List.Forall2
import Mathlib.Data.List.Induction
import Mathlib.Data.List.Nodup

set_option autoImplicit false

/-! # Filtered lists

What a filter leaves of a list that is keyed by a function, of lists that go in step, and of a list
that is put together from the lists of its elements. -/

namespace JavaAtlas.Lists

variable {α β : Type}

/-- A filter for the key of one element leaves that element alone. -/
theorem filter_eq_singleton [DecidableEq β] {f : α → β} {l : List α} {a : α}
    (hnodup : (l.map f).Nodup) (ha : a ∈ l) : l.filter (f · = f a) = [a] := by
  induction l with
  | nil => simp at ha
  | cons b rest ih =>
    rw [List.map_cons, List.nodup_cons, List.mem_map] at hnodup
    obtain ⟨hfresh, hrest⟩ := hnodup
    rcases List.mem_cons.1 ha with rfl | ha
    · rw [List.filter_cons_of_pos (by simp), List.filter_eq_nil_iff.2]
      intro c hc heq
      exact hfresh ⟨c, hc, of_decide_eq_true heq⟩
    · rw [List.filter_cons_of_neg, ih hrest ha]
      intro heq
      exact hfresh ⟨a, ha, (of_decide_eq_true heq).symm⟩

/-- A search for the key of an element finds that element. -/
theorem find?_eq_some_iff [DecidableEq β] {f : α → β} {l : List α} (hnodup : (l.map f).Nodup)
    {b : β} {a : α} : l.find? (f · = b) = some a ↔ a ∈ l ∧ f a = b := by
  constructor
  · intro h
    exact ⟨List.mem_of_find?_eq_some h, by simpa using List.find?_some h⟩
  · rintro ⟨ha, rfl⟩
    cases hfind : l.find? (f · = f a) with
    | none => simpa using List.find?_eq_none.1 hfind a ha
    | some c =>
      have hc := List.mem_of_find?_eq_some hfind
      have hkey : f c = f a := by simpa using List.find?_some hfind
      rw [List.inj_on_of_nodup_map hnodup hc ha hkey]

/-- A list in which a key occurs twice has a first element whose key was there before. -/
theorem exists_first_repeat {f : α → β} {l : List α} (h : ¬(l.map f).Nodup) :
    ∃ before a after, l = before ++ a :: after ∧ (before.map f).Nodup ∧ f a ∈ before.map f := by
  induction l using List.reverseRecOn with
  | nil => exact absurd List.nodup_nil h
  | append_singleton l a ih =>
    by_cases hnodup : (l.map f).Nodup
    · refine ⟨l, a, [], rfl, hnodup, ?_⟩
      by_contra hfresh
      rw [List.map_append, List.map_singleton] at h
      exact h (hnodup.append (List.nodup_singleton _) (List.disjoint_singleton.2 hfresh))
    · obtain ⟨before, b, after, rfl, hrest⟩ := ih hnodup
      exact ⟨before, b, after ++ [a], by rw [List.append_assoc]; rfl, hrest⟩

/-- Two readings of one list that drop no element go in step. -/
theorem forall₂_filterMap_filterMap {γ : Type} {f : α → Option β} {g : α → Option γ}
    {R : β → γ → Prop} {l : List α}
    (h : ∀ a ∈ l, ∃ b c, f a = some b ∧ g a = some c ∧ R b c) :
    List.Forall₂ R (l.filterMap f) (l.filterMap g) := by
  induction l with
  | nil => exact .nil
  | cons a rest ih =>
    rw [List.forall_mem_cons] at h
    obtain ⟨⟨b, c, hb, hc, hbc⟩, hrest⟩ := h
    rw [List.filterMap_cons_some hb, List.filterMap_cons_some hc]
    exact .cons hbc (ih hrest)

/-- What is read of a list goes in step with the list if no element is dropped. -/
theorem forall₂_filterMap {f : α → Option β} {R : α → β → Prop} {l : List α}
    (h : ∀ a ∈ l, ∃ b, f a = some b ∧ R a b) : List.Forall₂ R l (l.filterMap f) := by
  have hstep : List.Forall₂ R (l.filterMap some) (l.filterMap f) := by
    refine forall₂_filterMap_filterMap fun a ha => ?_
    obtain ⟨b, hb, hab⟩ := h a ha
    exact ⟨a, b, rfl, hb, hab⟩
  rwa [List.filterMap_some] at hstep

/-- Filters that agree step by step leave the same of two lists in step. -/
theorem map_filter_eq_of_forall₂ {γ : Type} {p : α → Bool} {q : β → Bool} {f : α → γ} {g : β → γ}
    {l : List α} {m : List β} (h : List.Forall₂ (fun a b => p a = q b ∧ f a = g b) l m) :
    (l.filter p).map f = (m.filter q).map g := by
  induction h with
  | nil => rfl
  | cons hab _ ih =>
    obtain ⟨hp, hf⟩ := hab
    rw [List.filter_cons, List.filter_cons, hp]
    split
    · rw [List.map_cons, List.map_cons, hf, ih]
    · exact ih

theorem flatMap_filter (p : α → Prop) [DecidablePred p] (f : α → List β)
    (l : List α) : (l.filter (p ·)).flatMap f = l.flatMap fun a => if p a then f a else [] := by
  induction l with
  | nil => rfl
  | cons a rest ih =>
    by_cases hp : p a
    · rw [List.filter_cons_of_pos (by simpa using hp), List.flatMap_cons, List.flatMap_cons, ih,
        if_pos hp]
    · rw [List.filter_cons_of_neg (by simpa using hp), List.flatMap_cons, ih, if_neg hp,
        List.nil_append]

/-- A filter makes no difference exactly if the elements that it drops contribute nothing. -/
theorem flatMap_filter_eq_iff {p : α → Bool} {f : α → List β} {l : List α} :
    (l.filter p).flatMap f = l.flatMap f ↔ ∀ a ∈ l, ¬p a = true → f a = [] := by
  induction l with
  | nil => simp
  | cons a rest ih =>
    rw [List.forall_mem_cons, ← ih, List.flatMap_cons]
    by_cases hp : p a = true
    · rw [List.filter_cons_of_pos hp, List.flatMap_cons, List.append_cancel_left_eq]
      exact ⟨fun h => ⟨fun hn => absurd hp hn, h⟩, And.right⟩
    · rw [List.filter_cons_of_neg hp]
      constructor
      · intro h
        -- what is left after the filter is no longer than the rest, so `f a` has no element
        have hshort := ((List.filter_sublist (p := p) (l := rest)).flatMap f).length_le
        have hlength := congrArg List.length h
        rw [List.length_append] at hlength
        have hnil : f a = [] := List.eq_nil_of_length_eq_zero (by omega)
        exact ⟨fun _ => hnil, by rw [h, hnil, List.nil_append]⟩
      · rintro ⟨hnil, h⟩
        rw [h, hnil hp, List.nil_append]

end JavaAtlas.Lists
