import Mathlib.Data.List.Induction
import Mathlib.Data.List.Nodup
import JavaAtlas.Data.Dict

set_option autoImplicit false

/-! # Lookup in dictionaries

A dictionary is known by its lookup function: `mem_entries_iff` says that the entries are exactly
the pairs that lookup finds, and every operation has one equation for the lookup after it. The last
section is about dictionaries that are filled by a fold in which the first value of a key counts. -/

namespace JavaAtlas

namespace Assoc

variable {κ α : Type}

theorem mem_keys_iff {key : κ} {entries : List (κ × α)} :
    key ∈ keys entries ↔ ∃ a, (key, a) ∈ entries := by
  simp [keys]

variable [DecidableEq κ]

theorem mem_of_find?_eq_some {key : κ} {a : α} {entries : List (κ × α)}
    (h : find? key entries = some a) : (key, a) ∈ entries := by
  induction entries with
  | nil => simp at h
  | cons entry rest ih =>
    obtain ⟨k, b⟩ := entry
    rw [find?_cons] at h
    split at h
    · next hk =>
      simp only [Option.some.injEq] at h
      subst hk h
      exact List.mem_cons_self
    · exact List.mem_cons_of_mem _ (ih h)

theorem find?_eq_some_of_mem {key : κ} {a : α} {entries : List (κ × α)}
    (hnodup : (keys entries).Nodup) (hmem : (key, a) ∈ entries) :
    find? key entries = some a := by
  induction entries with
  | nil => simp at hmem
  | cons entry rest ih =>
    obtain ⟨k, b⟩ := entry
    rw [keys_cons, List.nodup_cons] at hnodup
    obtain ⟨hfresh, hrest⟩ := hnodup
    rw [find?_cons]
    rcases List.mem_cons.1 hmem with heq | hmem
    · obtain ⟨rfl, rfl⟩ := Prod.mk.inj heq
      exact if_pos rfl
    · have hne : k ≠ key := fun h => hfresh (h ▸ mem_keys_iff.2 ⟨a, hmem⟩)
      rw [if_neg hne]
      exact ih hrest hmem

theorem find?_append (key : κ) (xs ys : List (κ × α)) :
    find? key (xs ++ ys) = (find? key xs).or (find? key ys) := by
  induction xs with
  | nil => rfl
  | cons entry rest ih =>
    obtain ⟨k, a⟩ := entry
    rw [List.cons_append, find?_cons, find?_cons, ih]
    split
    · rw [Option.some_or]
    · rfl

theorem find?_isSome_iff {key : κ} {entries : List (κ × α)} :
    (find? key entries).isSome = true ↔ key ∈ keys entries := by
  rw [← Option.ne_none_iff_isSome, ne_eq, find?_eq_none_iff, Classical.not_not]

/-- A search among pairs that are made of elements is a search among the elements. -/
theorem find?_map {γ : Type} (f : γ → κ) (g : γ → α) (key : κ) (l : List γ) :
    find? key (l.map fun c => (f c, g c)) = (l.find? (f · = key)).map g := by
  induction l with
  | nil => rfl
  | cons c rest ih =>
    rw [List.map_cons, find?_cons, ih, List.find?_cons]
    by_cases hkey : f c = key
    · simp [hkey]
    · simp [hkey]

omit [DecidableEq κ] in
theorem not_mem_keys_of_nodup {key : κ} {a : α} {before after : List (κ × α)}
    (h : (keys (before ++ (key, a) :: after)).Nodup) : key ∉ keys before := by
  intro hmem
  rw [keys, List.map_append, List.nodup_append] at h
  exact h.2.2 key hmem key List.mem_cons_self rfl

/-- A new key goes to the end. -/
theorem insert_of_not_mem {key : κ} {entries : List (κ × α)} (h : key ∉ keys entries) (a : α) :
    insert key a entries = entries ++ [(key, a)] := by
  induction entries with
  | nil => rfl
  | cons entry rest ih =>
    obtain ⟨k, b⟩ := entry
    rw [keys_cons, List.mem_cons, not_or] at h
    rw [insert, if_neg fun hk => h.1 hk.symm, ih h.2]
    rfl

theorem find?_filter {p : κ × α → Bool} {key : κ} {entries : List (κ × α)}
    (h : ∀ a, find? key entries = some a → p (key, a) = true) :
    find? key (entries.filter p) = find? key entries := by
  induction entries with
  | nil => rfl
  | cons entry rest ih =>
    obtain ⟨k, b⟩ := entry
    rw [find?_cons] at h ⊢
    by_cases hk : k = key
    · subst hk
      rw [if_pos rfl] at h ⊢
      rw [List.filter_cons_of_pos (h b rfl), find?_cons, if_pos rfl]
    · rw [if_neg hk] at h ⊢
      rw [List.filter_cons, ← ih h]
      split
      · rw [find?_cons, if_neg hk]
      · rfl

theorem find?_erase (key other : κ) (entries : List (κ × α)) :
    find? other (erase key entries) = if key = other then none else find? other entries := by
  by_cases h : key = other
  · subst h
    rw [if_pos rfl, find?_eq_none_iff, mem_keys_iff]
    rintro ⟨a, hmem⟩
    exact of_decide_eq_true (List.mem_filter.1 hmem).2 rfl
  · rw [if_neg h]
    exact find?_filter fun _ _ => decide_eq_true (Ne.symm h)

end Assoc

namespace Dict

variable {κ α : Type} [DecidableEq κ]

theorem mem_entries_iff {d : Dict κ α} {key : κ} {a : α} :
    (key, a) ∈ d.entries ↔ d.get? key = some a :=
  ⟨Assoc.find?_eq_some_of_mem d.nodup, Assoc.mem_of_find?_eq_some⟩

theorem mem_keys_iff {d : Dict κ α} {key : κ} : key ∈ d.keys ↔ ∃ a, d.get? key = some a := by
  unfold keys
  rw [Assoc.mem_keys_iff]
  simp only [mem_entries_iff]

/-- The order of the entries does not matter for lookup. -/
theorem get?_eq_of_perm {d e : Dict κ α} (h : d.entries.Perm e.entries) (key : κ) :
    d.get? key = e.get? key := by
  refine Option.ext fun a => ?_
  rw [← mem_entries_iff, ← mem_entries_iff]
  exact h.mem_iff

theorem get?_insertNew (d : Dict κ α) (key other : κ) (a : α) :
    (d.insertNew key a).get? other = (d.get? other).or (if key = other then some a else none) := by
  unfold insertNew contains
  cases h : d.get? key with
  | some b =>
    simp only [Option.isSome_some, if_true]
    by_cases hk : key = other
    · subst hk
      rw [h, Option.some_or]
    · rw [if_neg hk, Option.or_none]
  | none =>
    simp only [Option.isSome_none, Bool.false_eq_true, if_false]
    rw [get?_insert]
    by_cases hk : key = other
    · subst hk
      rw [if_pos rfl, if_pos rfl, h, Option.none_or]
    · rw [if_neg hk, if_neg hk, Option.or_none]

omit [DecidableEq κ] in
/-- Lists for the entries have no element twice if every element tells the key that it is from. -/
theorem nodup_flatMap_entries {β : Type} (d : Dict κ α) (f : κ × α → List β) (tag : β → κ)
    (hnodup : ∀ entry ∈ d.entries, (f entry).Nodup)
    (htag : ∀ entry ∈ d.entries, ∀ b ∈ f entry, tag b = entry.1) :
    (d.entries.flatMap f).Nodup := by
  have hkeys : d.entries.Pairwise fun x y => x.1 ≠ y.1 := List.pairwise_map.1 d.nodup
  refine List.nodup_flatMap.2 ⟨hnodup, hkeys.imp_of_mem ?_⟩
  intro x y hx hy hne b hbx hby
  exact hne ((htag x hx b hbx).symm.trans (htag y hy b hby))

/-! ## Selected and changed entries -/

section

omit [DecidableEq κ]

theorem keys_map {β : Type} (d : Dict κ α) (f : κ → α → β) : (d.map f).keys = d.keys := by
  unfold keys map Assoc.keys
  rw [List.map_map]
  rfl

/-- If nothing is dropped, the keys stay as they are. -/
theorem keys_filterMap {β : Type} {d : Dict κ α} {f : κ → α → Option β}
    (h : ∀ entry ∈ d.entries, (f entry.1 entry.2).isSome = true) :
    (d.filterMap f).keys = d.keys := by
  show Assoc.keys (d.entries.filterMap fun entry => (f entry.1 entry.2).map (entry.1, ·)) =
    Assoc.keys d.entries
  generalize d.entries = entries at h
  induction entries with
  | nil => rfl
  | cons entry rest ih =>
    rw [List.forall_mem_cons] at h
    obtain ⟨b, hb⟩ := Option.isSome_iff_exists.1 h.1
    rw [List.filterMap_cons, hb]
    show entry.1 :: Assoc.keys _ = entry.1 :: Assoc.keys rest
    rw [ih h.2]

end

theorem get?_filterMap {β : Type} (d : Dict κ α) (f : κ → α → Option β) (key : κ) :
    (d.filterMap f).get? key = (d.get? key).bind (f key) := by
  refine Option.ext fun b => ?_
  rw [← mem_entries_iff, Option.bind_eq_some_iff]
  simp only [← mem_entries_iff, filterMap, List.mem_filterMap, Option.map_eq_some_iff,
    Prod.mk.injEq, Prod.exists]
  constructor
  · rintro ⟨k, a, hmem, b', hb, rfl, rfl⟩
    exact ⟨a, hmem, hb⟩
  · rintro ⟨a, hmem, hb⟩
    exact ⟨key, a, hmem, b, hb, rfl, rfl⟩

theorem get?_map {β : Type} (d : Dict κ α) (f : κ → α → β) (key : κ) :
    (d.map f).get? key = (d.get? key).map (f key) := by
  refine Option.ext fun b => ?_
  rw [← mem_entries_iff, Option.map_eq_some_iff]
  simp only [← mem_entries_iff, map, List.mem_map, Prod.mk.injEq, Prod.exists]
  constructor
  · rintro ⟨k, a, hmem, rfl, rfl⟩
    exact ⟨a, hmem, rfl⟩
  · rintro ⟨a, hmem, rfl⟩
    exact ⟨key, a, hmem, rfl, rfl⟩

theorem get?_filter (d : Dict κ α) (p : κ → α → Bool) (key : κ) :
    (d.filter p).get? key = (d.get? key).filter (p key) := by
  refine Option.ext fun a => ?_
  rw [← mem_entries_iff, Option.filter_eq_some_iff, ← mem_entries_iff]
  exact List.mem_filter

/-! ## Filling a dictionary -/

/-- Pairs with distinct keys are the entries of the dictionary that is made of them. -/
theorem entries_ofList {pairs : List (κ × α)} (h : (Assoc.keys pairs).Nodup) :
    (ofList pairs).entries = pairs := by
  have hfold : ∀ (d : Dict κ α), (Assoc.keys (d.entries ++ pairs)).Nodup →
      (pairs.foldl (fun d pair => d.insert pair.1 pair.2) d).entries = d.entries ++ pairs := by
    clear h
    induction pairs with
    | nil => simp
    | cons pair rest ih =>
      intro d hnodup
      have hfresh : pair.1 ∉ Assoc.keys d.entries := by
        intro hmem
        rw [Assoc.keys, List.map_append, List.nodup_append] at hnodup
        exact hnodup.2.2 pair.1 hmem pair.1 List.mem_cons_self rfl
      have hinsert : (d.insert pair.1 pair.2).entries = d.entries ++ [pair] :=
        Assoc.insert_of_not_mem hfresh pair.2
      rw [List.foldl_cons, ih _ (by rw [hinsert, List.append_assoc]; exact hnodup), hinsert,
        List.append_assoc]
      rfl
  exact hfold .empty h

/-- Inserts pairs one after the other, keeping the first value of each key. -/
def insertAllNew (d : Dict κ α) (pairs : List (κ × α)) : Dict κ α :=
  pairs.foldl (fun d pair => d.insertNew pair.1 pair.2) d

@[simp] theorem insertAllNew_nil (d : Dict κ α) : d.insertAllNew [] = d := rfl

theorem insertAllNew_append (d : Dict κ α) (xs ys : List (κ × α)) :
    d.insertAllNew (xs ++ ys) = (d.insertAllNew xs).insertAllNew ys :=
  List.foldl_append

theorem get?_insertAllNew (d : Dict κ α) (pairs : List (κ × α)) (key : κ) :
    (d.insertAllNew pairs).get? key = (d.get? key).or (Assoc.find? key pairs) := by
  induction pairs generalizing d with
  | nil => rw [insertAllNew_nil, Assoc.find?_nil, Option.or_none]
  | cons pair rest ih =>
    obtain ⟨k, a⟩ := pair
    have hstep : d.insertAllNew ((k, a) :: rest) = (d.insertNew k a).insertAllNew rest := rfl
    rw [hstep, ih, get?_insertNew, Option.or_assoc, Assoc.find?_cons]
    by_cases hk : k = key
    · rw [if_pos hk, if_pos hk, Option.some_or]
    · rw [if_neg hk, if_neg hk, Option.none_or]

theorem keys_insertNew (d : Dict κ α) (key : κ) (a : α) :
    (d.insertNew key a).keys = if key ∈ d.keys then d.keys else d.keys ++ [key] := by
  unfold insertNew
  by_cases hkey : key ∈ d.keys
  · rw [if_pos ((contains_iff d key).2 hkey), if_pos hkey]
  · rw [if_neg fun h => hkey ((contains_iff d key).1 h), keys_insert]

/-- The keys come in the order in which they were first inserted. -/
theorem keys_insertAllNew (pairs : List (κ × α)) :
    ((empty : Dict κ α).insertAllNew pairs).keys = (Assoc.keys pairs).eraseDups := by
  induction pairs using List.reverseRecOn with
  | nil => rfl
  | append_singleton pairs pair ih =>
    have hstep : (empty : Dict κ α).insertAllNew (pairs ++ [pair]) =
        ((empty : Dict κ α).insertAllNew pairs).insertNew pair.1 pair.2 :=
      insertAllNew_append ..
    have hkeys : Assoc.keys (pairs ++ [pair]) = Assoc.keys pairs ++ [pair.1] := List.map_append
    rw [hstep, keys_insertNew, ih, hkeys, List.eraseDups_append]
    by_cases hkey : pair.1 ∈ Assoc.keys pairs
    · simp [hkey, List.removeAll]
    · simp [hkey, List.removeAll, List.eraseDups_cons]

end Dict

end JavaAtlas
