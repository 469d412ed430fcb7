import JavaAtlas.Data.Sorted
import JavaAtlas.Proofs.Data.Dict
import JavaAtlas.Proofs.Data.Sorting

set_option autoImplicit false

/-! # Maps that are kept in the order of their keys

Inserting into a list of pairs changes what is found under one key (`find?_insert`) and keeps the
keys in order (`IsSorted.insert`). A list of pairs in order is known by what is found in it
(`IsSorted.ext`). -/

namespace JavaAtlas.Sorted

variable {α β : Type}

/-- Whether the keys of some pairs grow from each pair to the next. -/
def IsSorted (entries : List (String × α)) : Prop := IncreasingBy Prod.fst entries

theorem isSorted_nil : IsSorted ([] : List (String × α)) := List.Pairwise.nil

theorem IsSorted.tail {entry : String × α} {rest : List (String × α)}
    (h : IsSorted (entry :: rest)) : IsSorted rest :=
  (List.pairwise_cons.1 h).2

theorem IsSorted.fresh {entry : String × α} {rest : List (String × α)}
    (h : IsSorted (entry :: rest)) : Assoc.find? entry.1 rest = none := by
  rw [Assoc.find?_eq_none_iff]
  intro hmem
  obtain ⟨a, ha⟩ := Assoc.mem_keys_iff.1 hmem
  exact absurd ((List.pairwise_cons.1 h).1 _ ha) (String.lt_irrefl _)

/-! ## Inserting -/

theorem insert_cons_lt {key k : String} (h : key < k) (value a : α) (rest : List (String × α)) :
    insert key value ((k, a) :: rest) = (key, value) :: (k, a) :: rest := by
  rw [insert, compare_lt_iff_lt.2 h]

theorem insert_cons_eq (key : String) (value a : α) (rest : List (String × α)) :
    insert key value ((key, a) :: rest) = (key, value) :: rest := by
  rw [insert, compare_eq_iff_eq.2 rfl]

theorem insert_cons_gt {key k : String} (h : k < key) (value a : α) (rest : List (String × α)) :
    insert key value ((k, a) :: rest) = (k, a) :: insert key value rest := by
  rw [insert, compare_gt_iff_gt.2 h]

/-- A key greater than all others comes last. -/
theorem insert_eq_append {key : String} {entries : List (String × α)}
    (h : ∀ entry ∈ entries, entry.1 < key) (value : α) :
    insert key value entries = entries ++ [(key, value)] := by
  induction entries with
  | nil => rfl
  | cons entry rest ih =>
    rw [List.forall_mem_cons] at h
    rw [insert_cons_gt h.1, ih h.2, List.cons_append]

theorem find?_insert (key other : String) (value : α) (entries : List (String × α)) :
    Assoc.find? other (insert key value entries) =
      if key = other then some value else Assoc.find? other entries := by
  induction entries with
  | nil => rfl
  | cons entry rest ih =>
    obtain ⟨k, a⟩ := entry
    rcases lt_trichotomy key k with hlt | rfl | hgt
    · rw [insert_cons_lt hlt, Assoc.find?_cons]
    · rw [insert_cons_eq, Assoc.find?_cons, Assoc.find?_cons]
      split <;> rfl
    · rw [insert_cons_gt hgt, Assoc.find?_cons, Assoc.find?_cons, ih]
      by_cases hk : k = other
      · rw [if_pos hk, if_pos hk, if_neg (hk ▸ ne_of_gt hgt)]
      · rw [if_neg hk, if_neg hk]

/-- What is inserted under a key last is what counts. -/
theorem insert_insert (key : String) (value earlier : α) (entries : List (String × α)) :
    insert key value (insert key earlier entries) = insert key value entries := by
  induction entries with
  | nil => exact insert_cons_eq ..
  | cons entry rest ih =>
    obtain ⟨k, a⟩ := entry
    rcases lt_trichotomy key k with hlt | rfl | hgt
    · rw [insert_cons_lt hlt, insert_cons_lt hlt, insert_cons_eq]
    · rw [insert_cons_eq, insert_cons_eq, insert_cons_eq]
    · rw [insert_cons_gt hgt, insert_cons_gt hgt, insert_cons_gt hgt, ih]

theorem mem_insert {key : String} {value : α} {entries : List (String × α)} {entry : String × α}
    (h : entry ∈ insert key value entries) : entry = (key, value) ∨ entry ∈ entries := by
  induction entries with
  | nil => exact .inl (List.mem_singleton.1 h)
  | cons first rest ih =>
    obtain ⟨k, a⟩ := first
    rcases lt_trichotomy key k with hlt | rfl | hgt
    · rw [insert_cons_lt hlt] at h
      exact List.mem_cons.1 h
    · rw [insert_cons_eq] at h
      rcases List.mem_cons.1 h with heq | hmem
      · exact .inl heq
      · exact .inr (List.mem_cons_of_mem _ hmem)
    · rw [insert_cons_gt hgt] at h
      rcases List.mem_cons.1 h with rfl | hmem
      · exact .inr List.mem_cons_self
      · rcases ih hmem with heq | hmem
        · exact .inl heq
        · exact .inr (List.mem_cons_of_mem _ hmem)

theorem IsSorted.insert {entries : List (String × α)} (h : IsSorted entries) (key : String)
    (value : α) : IsSorted (insert key value entries) := by
  induction entries with
  | nil => exact List.pairwise_singleton ..
  | cons entry rest ih =>
    obtain ⟨k, a⟩ := entry
    obtain ⟨hfirst, hrest⟩ := List.pairwise_cons.1 h
    rcases lt_trichotomy key k with hlt | rfl | hgt
    · rw [insert_cons_lt hlt]
      refine List.pairwise_cons.2 ⟨fun other hother => ?_, h⟩
      rcases List.mem_cons.1 hother with rfl | hother
      · exact hlt
      · exact String.lt_trans hlt (hfirst other hother)
    · rw [insert_cons_eq]
      exact List.pairwise_cons.2 ⟨hfirst, hrest⟩
    · rw [insert_cons_gt hgt]
      refine List.pairwise_cons.2 ⟨fun other hother => ?_, ih hrest⟩
      rcases mem_insert hother with rfl | hother
      · exact hgt
      · exact hfirst other hother

/-! ## Lookup -/

theorem find?_eq_some_iff {entries : List (String × α)} (h : IsSorted entries) {key : String}
    {a : α} : Assoc.find? key entries = some a ↔ (key, a) ∈ entries :=
  ⟨Assoc.mem_of_find?_eq_some, Assoc.find?_eq_some_of_mem h.nodup⟩

/-- Pairs in the order of their keys are known by what is found under each key. -/
theorem IsSorted.ext {entries others : List (String × α)} (h : IsSorted entries)
    (hothers : IsSorted others)
    (heq : ∀ key, Assoc.find? key entries = Assoc.find? key others) : entries = others := by
  refine eq_of_increasingBy h hothers fun entry => ?_
  rw [← find?_eq_some_iff h, ← find?_eq_some_iff hothers, heq]

theorem find?_filter {entries : List (String × α)} (h : IsSorted entries)
    (p : String × α → Bool) (key : String) :
    Assoc.find? key (entries.filter p) = (Assoc.find? key entries).filter fun a => p (key, a) := by
  induction entries with
  | nil => rfl
  | cons entry rest ih =>
    obtain ⟨k, a⟩ := entry
    rw [Assoc.find?_cons]
    by_cases hk : k = key
    · subst hk
      rw [if_pos rfl]
      by_cases hp : p (k, a) = true
      · rw [List.filter_cons_of_pos hp, Assoc.find?_cons, if_pos rfl, Option.filter, if_pos hp]
      · rw [List.filter_cons_of_neg hp, ih h.tail, h.fresh, Option.filter, Option.filter,
          if_neg hp]
    · rw [if_neg hk, ← ih h.tail]
      by_cases hp : p (k, a) = true
      · rw [List.filter_cons_of_pos hp, Assoc.find?_cons, if_neg hk]
      · rw [List.filter_cons_of_neg hp]

end JavaAtlas.Sorted
