import Mathlib.Data.List.Nodup
import Mathlib.Data.String.Basic
import JavaAtlas.Wire.Encode

set_option autoImplicit false

/-! # Lists in the order of their texts

Sorting by a text that tells the elements apart leaves no choice: the result is in strictly
increasing order, and there is only one such list with the same elements (`eq_of_increasingBy`), so
the order before sorting does not matter (`sortByText_eq_of_mem_iff`). -/

namespace JavaAtlas

variable {α : Type} {key : α → String}

/-- The texts of the elements grow from each element to the next. -/
def IncreasingBy (key : α → String) (items : List α) : Prop :=
  items.Pairwise fun a b => key a < key b

theorem mem_sortByText {items : List α} {a : α} : a ∈ sortByText key items ↔ a ∈ items := by
  unfold sortByText
  exact (List.mergeSort_perm items _).mem_iff

theorem pairwise_sortByText (key : α → String) (items : List α) :
    (sortByText key items).Pairwise fun a b => key a ≤ key b := by
  have hsorted : (sortByText key items).Pairwise fun a b => decide (key a ≤ key b) = true := by
    refine List.pairwise_mergeSort ?_ ?_ items
    · intro a b c hab hbc
      exact decide_eq_true (String.le_trans (of_decide_eq_true hab) (of_decide_eq_true hbc))
    · intro a b
      simpa using String.le_total (key a) (key b)
  exact hsorted.imp of_decide_eq_true

/-- If the texts are distinct, they grow strictly. -/
theorem increasingBy_sortByText {items : List α} (hnodup : (items.map key).Nodup) :
    IncreasingBy key (sortByText key items) := by
  have hdistinct : (sortByText key items).Pairwise fun a b => key a ≠ key b :=
    List.pairwise_map.1 (((List.mergeSort_perm items _).map key).nodup_iff.2 hnodup)
  refine ((pairwise_sortByText key items).and hdistinct).imp ?_
  rintro a b ⟨hle, hne⟩
  exact lt_of_le_of_ne hle hne

theorem IncreasingBy.nodup {items : List α} (h : IncreasingBy key items) :
    (items.map key).Nodup :=
  List.pairwise_map.2 (h.imp fun hlt => ne_of_lt hlt)

/-- There is one strictly increasing list with given elements. -/
theorem eq_of_increasingBy {items others : List α} (hitems : IncreasingBy key items)
    (hothers : IncreasingBy key others) (hmem : ∀ a, a ∈ items ↔ a ∈ others) : items = others := by
  have hperm : items.Perm others :=
    (List.perm_ext_iff_of_nodup (hitems.nodup.of_map _) (hothers.nodup.of_map _)).2 hmem
  refine List.Perm.eq_of_pairwise ?_ hitems hothers hperm
  intro a b _ _ hab hba
  exact absurd (String.lt_trans hab hba) (String.lt_irrefl _)

/-- The order before sorting does not matter. -/
theorem sortByText_eq_of_mem_iff {items others : List α} (hitems : (items.map key).Nodup)
    (hothers : (others.map key).Nodup) (hmem : ∀ a, a ∈ items ↔ a ∈ others) :
    sortByText key items = sortByText key others := by
  refine eq_of_increasingBy (increasingBy_sortByText hitems) (increasingBy_sortByText hothers) ?_
  intro a
  rw [mem_sortByText, mem_sortByText]
  exact hmem a

/-- The order before sorting does not matter for elements of different texts, and neither does it
for copies of one element. -/
theorem sortByText_eq_of_perm {items others : List α} (h : items.Perm others)
    (hkey : ∀ a ∈ items, ∀ b ∈ items, key a = key b → a = b) :
    sortByText key items = sortByText key others := by
  have hperm : (sortByText key items).Perm (sortByText key others) :=
    (List.mergeSort_perm items _).trans (h.trans (List.mergeSort_perm others _).symm)
  refine List.Perm.eq_of_pairwise ?_ (pairwise_sortByText key items)
    (pairwise_sortByText key others) hperm
  intro a b ha hb hab hba
  have hb' : b ∈ items := h.mem_iff.2 (mem_sortByText.1 hb)
  exact hkey a (mem_sortByText.1 ha) b hb' (String.le_antisymm hab hba)

/-- Elements may be left out before sorting or afterwards. -/
theorem sortByText_filter {items kept : List α}
    (hnodup : (items.map key).Nodup) (hkept : (kept.map key).Nodup) {p : α → Bool}
    (hmem : ∀ a, a ∈ kept ↔ a ∈ items ∧ p a = true) :
    sortByText key kept = (sortByText key items).filter p := by
  refine eq_of_increasingBy (increasingBy_sortByText hkept)
    ((increasingBy_sortByText hnodup).filter p) fun a => ?_
  rw [mem_sortByText, hmem, List.mem_filter, mem_sortByText]

end JavaAtlas
