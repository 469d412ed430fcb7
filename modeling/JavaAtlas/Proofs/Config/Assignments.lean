import Mathlib.Data.List.Induction
import JavaAtlas.Proofs.Config.Expansion
import JavaAtlas.Proofs.Data.SortedMaps
import JavaAtlas.Proofs.Toml.Parts
import JavaAtlas.Config.Store

set_option autoImplicit false

/-! # Values that are set one after the other

Setting a value changes what a store holds under one key of one section (`Store.raw?_set`), also
where the section has to be made anew because it was missing or not a table. After a run of such
assignments a key therefore holds what it was assigned last, or else what it held before
(`Store.raw?_setAll`). -/

namespace JavaAtlas.Config

/-- A value that is to be set under a key of a section. -/
structure Assignment where
  section_ : String
  key : String
  value : Toml.Value

/-- The value that was assigned last to a key of a section. -/
def lastAssigned? (section_ key : String) (assignments : List Assignment) : Option Toml.Value :=
  (assignments.filter fun a => a.section_ = section_ ∧ a.key = key).getLast?.map Assignment.value

theorem lastAssigned?_concat (section_ key : String) (assignments : List Assignment)
    (last : Assignment) :
    lastAssigned? section_ key (assignments ++ [last]) =
      if last.section_ = section_ ∧ last.key = key then some last.value
      else lastAssigned? section_ key assignments := by
  unfold lastAssigned?
  rw [List.filter_append]
  by_cases h : last.section_ = section_ ∧ last.key = key
  · rw [if_pos h, List.filter_singleton, decide_eq_true h]
    simp
  · rw [if_neg h, List.filter_singleton, decide_eq_false h]
    simp

namespace Store

/-! ## One assignment -/

theorem raw?_eq_find?_entries (store : Store) (section_ key : String) :
    store.raw? section_ key = Assoc.find? key (store.entries section_) := by
  unfold raw? entries
  split <;> rfl

/-- A value that is set is found under its key, and nothing else changes: the entries of a section
that is not a table do not count before either. -/
theorem raw?_set (store : Store) (section_ key : String) (value : Toml.Value)
    (otherSection otherKey : String) :
    (store.set section_ key value).raw? otherSection otherKey =
      if section_ = otherSection ∧ key = otherKey then some value
      else store.raw? otherSection otherKey := by
  by_cases hsection : section_ = otherSection
  · subst hsection
    have hentries : (store.set section_ key value).entries section_ =
        Sorted.insert key value (store.entries section_) := by
      rw [set, entries, Sorted.find?_insert, if_pos rfl]
    rw [raw?_eq_find?_entries, raw?_eq_find?_entries, hentries, Sorted.find?_insert]
    simp only [true_and]
  · rw [if_neg fun h => hsection h.1]
    unfold raw? set
    rw [Sorted.find?_insert, if_neg hsection]

/-! ## Runs of assignments -/

/-- The store after some assignments, one after the other. -/
def setAll (store : Store) (assignments : List Assignment) : Store :=
  assignments.foldl (fun store a => store.set a.section_ a.key a.value) store

/-- After a run of assignments a key holds what it was assigned last, or what it held before. -/
theorem raw?_setAll (store : Store) (assignments : List Assignment) (section_ key : String) :
    (store.setAll assignments).raw? section_ key =
      (lastAssigned? section_ key assignments).or (store.raw? section_ key) := by
  induction assignments using List.reverseRecOn with
  | nil => rfl
  | append_singleton assignments last ih =>
    have hlast : store.setAll (assignments ++ [last]) =
        (store.setAll assignments).set last.section_ last.key last.value := List.foldl_concat ..
    rw [hlast, raw?_set, lastAssigned?_concat, ih]
    split
    · rw [Option.some_or]
    · rfl

theorem get?_none (store : Store) (section_ key : String) :
    store.get? (fun _ => none) section_ key = store.raw? section_ key := by
  have hself : Toml.Value.mapStrings (expand fun _ => none) = id :=
    funext (Toml.Value.mapStrings_eq_self expand_none)
  rw [get?, hself, Option.map_id, id]

/-- **Reading after a run of assignments.** A key that has been assigned reads as the value that it
was assigned last, expanded; every other key reads as before the run, whatever its section was.
Without variables the values read as they are written. Expanding a value changes the strings inside
it and nothing else: the same steps lead to parts of both values, arrays keep their lengths, tables
their keys, and all values but strings stay as they are. -/
theorem get?_setAll (store : Store) (assignments : List Assignment) (lookup : Lookup)
    (section_ key : String) :
    ((store.setAll assignments).get? lookup section_ key =
      match lastAssigned? section_ key assignments with
      | some value => some (value.mapStrings (expand lookup))
      | none => store.get? lookup section_ key) ∧
    (store.setAll assignments).get? (fun _ => none) section_ key =
      (lastAssigned? section_ key assignments).or (store.raw? section_ key) ∧
    ∀ (value : Toml.Value) (steps : List Toml.Step),
      Option.Rel (Toml.Value.Restrings (expand lookup)) (value.at? steps)
        ((value.mapStrings (expand lookup)).at? steps) := by
  refine ⟨?_, ?_, Toml.Value.rel_at?_mapStrings _⟩
  · rw [get?, raw?_setAll]
    cases lastAssigned? section_ key assignments with
    | none => rw [Option.none_or, get?]
    | some value => rfl
  · rw [get?_none, raw?_setAll]

/-- A section that held a number gives way to a table with the new key alone. -/
example : let store : Store := { table := [("analysis", .integer 5)] }
    let after := store.setAll [⟨"analysis", "java", .string "$HOME/java"⟩]
    (after.get? (fun _ => none) "analysis" "java").bind Toml.Value.asString? =
      some "$HOME/java" ∧ (after.raw? "analysis" "eager").isNone := by
  decide +kernel

end Store

end JavaAtlas.Config
