set_option autoImplicit false

/-! # Dictionaries that remember insertion order

A dictionary is a list of key–value pairs in which no key occurs twice. The list operations come
first, because the members of a JSON object are kept in the same way; `Dict` adds the invariant.
Writing under a key that is present replaces the value where it stands, and a new key goes to the
end, so the order of a dictionary is the order in which its keys first appeared. -/

namespace JavaAtlas

/-! ## Lists of pairs -/

namespace Assoc

variable {κ α : Type}

/-- The keys of a list of pairs, in order. -/
def keys (entries : List (κ × α)) : List κ :=
  entries.map Prod.fst

@[simp] theorem keys_nil : keys ([] : List (κ × α)) = [] := rfl

@[simp] theorem keys_cons (entry : κ × α) (rest : List (κ × α)) :
    keys (entry :: rest) = entry.1 :: keys rest := rfl

theorem keys_filter_sublist (p : κ × α → Bool) (entries : List (κ × α)) :
    (keys (entries.filter p)).Sublist (keys entries) :=
  List.Sublist.map _ List.filter_sublist

variable [DecidableEq κ]

/-- The value of the first pair under `key`. -/
def find? (key : κ) : List (κ × α) → Option α
  | [] => none
  | (k, a) :: rest => if k = key then some a else find? key rest

/-- Puts `value` under `key`: in the place of the first pair that has the key, else at the end. -/
def insert (key : κ) (value : α) : List (κ × α) → List (κ × α)
  | [] => [(key, value)]
  | (k, a) :: rest => if k = key then (k, value) :: rest else (k, a) :: insert key value rest

/-- Removes every pair under `key`. -/
def erase (key : κ) (entries : List (κ × α)) : List (κ × α) :=
  entries.filter fun entry => entry.1 ≠ key

@[simp] theorem find?_nil (key : κ) : find? key ([] : List (κ × α)) = none := rfl

theorem find?_cons (key k : κ) (a : α) (rest : List (κ × α)) :
    find? key ((k, a) :: rest) = if k = key then some a else find? key rest := rfl

theorem find?_eq_none_iff (key : κ) (entries : List (κ × α)) :
    find? key entries = none ↔ key ∉ keys entries := by
  induction entries with
  | nil => simp
  | cons entry rest ih =>
    obtain ⟨k, a⟩ := entry
    by_cases h : k = key
    · simp [find?, h]
    · have h' : key ≠ k := fun e => h e.symm
      simp [find?, h, h', ih]

theorem keys_insert (key : κ) (value : α) (entries : List (κ × α)) :
    keys (insert key value entries) =
      if key ∈ keys entries then keys entries else keys entries ++ [key] := by
  induction entries with
  | nil => simp [insert]
  | cons entry rest ih =>
    obtain ⟨k, a⟩ := entry
    by_cases h : k = key
    · simp [insert, h]
    · have h' : key ≠ k := fun e => h e.symm
      by_cases hr : key ∈ keys rest <;> simp [insert, h, h', ih, hr]

theorem find?_insert (key other : κ) (value : α) (entries : List (κ × α)) :
    find? other (insert key value entries) =
      if key = other then some value else find? other entries := by
  induction entries with
  | nil => simp [insert, find?]
  | cons entry rest ih =>
    obtain ⟨k, a⟩ := entry
    by_cases h : k = key
    · subst h
      by_cases h' : k = other <;> simp [insert, find?, h']
    · by_cases h' : k = other
      · subst h'
        have : key ≠ k := fun e => h e.symm
        simp [insert, find?, h, this]
      · simp [insert, find?, h, h', ih]

theorem nodup_keys_insert (key : κ) (value : α) {entries : List (κ × α)}
    (h : (keys entries).Nodup) : (keys (insert key value entries)).Nodup := by
  rw [keys_insert]
  split
  · exact h
  · rename_i hk
    rw [List.nodup_append]
    refine ⟨h, by simp, ?_⟩
    intro a ha b hb
    simp only [List.mem_singleton] at hb
    subst hb
    exact fun e => hk (e ▸ ha)

end Assoc

/-! ## Dictionaries -/

/-- Pairs with pairwise distinct keys, in the order in which the keys were first inserted. -/
structure Dict (κ α : Type) where
  entries : List (κ × α)
  nodup : (Assoc.keys entries).Nodup

namespace Dict

variable {κ α β : Type}

theorem ext {d e : Dict κ α} (h : d.entries = e.entries) : d = e := by
  cases d; cases e; simp_all

/-- The dictionary with no key. -/
def empty : Dict κ α := ⟨[], List.nodup_nil⟩

instance : Inhabited (Dict κ α) := ⟨empty⟩

/-- The keys in order. -/
def keys (d : Dict κ α) : List κ := Assoc.keys d.entries

/-- The values in the order of their keys. -/
def values (d : Dict κ α) : List α := d.entries.map Prod.snd

/-- The number of keys. -/
def size (d : Dict κ α) : Nat := d.entries.length

/-- Whether there is no key. -/
def isEmpty (d : Dict κ α) : Bool := d.entries.isEmpty

/-- Applies `f` to every key and value, keeping keys and order. -/
def map (f : κ → α → β) (d : Dict κ α) : Dict κ β where
  entries := d.entries.map fun entry => (entry.1, f entry.1 entry.2)
  nodup := by
    have h := d.nodup
    simpa [Assoc.keys, List.map_map, Function.comp_def] using h

/-- Keeps the entries that satisfy `p`. -/
def filter (p : κ → α → Bool) (d : Dict κ α) : Dict κ α where
  entries := d.entries.filter fun entry => p entry.1 entry.2
  nodup := d.nodup.sublist (Assoc.keys_filter_sublist _ _)

theorem keys_filterMap_sublist (f : κ → α → Option β) (entries : List (κ × α)) :
    (Assoc.keys (entries.filterMap fun entry => (f entry.1 entry.2).map (entry.1, ·))).Sublist
      (Assoc.keys entries) := by
  induction entries with
  | nil => exact List.Sublist.refl _
  | cons entry rest ih =>
    rw [List.filterMap_cons]
    cases h : f entry.1 entry.2 with
    | none => exact ih.cons _
    | some b => exact ih.cons_cons _

/-- Applies `f` to every key and value and keeps the entries for which it answers. -/
def filterMap (f : κ → α → Option β) (d : Dict κ α) : Dict κ β where
  entries := d.entries.filterMap fun entry => (f entry.1 entry.2).map (entry.1, ·)
  nodup := d.nodup.sublist (keys_filterMap_sublist f d.entries)

variable [DecidableEq κ]

/-- The value under `key`. -/
def get? (d : Dict κ α) (key : κ) : Option α := Assoc.find? key d.entries

/-- Whether `key` is present. -/
def contains (d : Dict κ α) (key : κ) : Bool := (d.get? key).isSome

/-- Puts `value` under `key`, in the key's place or at the end. -/
def insert (d : Dict κ α) (key : κ) (value : α) : Dict κ α :=
  ⟨Assoc.insert key value d.entries, Assoc.nodup_keys_insert key value d.nodup⟩

/-- Puts `value` under `key` unless the key is present. -/
def insertNew (d : Dict κ α) (key : κ) (value : α) : Dict κ α :=
  if d.contains key then d else d.insert key value

/-- Changes the value under `key` by `f`, which gets `none` when the key is new. -/
def alter (d : Dict κ α) (key : κ) (f : Option α → α) : Dict κ α :=
  d.insert key (f (d.get? key))

/-- Inserts the pairs one after the other: a repeated key keeps its first place and last value. -/
def ofList (pairs : List (κ × α)) : Dict κ α :=
  pairs.foldl (fun d pair => d.insert pair.1 pair.2) empty

@[simp] theorem get?_empty (key : κ) : (empty : Dict κ α).get? key = none := rfl

theorem get?_insert (d : Dict κ α) (key other : κ) (value : α) :
    (d.insert key value).get? other = if key = other then some value else d.get? other :=
  Assoc.find?_insert key other value d.entries

theorem contains_iff (d : Dict κ α) (key : κ) : d.contains key = true ↔ key ∈ d.keys := by
  have h := Assoc.find?_eq_none_iff key d.entries
  unfold contains get? keys
  cases hf : Assoc.find? key d.entries with
  | none => simpa using h.1 hf
  | some a =>
    simp only [Option.isSome_some, true_iff]
    exact Classical.byContradiction fun hn => by simp [h.2 hn] at hf

theorem keys_insert (d : Dict κ α) (key : κ) (value : α) :
    (d.insert key value).keys = if key ∈ d.keys then d.keys else d.keys ++ [key] :=
  Assoc.keys_insert key value d.entries

end Dict

end JavaAtlas
