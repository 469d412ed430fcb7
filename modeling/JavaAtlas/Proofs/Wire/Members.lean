import JavaAtlas.Proofs.Wire.Encode
import JavaAtlas.Wire.Containers

set_option autoImplicit false

/-! # Maps are never silently merged

The entries of a map are written one after the other, and of those before an entry only the names
matter to it. So a map fails at its first entry that is at fault (`encodeEntries_eq_error_iff`):
because its name is taken, or else because its value has no wire form. Where keys are told apart by
their names, as strings and integers are, only the second can happen. -/

namespace JavaAtlas

section

variable {α κ : Type} [WireKey κ] [Encode α]

/-- The names of the members that entries become. -/
def entryNames (entries : List (κ × α)) : List String := entries.map fun entry => wireKey entry.1

/-- Whether entries have pairwise distinct names and values that all have a wire form. -/
def Writable (entries : List (κ × α)) : Prop :=
  (entryNames entries).Nodup ∧ ∀ entry ∈ entries, ∃ json, encode entry.2 = .ok json

/-- Whether an entry is at fault for the error, given the names that are taken: its own name is one
of them, or it is not and its value fails with the error. -/
def IsAtFault (taken : List String) (entry : κ × α) (e : EncodeError) : Prop :=
  wireKey entry.1 ∈ taken ∧ e = .keyCollision (wireKey entry.1) ∨
    wireKey entry.1 ∉ taken ∧ encode entry.2 = .error e

/-- Whether a member is what an entry becomes. -/
def IsMemberFor (entry : κ × α) (member : String × Json) : Prop :=
  member.1 = wireKey entry.1 ∧ encode entry.2 = .ok member.2

/-- Whether two different entries have the same given name. -/
def SharesName (entries : List (κ × α)) (name : String) : Prop :=
  ∃ before first between second after, entries = before ++ first :: (between ++ second :: after) ∧
    wireKey first.1 = name ∧ wireKey second.1 = name

/-! ## One entry after the other -/

theorem exists_encodeEntries_iff_writable {entries : List (κ × α)} :
    (∃ members, encodeEntries [] entries = .ok members) ↔ Writable entries := by
  rw [exists_encodeEntries_iff]
  constructor
  · rintro ⟨hnames, -, hvalues⟩
    exact ⟨hnames, hvalues⟩
  · rintro ⟨hnames, hvalues⟩
    exact ⟨hnames, fun _ _ => List.not_mem_nil, hvalues⟩

theorem encodeEntries_cons_eq_ok_iff {entry : κ × α} {rest : List (κ × α)} {taken : List String}
    {members : List (String × Json)} :
    encodeEntries taken (entry :: rest) = .ok members ↔ wireKey entry.1 ∉ taken ∧
      ∃ value more, encode entry.2 = .ok value ∧
        encodeEntries (wireKey entry.1 :: taken) rest = .ok more ∧
          members = (wireKey entry.1, value) :: more := by
  rw [encodeEntries]
  by_cases htaken : wireKey entry.1 ∈ taken
  · simp [htaken]
  · rw [if_neg htaken]
    constructor
    · intro h
      obtain ⟨value, hvalue, h⟩ := Fallible.bind_eq_ok_iff.1 h
      obtain ⟨more, hmore, h⟩ := Fallible.bind_eq_ok_iff.1 h
      exact ⟨htaken, value, more, hvalue, hmore, (Except.ok.inj h).symm⟩
    · rintro ⟨-, value, more, hvalue, hmore, rfl⟩
      exact Fallible.bind_eq_ok_iff.2 ⟨value, hvalue,
        Fallible.bind_eq_ok_iff.2 ⟨more, hmore, rfl⟩⟩

/-- The members of a map are those of its entries, in order. -/
theorem forall₂_isMemberFor {entries : List (κ × α)} {taken : List String}
    {members : List (String × Json)} (h : encodeEntries taken entries = .ok members) :
    List.Forall₂ IsMemberFor entries members := by
  induction entries generalizing taken members with
  | nil =>
    obtain rfl := Except.ok.inj h
    exact .nil
  | cons entry rest ih =>
    obtain ⟨-, value, more, hvalue, hmore, rfl⟩ := encodeEntries_cons_eq_ok_iff.1 h
    exact .cons ⟨rfl, hvalue⟩ (ih hmore)

theorem encodeEntries_cons_eq_error_iff {entry : κ × α} {rest : List (κ × α)}
    {taken : List String} {e : EncodeError} :
    encodeEntries taken (entry :: rest) = .error e ↔ IsAtFault taken entry e ∨
      wireKey entry.1 ∉ taken ∧ (∃ value, encode entry.2 = .ok value) ∧
        encodeEntries (wireKey entry.1 :: taken) rest = .error e := by
  rw [encodeEntries]
  by_cases htaken : wireKey entry.1 ∈ taken
  · simp [htaken, IsAtFault, eq_comm]
  · rw [if_neg htaken, Fallible.bind_eq_error_iff]
    simp [htaken, IsAtFault, Fallible.bind_eq_error_iff]

/-- Taken names matter to an entry as a set. -/
theorem isAtFault_congr {taken taken' : List String} (h : ∀ name, name ∈ taken ↔ name ∈ taken')
    {entry : κ × α} {e : EncodeError} : IsAtFault taken entry e ↔ IsAtFault taken' entry e := by
  unfold IsAtFault
  rw [h]

/-- A map fails at the first entry that is at fault, and with its error. -/
theorem encodeEntries_eq_error_iff {entries : List (κ × α)} {taken : List String}
    {e : EncodeError} : encodeEntries taken entries = .error e ↔
      ∃ before entry after, entries = before ++ entry :: after ∧
        (∃ members, encodeEntries taken before = .ok members) ∧
          IsAtFault (entryNames before ++ taken) entry e := by
  constructor
  · intro h
    -- the names of the entries that have been written move to the taken ones
    induction entries generalizing taken with
    | nil => exact absurd h (by simp [encodeEntries])
    | cons entry rest ih =>
      rcases encodeEntries_cons_eq_error_iff.1 h with hfault | ⟨hfresh, ⟨value, hvalue⟩, hrest⟩
      · exact ⟨[], entry, rest, rfl, ⟨[], rfl⟩, hfault⟩
      · obtain ⟨before, other, after, rfl, ⟨members, hmembers⟩, hfault⟩ := ih hrest
        refine ⟨entry :: before, other, after, rfl, ?_, ?_⟩
        · exact ⟨_, encodeEntries_cons_eq_ok_iff.2 ⟨hfresh, value, members, hvalue, hmembers, rfl⟩⟩
        · refine (isAtFault_congr fun name => ?_).1 hfault
          simp [entryNames, or_left_comm]
  · rintro ⟨before, entry, after, rfl, ⟨members, hmembers⟩, hfault⟩
    induction before generalizing taken members with
    | nil => exact encodeEntries_cons_eq_error_iff.2 (.inl hfault)
    | cons first before ih =>
      obtain ⟨hfresh, value, more, hvalue, hmore, -⟩ := encodeEntries_cons_eq_ok_iff.1 hmembers
      refine encodeEntries_cons_eq_error_iff.2 (.inr ⟨hfresh, ⟨value, hvalue⟩, ?_⟩)
      refine ih ((isAtFault_congr fun name => ?_).1 hfault) more hmore
      simp [entryNames, or_left_comm]

/-! ## Keys that are told apart by their names -/

/-- Whether different keys have different names. -/
def KeysApart (κ : Type) [WireKey κ] : Prop := Function.Injective (wireKey : κ → String)

omit [Encode α] in
theorem KeysApart.nodup_entryNames (h : KeysApart κ) {entries : List (κ × α)}
    (hnodup : (entries.map Prod.fst).Nodup) : (entryNames entries).Nodup := by
  have hnames : entryNames entries = (entries.map Prod.fst).map wireKey :=
    (List.map_map ..).symm
  rw [hnames]
  exact hnodup.map h

/-- If the names differ, a map fails with the error of its first value that has no wire form. -/
theorem encodeEntries_eq_error_iff_of_nodup {entries : List (κ × α)}
    (hnodup : (entryNames entries).Nodup) {e : EncodeError} :
    encodeEntries [] entries = .error e ↔ ∃ before entry after, entries = before ++ entry :: after ∧
      (∀ earlier ∈ before, ∃ json, encode earlier.2 = .ok json) ∧ encode entry.2 = .error e := by
  rw [encodeEntries_eq_error_iff]
  refine exists₃_congr fun before entry after => and_congr_right ?_
  rintro rfl
  obtain ⟨hbefore, -, hdisjoint⟩ : (entryNames before).Nodup ∧ (entryNames (entry :: after)).Nodup ∧
      ∀ name ∈ entryNames before, ∀ other ∈ entryNames (entry :: after), name ≠ other := by
    rwa [entryNames, List.map_append, List.nodup_append] at hnodup
  have hfresh : wireKey entry.1 ∉ entryNames before := fun hmem =>
    hdisjoint _ hmem _ List.mem_cons_self rfl
  rw [exists_encodeEntries_iff_writable, List.append_nil]
  simp only [Writable, IsAtFault, hbefore, hfresh, true_and, false_and, false_or,
    not_false_eq_true]

end

theorem keysApart_string : KeysApart String := fun _ _ h => h

theorem keysApart_int32 : KeysApart Int32 := fun _ _ h =>
  Int32.toInt_inj.1 (Json.intChars_inj (String.ofList_injective h))

theorem keysApart_int64 : KeysApart Int64 := fun _ _ h =>
  Int64.toInt_inj.1 (Json.intChars_inj (String.ofList_injective h))

theorem keysApart_uint32 : KeysApart UInt32 := fun _ _ h =>
  UInt32.toNat_inj.1 (Int.ofNat_inj.1 (Json.intChars_inj (String.ofList_injective h)))

theorem keysApart_uint64 : KeysApart UInt64 := fun _ _ h =>
  UInt64.toNat_inj.1 (Int.ofNat_inj.1 (Json.intChars_inj (String.ofList_injective h)))

/-! ## Maps -/

/-- **Maps are never silently merged.** Whatever the keys, entries are written exactly if their names
are pairwise distinct and their values all have a wire form; then there is one member for each entry,
in the order of the entries, with the name of its key and the wire form of its value. Otherwise there
is an error and nothing else: that of the first entry which is at fault behind writable ones, because
its name is taken, or else because its value has no wire form. So a collision that no value reports
of itself is about a name that two entries share. Strings and integers of all widths have distinct
names, and a map that has each such key once can only fail with the error of a value. -/
theorem encodeEntries_exact :
    (∀ {κ α : Type} [WireKey κ] [Encode α] (entries : List (κ × α)),
      ((∃ members, encodeEntries [] entries = .ok members) ↔ Writable entries) ∧
      (∀ members, encodeEntries [] entries = .ok members →
        List.Forall₂ IsMemberFor entries members) ∧
      (∀ e, encodeEntries [] entries = .error e ↔ ∃ before entry after,
        entries = before ++ entry :: after ∧ Writable before ∧
          IsAtFault (entryNames before) entry e) ∧
      (∀ name, encodeEntries [] entries = .error (.keyCollision name) →
        (∀ entry ∈ entries, encode entry.2 ≠ .error (.keyCollision name)) →
          SharesName entries name) ∧
      (KeysApart κ → (entries.map Prod.fst).Nodup → ∀ e, encodeEntries [] entries = .error e →
        ∃ entry ∈ entries, encode entry.2 = .error e)) ∧
    KeysApart String ∧ KeysApart Int32 ∧ KeysApart Int64 ∧ KeysApart UInt32 ∧
      KeysApart UInt64 := by
  refine ⟨?_, keysApart_string, keysApart_int32, keysApart_int64, keysApart_uint32,
    keysApart_uint64⟩
  intro κ α _ _ entries
  have herror : ∀ e, encodeEntries [] entries = .error e ↔ ∃ before entry after,
      entries = before ++ entry :: after ∧ Writable before ∧
        IsAtFault (entryNames before) entry e := by
    intro e
    simp only [encodeEntries_eq_error_iff, exists_encodeEntries_iff_writable, List.append_nil]
  refine ⟨exists_encodeEntries_iff_writable, fun _ => forall₂_isMemberFor, herror, ?_, ?_⟩
  · intro name hcollision hvalues
    obtain ⟨before, second, after, rfl, -, htaken | hvalue⟩ := (herror _).1 hcollision
    · obtain ⟨hmem, hname⟩ := htaken
      obtain rfl := EncodeError.keyCollision.inj hname
      obtain ⟨first, hfirst, hshared⟩ := List.mem_map.1 hmem
      obtain ⟨start, between, rfl⟩ := List.append_of_mem hfirst
      exact ⟨start, first, between, second, after, by simp, hshared, rfl⟩
    · exact absurd hvalue.2 (hvalues second (by simp))
  · intro hapart hnodup e he
    obtain ⟨before, entry, after, rfl, -, hvalue⟩ :=
      (encodeEntries_eq_error_iff_of_nodup (hapart.nodup_entryNames hnodup)).1 he
    exact ⟨entry, by simp, hvalue⟩

/-- A class in a package. Both parts may have dots, so names do not tell such keys apart. -/
structure QualifiedName where
  package : String
  name : String

instance : WireKey QualifiedName := ⟨fun key => key.package ++ "." ++ key.name⟩

/-- Two classes whose names coincide, the second one with a value that has no wire form. -/
def coincidingNames : List (QualifiedName × Double) :=
  [(⟨"com.acme", "Shop"⟩, .zero), (⟨"com", "acme.Shop"⟩, .nan false)]

/-- A map keyed by integers whose second value has no wire form. -/
def weightedLines : List (Int32 × Double) := [(-1, .zero), (1, .infinity true)]

theorem encodeEntries_exact_coincidingNames :
    encodeEntries [] coincidingNames = .error (.keyCollision "com.acme.Shop") ∧
      SharesName coincidingNames "com.acme.Shop" ∧
      List.Forall₂ IsMemberFor [("b", true), ("a", false)] [("b", .bool true), ("a", .bool false)] ∧
      ∃ e, encodeEntries [] weightedLines = .error e ∧
        ∃ entry ∈ weightedLines, encode entry.2 = .error e := by
  obtain ⟨hentries, -, hint, -⟩ := encodeEntries_exact
  have hcollision : encodeEntries [] coincidingNames = .error (.keyCollision "com.acme.Shop") :=
    rfl
  have hvalues : ∀ entry ∈ coincidingNames,
      encode entry.2 ≠ .error (.keyCollision "com.acme.Shop") := by
    intro entry _ hvalue
    obtain ⟨-, hsubject⟩ := encode_double_eq_error_iff.1 hvalue
    exact nomatch hsubject
  have hmembers : encodeEntries [] [("b", true), ("a", false)] =
      .ok [("b", .bool true), ("a", .bool false)] := rfl
  obtain ⟨e, he⟩ : ∃ e, encodeEntries [] weightedLines = .error e := ⟨_, rfl⟩
  have hkeys : (weightedLines.map Prod.fst).Nodup := by decide
  exact ⟨hcollision, (hentries coincidingNames).2.2.2.1 _ hcollision hvalues,
    (hentries _).2.1 _ hmembers, e, he, (hentries weightedLines).2.2.2.2 hint hkeys e he⟩

end JavaAtlas
