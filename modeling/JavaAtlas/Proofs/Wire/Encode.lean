import JavaAtlas.Proofs.Record.Faithful

set_option autoImplicit false

/-! # Values that have a wire form

Encoding fails for three reasons only: a number that is not finite, a path that is not text, and
names that coincide. A type without any of them always has a wire form (`AlwaysEncodes`), and
containers take this from what they hold; for a map the names must differ as well
(`exists_encodeEntries_iff`). -/

namespace JavaAtlas

/-- A type whose values all have a wire form. -/
class AlwaysEncodes (α : Type) [Encode α] : Prop where
  exists_encode (a : α) : ∃ json, encode a = .ok json

export AlwaysEncodes (exists_encode)

/-! ## Plain values -/

instance {α : Type} [WriteJson α] [Encode α] [Json.ReadJson α] {nesting : Nat}
    [Faithful α nesting] : AlwaysEncodes α :=
  ⟨fun a => ⟨_, Faithful.encode_eq a⟩⟩

/-- Exactly the finite numbers have a wire form. -/
theorem exists_encode_double_iff {x : Double} :
    (∃ json, encode x = .ok json) ↔ x.isFinite = true := by
  show (∃ json, (if x.isFinite then .ok (.float x) else _ : Encoded) = .ok json) ↔ _
  by_cases hfinite : x.isFinite = true
  · simp [hfinite]
  · simp [hfinite]

theorem encode_double_eq_ok_iff {x : Double} {json : Json} :
    encode x = .ok json ↔ x.isFinite = true ∧ json = .float x := by
  show (if x.isFinite then .ok (.float x) else _ : Encoded) = .ok json ↔ _
  by_cases hfinite : x.isFinite = true
  · rw [if_pos hfinite, Except.ok.injEq, eq_comm]
    exact (and_iff_right hfinite).symm
  · rw [if_neg hfinite]
    exact iff_of_false nofun fun h => hfinite h.1

theorem encode_double_eq_error_iff {x : Double} {e : EncodeError} :
    encode x = .error e ↔ x.isFinite = false ∧
      e = .unencodable ("non-finite number " ++ Layout.debug.text x) := by
  show (if x.isFinite then .ok (.float x) else _ : Encoded) = .error e ↔ _
  by_cases hfinite : x.isFinite = true
  · simp [hfinite]
  · simp [hfinite, eq_comm]

/-- Exactly the paths that are text have a wire form. -/
theorem encode_path_eq_error_iff {p : Path} {e : EncodeError} :
    encode p = .error e ↔ p.text? = none ∧ e = .unencodable ("non-UTF-8 path " ++ p.display) := by
  unfold encode instEncodePath
  dsimp only
  cases p.text? with
  | some s => simp
  | none => simp [eq_comm]

/-! ## Containers -/

section

variable {α β κ : Type} [Encode α] [Encode β]

theorem encode_some (a : α) : encode (some a) = encode a := rfl

instance [AlwaysEncodes α] : AlwaysEncodes (Option α) where
  exists_encode
    | some a => exists_encode a
    | none => ⟨.null, rfl⟩

instance [AlwaysEncodes α] [AlwaysEncodes β] : AlwaysEncodes (α × β) where
  exists_encode p := by
    obtain ⟨a, ha⟩ := exists_encode p.1
    obtain ⟨b, hb⟩ := exists_encode p.2
    exact ⟨.array [a, b], Fallible.bind_eq_ok_iff.2
      ⟨a, ha, Fallible.bind_eq_ok_iff.2 ⟨b, hb, rfl⟩⟩⟩

theorem exists_encode_list_iff {items : List α} :
    (∃ json, encode items = .ok json) ↔ ∀ a ∈ items, ∃ json, encode a = .ok json := by
  show (∃ json, (encodeItems items).map Json.array = .ok json) ↔ _
  rw [Fallible.exists_map_iff]
  exact Fallible.exists_mapM_iff

/-- A list fails with the error of one of its items. -/
theorem exists_of_encode_list_eq_error {items : List α} {e : EncodeError}
    (h : encode items = .error e) : ∃ a ∈ items, encode a = .error e :=
  Fallible.exists_of_mapM_eq_error (Fallible.map_eq_error_iff.1 h)

instance [AlwaysEncodes α] : AlwaysEncodes (List α) where
  exists_encode _ := exists_encode_list_iff.2 fun a _ => exists_encode a

/-- The entries of a map have members exactly if their names are new and pairwise distinct and their
values have a wire form. -/
theorem exists_encodeEntries_iff [WireKey κ] {entries : List (κ × α)} {taken : List String} :
    (∃ members, encodeEntries taken entries = .ok members) ↔
      (entries.map fun entry => wireKey entry.1).Nodup ∧
        (∀ entry ∈ entries, wireKey entry.1 ∉ taken) ∧
          ∀ entry ∈ entries, ∃ json, encode entry.2 = .ok json := by
  induction entries generalizing taken with
  | nil => simp [encodeEntries]
  | cons entry rest ih =>
    obtain ⟨key, a⟩ := entry
    rw [List.map_cons, List.nodup_cons, List.forall_mem_cons, List.forall_mem_cons, encodeEntries]
    by_cases htaken : wireKey key ∈ taken
    · simp [htaken]
    · simp only [if_neg htaken, Fallible.exists_bind_iff]
      -- the name of the first entry is taken for the entries after it
      have hfresh : (∀ entry ∈ rest, wireKey entry.1 ∉ wireKey key :: taken) ↔
          wireKey key ∉ rest.map (fun entry => wireKey entry.1) ∧
            ∀ entry ∈ rest, wireKey entry.1 ∉ taken := by
        simp only [List.mem_cons, not_or, List.mem_map, not_exists, not_and, forall_and]
      constructor
      · rintro ⟨value, hvalue, members, hmembers, -⟩
        obtain ⟨hnodup, hnew, hvalues⟩ := ih.1 ⟨members, hmembers⟩
        obtain ⟨hkey, hnew⟩ := hfresh.1 hnew
        exact ⟨⟨hkey, hnodup⟩, ⟨htaken, hnew⟩, ⟨value, hvalue⟩, hvalues⟩
      · rintro ⟨⟨hkey, hnodup⟩, ⟨-, hnew⟩, ⟨value, hvalue⟩, hvalues⟩
        obtain ⟨members, hmembers⟩ := ih.2 ⟨hnodup, hfresh.2 ⟨hkey, hnew⟩, hvalues⟩
        exact ⟨value, hvalue, members, hmembers, _, rfl⟩

/-- A dictionary whose keys are the names of its members has no two members of one name. -/
theorem exists_encode_dict_iff {d : Dict String α} :
    (∃ json, encode d = .ok json) ↔ ∀ entry ∈ d.entries, ∃ json, encode entry.2 = .ok json := by
  show (∃ json, (encodeEntries [] d.entries).map Json.object = .ok json) ↔ _
  rw [Fallible.exists_map_iff, exists_encodeEntries_iff]
  constructor
  · rintro ⟨-, -, hvalues⟩
    exact hvalues
  · intro hvalues
    exact ⟨d.nodup, fun _ _ => List.not_mem_nil, hvalues⟩

instance [AlwaysEncodes α] : AlwaysEncodes (Dict String α) where
  exists_encode _ := exists_encode_dict_iff.2 fun entry _ => exists_encode entry.2

end

/-! ## Records -/

/-- A record has a wire form exactly if its members have one. -/
theorem exists_encodeRecord_iff {members : List (String × Encoded)} :
    (∃ json, encodeRecord members = .ok json) ↔
      ∀ member ∈ members, ∃ json, member.2 = .ok json := by
  show (∃ json, (List.mapM (fun member : String × Encoded => member.2.map ((member.1, ·))) members
    >>= fun members => .ok (Json.object members)) = .ok json) ↔ _
  rw [Fallible.exists_bind_iff]
  simp only [Except.ok.injEq, exists_eq', and_true]
  rw [Fallible.exists_mapM_iff]
  simp only [Fallible.exists_map_iff]

/-- A record fails with the error of one of its members. -/
theorem exists_of_encodeRecord_eq_error {members : List (String × Encoded)} {e : EncodeError}
    (h : encodeRecord members = .error e) : ∃ member ∈ members, member.2 = .error e := by
  rcases Fallible.bind_eq_error_iff.1 h with hmembers | ⟨_, -, hok⟩
  · obtain ⟨member, hmem, he⟩ := Fallible.exists_of_mapM_eq_error hmembers
    exact ⟨member, hmem, Fallible.map_eq_error_iff.1 he⟩
  · exact absurd hok (by simp)

end JavaAtlas
