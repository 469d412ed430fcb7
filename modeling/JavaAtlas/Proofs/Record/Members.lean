import JavaAtlas.Proofs.Data.Lists
import JavaAtlas.Proofs.Record.Faithful
import JavaAtlas.Proofs.Record.Objects

set_option autoImplicit false

/-! # Records that are written and read alike

A record type is faithful because the two lists of its schema agree, and because of what is on them.
Beside each member there is a field of the same name with the same content, and the member carries
its value over into the record that is being read (`Member.Carries`). A record into which every
member has been carried over is the one that was written (`FaithfulRecord`). -/

namespace JavaAtlas

open Json (ReadJson ReadError Outline)

/-! ## Members of records -/

section

variable {ρ : Type} {nesting : Nat}

/-- Whether a member is always written, has a field of its name that is encoded as it is written,
and is read back by `copy`, which takes its value from the first record and puts it into the
second. -/
def Member.Carries (m : Member ρ) (field : WireField ρ) (nesting : Nat) (copy : ρ → ρ → ρ) : Prop :=
  field.name = m.name ∧ ∀ r, ∃ value, m.write r = some value ∧ field.encode r = .ok value ∧
    value.isExact = true ∧
      ∀ depth s, nesting ≤ depth → m.read depth value.outline s = .ok (copy r s)

/-- Members that carry their values over, with the fields in the same order, and the copy that all
of them make together. -/
inductive Copies (nesting : Nat) : List (WireField ρ) → List (Member ρ) → (ρ → ρ → ρ) → Prop where
  | nil : Copies nesting [] [] fun _ s => s
  | cons {field : WireField ρ} {m : Member ρ} {copy : ρ → ρ → ρ} {fields : List (WireField ρ)}
      {members : List (Member ρ)} {rest : ρ → ρ → ρ} :
    m.Carries field nesting copy → Copies nesting fields members rest →
      Copies nesting (field :: fields) (m :: members) fun r s => rest r (copy r s)

theorem Copies.of {α : Type} [WriteJson α] [Encode α] [ReadJson α] {n : Nat} [Faithful α n]
    {name : String} {get : ρ → α} {set : α → ρ → ρ} {presence : Presence}
    {fields : List (WireField ρ)} {members : List (Member ρ)} {rest : ρ → ρ → ρ} (h : n ≤ nesting)
    (hrest : Copies nesting fields members rest) :
    Copies nesting (.of name get :: fields) (.of name get set presence :: members)
      fun r s => rest r (set (get r) s) := by
  refine .cons ⟨rfl, fun r => ?_⟩ hrest
  refine ⟨_, rfl, Faithful.encode_eq (get r), Faithful.isExact_write (get r), ?_⟩
  intro depth s hdepth
  show (ReadJson.read depth _).map _ = _
  rw [Faithful.read_outline (get r) (Nat.le_trans h hdepth)]
  rfl

/-- The members of a record as they are written. -/
def writtenMembers (members : List (Member ρ)) (r : ρ) : List (String × Json) :=
  members.filterMap fun m => (m.write r).map ((m.name, ·))

theorem writtenMembers_cons {m : Member ρ} {r : ρ} {value : Json} (h : m.write r = some value)
    (members : List (Member ρ)) :
    writtenMembers (m :: members) r = (m.name, value) :: writtenMembers members r := by
  unfold writtenMembers
  rw [List.filterMap_cons, h]
  rfl

variable {fields : List (WireField ρ)} {members : List (Member ρ)} {copy : ρ → ρ → ρ}

theorem Copies.names_eq (h : Copies nesting fields members copy) :
    fields.map WireField.name = members.map Member.name := by
  induction h with
  | nil => rfl
  | cons hm _ ih => rw [List.map_cons, List.map_cons, hm.1, ih]

theorem Copies.keys_written (h : Copies nesting fields members copy) (r : ρ) :
    Assoc.keys (writtenMembers members r) = fields.map WireField.name := by
  induction h with
  | nil => rfl
  | cons hm _ ih =>
    obtain ⟨value, hwrite, -⟩ := hm.2 r
    rw [writtenMembers_cons hwrite, Assoc.keys_cons, ih, List.map_cons, hm.1]

theorem Copies.encoded (h : Copies nesting fields members copy) (r : ρ) :
    encodeRecord (fields.map fun field => (field.name, field.encode r)) =
      .ok (.object (writtenMembers members r)) := by
  have hmembers : (fields.map fun field => (field.name, field.encode r)).mapM
      (fun member : String × Encoded => member.2.map ((member.1, ·))) =
        .ok (writtenMembers members r) := by
    induction h with
    | nil => rfl
    | cons hm _ ih =>
      obtain ⟨value, hwrite, hencode, -⟩ := hm.2 r
      rw [writtenMembers_cons hwrite, List.map_cons, List.mapM_cons, hencode, ih, hm.1]
      rfl
  show (List.mapM (fun member : String × Encoded => member.2.map ((member.1, ·))) _ >>=
    fun members => .ok (Json.object members)) = _
  rw [hmembers]
  rfl

theorem Copies.exact_written (h : Copies nesting fields members copy) (r : ρ) :
    Json.membersExact (writtenMembers members r) = true := by
  induction h with
  | nil => rfl
  | cons hm _ ih =>
    obtain ⟨value, hwrite, -, hexact, -⟩ := hm.2 r
    rw [writtenMembers_cons hwrite, Json.membersExact, hexact, ih]
    rfl

/-! ## Reading the members back -/

/-- Reading goes through the members that are still to come: each is known to the schema and new,
and when none is left all have been seen. -/
theorem Copies.readMembers (h : Copies nesting fields members copy) {schema : Schema ρ}
    (hnodup : (schema.members.map Member.name).Nodup) {seen : List String}
    (hseen : (seen ++ members.map Member.name).Nodup)
    (hmem : ∀ m ∈ members, m ∈ schema.members)
    (hall : ∀ m ∈ schema.members, m.name ∈ seen ∨ m ∈ members)
    {depth : Nat} (hdepth : nesting ≤ depth) (r s : ρ) :
    schema.readMembers depth seen (Json.memberOutlines (writtenMembers members r)) s =
      .ok (copy r s) := by
  induction h generalizing seen s with
  | nil =>
    -- every member of the schema has been seen, so none is missing
    have hmissing : schema.missing? seen = none := by
      unfold Schema.missing?
      rw [Option.map_eq_none_iff, List.find?_eq_none]
      intro m hm
      have hname := (hall m hm).resolve_right List.not_mem_nil
      simp [hname]
    show schema.readMembers depth seen [] s = _
    rw [Schema.readMembers, hmissing]
  | @cons field m copy fields members rest hm _ ih =>
    obtain ⟨value, hwrite, -, -, hread⟩ := hm.2 r
    have hfind := (Lists.find?_eq_some_iff hnodup).2 ⟨hmem m List.mem_cons_self, rfl⟩
    have hfresh : m.name ∉ seen := by
      intro hname
      rw [List.nodup_append] at hseen
      exact hseen.2.2 m.name hname m.name List.mem_cons_self rfl
    rw [writtenMembers_cons hwrite, Json.memberOutlines, Schema.readMembers_known hfind hfresh,
      hread depth s hdepth]
    refine ih ?_ (fun other hother => hmem other (List.mem_cons_of_mem _ hother)) ?_ _
    · -- the name has moved from the members to come to the names that have been seen
      exact (List.perm_middle.nodup_iff).1 hseen
    · intro other hother
      rcases hall other hother with hname | hother
      · exact .inl (List.mem_cons_of_mem _ hname)
      · rcases List.mem_cons.1 hother with rfl | hother
        · exact .inl List.mem_cons_self
        · exact .inr hother

end

/-! ## Records -/

/-- A record type whose members carry the whole record over, each under its own name. -/
class FaithfulRecord (ρ : Type) [Record ρ] (nesting : outParam Nat) : Prop where
  exists_copy : ∃ copy,
    Copies nesting (Record.schema : Schema ρ).fields (Record.schema : Schema ρ).members copy ∧
      ∀ r, copy r (Record.schema : Schema ρ).blank = r
  nodup_names : (Record.schema : Schema ρ).names.Nodup

section

variable {ρ : Type} [Record ρ] {nesting : Nat}

instance : NeverNull ρ := ⟨fun _ => Json.noConfusion⟩

theorem Record.encode_eq [FaithfulRecord ρ nesting] (r : ρ) :
    encode r = .ok (.object (writtenMembers (Record.schema : Schema ρ).members r)) := by
  obtain ⟨copy, hcopies, -⟩ := FaithfulRecord.exists_copy (ρ := ρ)
  exact hcopies.encoded r

theorem Record.keys_written [FaithfulRecord ρ nesting] (r : ρ) :
    Assoc.keys (writtenMembers (Record.schema : Schema ρ).members r) =
      (Record.schema : Schema ρ).names := by
  obtain ⟨copy, hcopies, -⟩ := FaithfulRecord.exists_copy (ρ := ρ)
  exact hcopies.keys_written r

instance [FaithfulRecord ρ nesting] : Faithful ρ (nesting + 1) where
  encode_eq r := Record.encode_eq r
  isExact_write r := by
    obtain ⟨copy, hcopies, -⟩ := FaithfulRecord.exists_copy (ρ := ρ)
    exact hcopies.exact_written r
  read_outline r depth h := by
    obtain ⟨copy, hcopies, hcopy⟩ := FaithfulRecord.exists_copy (ρ := ρ)
    obtain ⟨depth, rfl⟩ : ∃ n, depth = n + 1 := ⟨depth - 1, by omega⟩
    show (Record.schema : Schema ρ).readMembers depth []
      (Json.memberOutlines (writtenMembers (Record.schema : Schema ρ).members r))
      (Record.schema : Schema ρ).blank = _
    have hnodup : ((Record.schema : Schema ρ).members.map Member.name).Nodup :=
      hcopies.names_eq ▸ FaithfulRecord.nodup_names
    rw [hcopies.readMembers hnodup hnodup (fun _ hm => hm) (fun _ hm => .inr hm) (by omega), hcopy]

end

end JavaAtlas
