import JavaAtlas.Model.Crud
import JavaAtlas.Proofs.Data.Dict
import JavaAtlas.Proofs.Data.Except
import JavaAtlas.Proofs.Json.Recovery

set_option autoImplicit false

/-! # Types that are written and read alike

A type is faithful if its wire form is its JSON form, and its values are read back from their JSON
form. A container takes this from what it holds, and costs one level of nesting: its elements are
encoded, written and read one after the other. -/

namespace JavaAtlas

open Json (ReadJson ReadError Outline)

/-- A type whose values are encoded as they are written, and are read back from what is written when
at least `nesting` containers may be open. -/
class Faithful (α : Type) [WriteJson α] [Encode α] [ReadJson α] (nesting : outParam Nat) :
    Prop where
  encode_eq (a : α) : encode a = .ok (WriteJson.write a)
  isExact_write (a : α) : (WriteJson.write a).isExact = true
  read_outline (a : α) {depth : Nat} (h : nesting ≤ depth) :
    ReadJson.read depth (WriteJson.write a).outline = .ok a

/-- A type that leaves `null` free to stand for an absent value. -/
class NeverNull (α : Type) [WriteJson α] : Prop where
  write_ne_null (a : α) : WriteJson.write a ≠ .null

namespace Faithful

/-! ## Plain values -/

instance : Faithful String 0 where
  encode_eq _ := rfl
  isExact_write _ := rfl
  read_outline _ _ _ := rfl

instance : NeverNull String := ⟨fun _ => Json.noConfusion⟩

instance : Faithful Bool 0 where
  encode_eq _ := rfl
  isExact_write _ := rfl
  read_outline _ _ _ := rfl

instance : NeverNull Bool := ⟨fun _ => Json.noConfusion⟩

theorem read_outline_int64 (n : Int64) (depth : Nat) :
    ReadJson.read depth (Json.int n.toInt).outline = .ok n := by
  have hlow := n.minValue_le_toInt
  have hread : ReadJson.read depth (Json.int n.toInt).outline = .ok (Int64.ofInt n.toInt) :=
    Json.readInteger_int hlow n.toInt_le hlow n.toInt_le
  rwa [Int64.ofInt_toInt] at hread

instance : Faithful Int64 0 where
  encode_eq _ := rfl
  isExact_write _ := rfl
  read_outline n depth _ := read_outline_int64 n depth

/-! ## Named constants -/

theorem variant_of_find? {α : Type} {known : List (String × α)} {name : String} {a : α}
    (h : Assoc.find? name known = some a) (depth : Nat) :
    Json.readVariant known depth (.string (some name)) = .ok a := by
  show Json.readVariant.variant known name = .ok a
  unfold Json.readVariant.variant
  rw [h]

theorem of_named {α : Type} [WriteJson α] [Encode α] [ReadJson α] {name : α → String}
    (hwrite : ∀ a : α, WriteJson.write a = .string (name a))
    (hencode : ∀ a, encode a = .ok (.string (name a)))
    (hread : ∀ a depth, ReadJson.read depth (.string (some (name a))) = .ok a) : Faithful α 0 where
  encode_eq a := by rw [hencode, hwrite]
  isExact_write a := by
    rw [hwrite]
    rfl
  read_outline a depth _ := by
    rw [hwrite]
    exact hread a depth

theorem write_crudKind (kind : CrudKind) : WriteJson.write kind = .string kind.name := by
  cases kind <;> rfl

instance : Faithful CrudKind 0 :=
  of_named write_crudKind (fun _ => rfl) fun kind => variant_of_find? kind.find?_name

instance : NeverNull CrudKind := ⟨fun kind => by rw [write_crudKind]; exact Json.noConfusion⟩

theorem write_queryKind (kind : QueryKind) : WriteJson.write kind = .string kind.name := by
  cases kind <;> rfl

instance : Faithful QueryKind 0 :=
  of_named write_queryKind (fun _ => rfl) fun kind => variant_of_find? kind.find?_name

instance : NeverNull QueryKind := ⟨fun kind => by rw [write_queryKind]; exact Json.noConfusion⟩

/-! ## Containers -/

section

variable {α : Type} [WriteJson α] [Encode α] [ReadJson α]

theorem outline_ne_null {value : Json} (h : value ≠ .null) : value.outline ≠ .null := by
  cases value <;> simp [Json.outline] at h ⊢

omit [WriteJson α] [Encode α] in
theorem read_outline_some {depth : Nat} {outline : Outline} {a : α} (hnull : outline ≠ .null)
    (hread : ReadJson.read depth outline = .ok a) :
    ReadJson.read depth outline = .ok (some a) := by
  rw [Json.read_option_of_ne_null hnull, hread]
  rfl

instance {nesting : Nat} [Faithful α nesting] [NeverNull α] : Faithful (Option α) nesting where
  encode_eq a := by
    cases a with
    | none => rfl
    | some a => exact encode_eq a
  isExact_write a := by
    cases a with
    | none => rfl
    | some a => exact isExact_write a
  read_outline a depth h := by
    cases a with
    | none => rfl
    | some a =>
      exact read_outline_some (outline_ne_null (NeverNull.write_ne_null a)) (read_outline a h)

theorem encodeItems_eq {nesting : Nat} [Faithful α nesting] (items : List α) :
    encodeItems items = .ok (items.map WriteJson.write) := by
  induction items with
  | nil => rfl
  | cons a rest ih =>
    unfold encodeItems at ih ⊢
    rw [List.mapM_cons, encode_eq, ih]
    rfl

instance {nesting : Nat} [Faithful α nesting] : Faithful (List α) (nesting + 1) where
  encode_eq items := by
    show (encodeItems items).map Json.array = _
    rw [encodeItems_eq]
    rfl
  isExact_write items := by
    show Json.itemsExact (items.map WriteJson.write) = true
    rw [Json.itemsExact_iff, List.forall_mem_map]
    exact fun a _ => isExact_write a
  read_outline items depth h := by
    obtain ⟨depth, rfl⟩ : ∃ n, depth = n + 1 := ⟨depth - 1, by omega⟩
    show (Json.itemOutlines (items.map WriteJson.write)).mapM (ReadJson.read depth) = _
    rw [Json.itemOutlines_eq, List.map_map]
    exact Fallible.mapM_map_ok (fun a => read_outline a (by omega)) items

instance : NeverNull (List α) := ⟨fun _ => Json.noConfusion⟩

theorem encodeEntries_eq {nesting : Nat} [Faithful α nesting] {entries : List (String × α)}
    (hnodup : (Assoc.keys entries).Nodup) {taken : List String}
    (hfresh : ∀ key ∈ Assoc.keys entries, key ∉ taken) :
    encodeEntries taken entries =
      .ok (entries.map fun entry => (entry.1, WriteJson.write entry.2)) := by
  induction entries generalizing taken with
  | nil => rfl
  | cons entry rest ih =>
    obtain ⟨key, a⟩ := entry
    rw [Assoc.keys_cons, List.nodup_cons] at hnodup
    rw [Assoc.keys_cons, List.forall_mem_cons] at hfresh
    have hrest : ∀ other ∈ Assoc.keys rest, other ∉ key :: taken := by
      intro other hother hmem
      rcases List.mem_cons.1 hmem with rfl | hmem
      · exact hnodup.1 hother
      · exact hfresh.2 other hother hmem
    unfold encodeEntries
    show (if key ∈ taken then _ else _) = _
    rw [if_neg hfresh.1, encode_eq a]
    show (encodeEntries (key :: taken) rest >>= fun members => _) = _
    rw [ih hnodup.2 hrest]
    rfl

omit [WriteJson α] [Encode α] [ReadJson α] in
/-- The entries are appended one by one, because none of their names is in the dictionary yet. -/
theorem readEntries_eq {read : Outline → Except ReadError α} {write : α → Outline}
    (hread : ∀ a, read (write a) = .ok a) {entries : List (String × α)} {d : Dict String α}
    (hnodup : (Assoc.keys (d.entries ++ entries)).Nodup) :
    Json.readEntries read (entries.map fun entry => (some entry.1, write entry.2)) d =
      .ok ⟨d.entries ++ entries, hnodup⟩ := by
  induction entries generalizing d with
  | nil => simp [Json.readEntries]
  | cons entry rest ih =>
    obtain ⟨key, a⟩ := entry
    have hfresh := Assoc.not_mem_keys_of_nodup hnodup
    have hinsert : (d.insert key a).entries = d.entries ++ [(key, a)] :=
      Assoc.insert_of_not_mem hfresh a
    rw [List.map_cons, Json.readEntries, hread]
    show Json.readEntries read _ (d.insert key a) = _
    rw [ih (by rw [hinsert, List.append_assoc]; exact hnodup)]
    simp [hinsert]

instance {nesting : Nat} [Faithful α nesting] : Faithful (Dict String α) (nesting + 1) where
  encode_eq d := by
    show (encodeEntries [] d.entries).map Json.object = _
    rw [encodeEntries_eq d.nodup fun _ _ => List.not_mem_nil]
    rfl
  isExact_write d := by
    show Json.membersExact (d.entries.map _) = true
    rw [Json.membersExact_iff, List.forall_mem_map]
    exact fun entry _ => isExact_write entry.2
  read_outline d depth h := by
    obtain ⟨depth, rfl⟩ : ∃ n, depth = n + 1 := ⟨depth - 1, by omega⟩
    show Json.readEntries (ReadJson.read depth) (Json.memberOutlines (d.entries.map _)) .empty = _
    rw [Json.memberOutlines_eq, List.map_map]
    have hread : ∀ a : α, ReadJson.read depth (WriteJson.write a).outline = .ok a :=
      fun a => read_outline a (by omega)
    exact readEntries_eq hread (d := .empty) d.nodup

end

/-! ## Whole texts -/

/-- A value is read back from its text. -/
theorem readText_write {α : Type} [WriteJson α] [Encode α] [ReadJson α] {nesting : Nat}
    [Faithful α nesting] (h : nesting ≤ Json.nestingLimit) (a : α) :
    Json.readText (WriteJson.write a).compact = .ok a := by
  rw [Json.readText_compact (isExact_write a), read_outline a h]

end Faithful

end JavaAtlas
