import JavaAtlas.Proofs.Data.Sorting
import JavaAtlas.Proofs.Json.Injectivity
import JavaAtlas.Proofs.Text.ByteOrder
import JavaAtlas.Proofs.Wire.Members

set_option autoImplicit false

/-! # Containers without an order have one wire form

A set or a map without an order is written in the order of texts, those of its encoded elements or
its names. Values are told apart by their texts and a writable map has pairwise distinct names, so
sorting leaves no choice (`sortByText_eq_of_perm`), and whether all parts have a wire form does not
depend on their order. -/

namespace JavaAtlas

variable {α β κ : Type} [Encode α] [Encode β] [WireKey κ]

/-! ## Wire forms hold finite numbers -/

/-- Whether the wire forms of values hold finite numbers only. There are no others in JSON, and what
this leaves out is a value that is taken for JSON though it holds one. -/
def EncodeFinite (items : List α) : Prop :=
  ∀ a ∈ items, ∀ json, encode a = .ok json → json.isFinite = true

theorem isFinite_of_encodeItems {items : List α} {jsons : List Json} (h : EncodeFinite items)
    (hjsons : encodeItems items = .ok jsons) : ∀ json ∈ jsons, json.isFinite = true := by
  intro json hjson
  obtain ⟨a, ha, hencode⟩ := Fallible.exists_of_mem_mapM hjsons hjson
  exact h a ha json hencode

theorem isFinite_of_encodeEntries {entries : List (κ × α)} {taken : List String}
    {members : List (String × Json)} (h : EncodeFinite (entries.map Prod.snd))
    (hmembers : encodeEntries taken entries = .ok members) :
    ∀ member ∈ members, member.2.isFinite = true := by
  have hmatch := forall₂_isMemberFor hmembers
  clear hmembers
  induction hmatch with
  | nil => exact List.forall_mem_nil _
  | cons hmember _ ih =>
    obtain ⟨hfirst, hrest⟩ := List.forall_mem_cons.1 h
    exact List.forall_mem_cons.2 ⟨hfirst _ hmember.2, ih hrest⟩

/-- A type whose values have wire forms with finite numbers only. -/
class FiniteForms (α : Type) [Encode α] : Prop where
  encodeFinite (items : List α) : EncodeFinite items

theorem FiniteForms.of (h : ∀ (a : α) json, encode a = .ok json → json.isFinite = true) :
    FiniteForms α :=
  ⟨fun _ a _ => h a⟩

theorem FiniteForms.isFinite [FiniteForms α] {a : α} {json : Json} (h : encode a = .ok json) :
    json.isFinite = true :=
  encodeFinite [a] a List.mem_cons_self json h

instance : FiniteForms Unit := .of (by rintro a json ⟨⟩; rfl)

instance : FiniteForms Bool := .of (by rintro a json ⟨⟩; rfl)

instance : FiniteForms String := .of (by rintro a json ⟨⟩; rfl)

instance : FiniteForms Int32 := .of (by rintro a json ⟨⟩; rfl)

instance : FiniteForms Int64 := .of (by rintro a json ⟨⟩; rfl)

instance : FiniteForms UInt32 := .of (by rintro a json ⟨⟩; rfl)

instance : FiniteForms UInt64 := .of (by rintro a json ⟨⟩; rfl)

instance : FiniteForms Double := .of (by
  intro x json h
  have hfinite := exists_encode_double_iff.1 ⟨json, h⟩
  have hjson : encode x = .ok (.float x) := if_pos hfinite
  obtain rfl := Except.ok.inj (hjson.symm.trans h)
  exact hfinite)

instance : FiniteForms Path := .of (by
  intro p json h
  unfold encode instEncodePath at h
  dsimp only at h
  split at h
  · cases h
    rfl
  · cases h)

instance [FiniteForms α] : FiniteForms (Option α) := .of (by
  intro a json h
  cases a with
  | none =>
    cases h
    rfl
  | some a => exact FiniteForms.isFinite (a := a) h)

instance [FiniteForms α] [FiniteForms β] : FiniteForms (α × β) := .of (by
  intro p json h
  obtain ⟨a, ha, h⟩ := Fallible.bind_eq_ok_iff.1 h
  obtain ⟨b, hb, h⟩ := Fallible.bind_eq_ok_iff.1 h
  obtain rfl := Except.ok.inj h
  exact Json.itemsFinite_iff.2 (by simp [FiniteForms.isFinite ha, FiniteForms.isFinite hb]))

instance [FiniteForms α] : FiniteForms (List α) := .of (by
  intro items json h
  obtain ⟨jsons, hjsons, rfl⟩ := Fallible.map_eq_ok_iff.1 h
  exact Json.itemsFinite_iff.2 (isFinite_of_encodeItems (FiniteForms.encodeFinite items) hjsons))

instance [FiniteForms α] : FiniteForms (Dict κ α) := .of (by
  intro d json h
  obtain ⟨members, hmembers, rfl⟩ := Fallible.map_eq_ok_iff.1 h
  exact Json.membersFinite_iff.2
    (isFinite_of_encodeEntries (FiniteForms.encodeFinite _) hmembers))

/-! ## Sets -/

/-- Values in the order of their texts. -/
def inTextOrder (items : List Json) : List Json :=
  (sortByText Prod.fst (items.map fun item => (item.compact, item))).map Prod.snd

theorem encode_set_eq (s : UnorderedSet α) :
    encode s = (encodeItems s.elements).map fun items => .array (inTextOrder items) := by
  show (encodeItems s.elements >>= fun items => .ok (Json.array (inTextOrder items))) = _
  cases encodeItems s.elements <;> rfl

theorem inTextOrder_perm (items : List Json) : (inTextOrder items).Perm items := by
  have hperm := (List.mergeSort_perm (items.map fun item => (item.compact, item))
    fun a b => decide (a.1 ≤ b.1)).map Prod.snd
  rwa [List.map_map, show Prod.snd ∘ (fun item : Json => (item.compact, item)) = id from rfl,
    List.map_id] at hperm

theorem pairwise_inTextOrder (items : List Json) :
    (inTextOrder items).Pairwise fun v w => v.compact ≤ w.compact := by
  refine List.pairwise_map.2 ((pairwise_sortByText Prod.fst _).imp_of_mem ?_)
  intro a b ha hb hle
  obtain ⟨v, -, rfl⟩ := List.mem_map.1 (mem_sortByText.1 ha)
  obtain ⟨w, -, rfl⟩ := List.mem_map.1 (mem_sortByText.1 hb)
  exact hle

/-- Values that are told apart by their texts have one order. -/
theorem inTextOrder_eq_of_perm {items others : List Json} (h : items.Perm others)
    (hfinite : ∀ item ∈ items, item.isFinite = true) : inTextOrder items = inTextOrder others := by
  have hkey : ∀ a ∈ items.map (fun item => (item.compact, item)),
      ∀ b ∈ items.map (fun item => (item.compact, item)), a.1 = b.1 → a = b := by
    simp only [List.forall_mem_map]
    intro v hv w hw htext
    rw [Json.compact_inj (hfinite v hv) (hfinite w hw) htext]
  unfold inTextOrder
  rw [sortByText_eq_of_perm (h.map _) hkey]

instance [FiniteForms α] : FiniteForms (UnorderedSet α) := .of (by
  intro s json h
  rw [encode_set_eq] at h
  obtain ⟨jsons, hjsons, rfl⟩ := Fallible.map_eq_ok_iff.1 h
  refine Json.itemsFinite_iff.2 fun item hitem => ?_
  exact isFinite_of_encodeItems (FiniteForms.encodeFinite _) hjsons item
    ((inTextOrder_perm jsons).mem_iff.1 hitem))

/-- Whether items are the wire forms of the elements, in the order of their texts. -/
def AreElements (elements : List α) (items : List Json) : Prop :=
  (∃ jsons, encodeItems elements = .ok jsons ∧ items.Perm jsons) ∧
    items.Pairwise fun v w => v.compact ≤ w.compact

theorem encode_set_of_perm {s t : UnorderedSet α} (h : s.elements.Perm t.elements)
    (hfinite : EncodeFinite s.elements) {json : Json} (hs : encode s = .ok json) :
    encode t = .ok json ∧ ∃ items, json = .array items ∧ AreElements s.elements items := by
  rw [encode_set_eq] at hs ⊢
  obtain ⟨jsons, hjsons, rfl⟩ := Fallible.map_eq_ok_iff.1 hs
  obtain ⟨others, hothers, hperm⟩ := Fallible.exists_mapM_of_perm h hjsons
  have horder := inTextOrder_eq_of_perm hperm (isFinite_of_encodeItems hfinite hjsons)
  refine ⟨Fallible.map_eq_ok_iff.2 ⟨others, hothers, by rw [horder]⟩, _, rfl, ?_, ?_⟩
  · exact ⟨jsons, hjsons, inTextOrder_perm jsons⟩
  · exact pairwise_inTextOrder jsons

/-! ## Maps -/

/-- The entries of a map in the order of their names. -/
def inNameOrder (entries : List (κ × α)) : List (κ × α) :=
  sortByText (fun entry => wireKey entry.1) entries

theorem encode_map_eq (m : UnorderedMap κ α) :
    encode m = (encodeEntries [] (inNameOrder m.entries.entries)).map Json.object := rfl

instance [FiniteForms α] : FiniteForms (UnorderedMap κ α) := .of (by
  intro m json h
  obtain ⟨members, hmembers, rfl⟩ := Fallible.map_eq_ok_iff.1 h
  exact Json.membersFinite_iff.2
    (isFinite_of_encodeEntries (FiniteForms.encodeFinite _) hmembers))

omit [Encode α] in
theorem inNameOrder_perm (entries : List (κ × α)) : (inNameOrder entries).Perm entries :=
  List.mergeSort_perm entries _

/-- Whether entries are writable does not depend on their order. -/
theorem writable_of_perm {entries others : List (κ × α)} (h : entries.Perm others)
    (hwritable : Writable entries) : Writable others := by
  obtain ⟨hnames, hvalues⟩ := hwritable
  refine ⟨((h.map fun entry : κ × α => wireKey entry.1).nodup_iff).1 hnames, ?_⟩
  intro entry hentry
  exact hvalues entry (h.mem_iff.2 hentry)

theorem exists_encode_map_iff {m : UnorderedMap κ α} :
    (∃ json, encode m = .ok json) ↔ Writable m.entries.entries := by
  rw [encode_map_eq, Fallible.exists_map_iff, exists_encodeEntries_iff_writable]
  exact ⟨writable_of_perm (inNameOrder_perm _), writable_of_perm (inNameOrder_perm _).symm⟩

/-- Whether members are those of the entries, in the order of the bytes of their names. -/
def AreMembers (entries : List (κ × α)) (members : List (String × Json)) : Prop :=
  (∃ arranged, arranged.Perm entries ∧ List.Forall₂ IsMemberFor arranged members) ∧
    members.Pairwise fun a b => Utf8.encode a.1 < Utf8.encode b.1

theorem names_of_forall₂ {entries : List (κ × α)} {members : List (String × Json)}
    (h : List.Forall₂ IsMemberFor entries members) :
    members.map Prod.fst = entryNames entries := by
  induction h with
  | nil => rfl
  | cons hmember _ ih =>
    rw [List.map_cons, ih, hmember.1]
    rfl

theorem encode_map_of_perm {m n : UnorderedMap κ α} (h : m.entries.entries.Perm n.entries.entries)
    {json : Json} (hm : encode m = .ok json) :
    encode n = .ok json ∧ ∃ members, json = .object members ∧ AreMembers m.entries.entries members := by
  obtain ⟨hnames, -⟩ := exists_encode_map_iff.1 ⟨json, hm⟩
  have horder : inNameOrder m.entries.entries = inNameOrder n.entries.entries :=
    sortByText_eq_of_perm h fun a ha b hb => List.inj_on_of_nodup_map hnames ha hb
  rw [encode_map_eq] at hm
  obtain ⟨members, hmembers, rfl⟩ := Fallible.map_eq_ok_iff.1 hm
  have hmatch := forall₂_isMemberFor hmembers
  refine ⟨by rw [encode_map_eq, ← horder, hm], members, rfl, ⟨_, inNameOrder_perm _, hmatch⟩, ?_⟩
  have hincreasing : (entryNames (inNameOrder m.entries.entries)).Pairwise (· < ·) :=
    List.pairwise_map.2 (increasingBy_sortByText hnames)
  rw [← names_of_forall₂ hmatch] at hincreasing
  exact (List.pairwise_map.1 hincreasing).imp Utf8.encode_lt_iff.2

/-! ## Both -/

/-- **Containers without an order have one wire form.** However the elements of a set come, encoding
fails for each of their orders, or else gives for each the same array, that of their wire forms in
the order of their texts. However the entries of a map come, encoding fails for each of their orders,
or else gives for each the same object, whose members are those of the entries and grow in the bytes
of their names. -/
theorem encode_unordered_exact :
    (∀ {α : Type} [Encode α] (s t : UnorderedSet α), s.elements.Perm t.elements →
      EncodeFinite s.elements →
      (∃ e, encode s = .error e) ∧ (∃ e, encode t = .error e) ∨
        ∃ items, encode s = .ok (.array items) ∧ encode t = .ok (.array items) ∧
          AreElements s.elements items) ∧
    (∀ {κ α : Type} [WireKey κ] [Encode α] (m n : UnorderedMap κ α),
      m.entries.entries.Perm n.entries.entries →
      (∃ e, encode m = .error e) ∧ (∃ e, encode n = .error e) ∨
        ∃ members, encode m = .ok (.object members) ∧ encode n = .ok (.object members) ∧
          AreMembers m.entries.entries members) := by
  constructor
  · intro α _ s t hperm hfinite
    have hfinite' : EncodeFinite t.elements := fun a ha => hfinite a (hperm.mem_iff.2 ha)
    refine (Fallible.errors_or_agree (fun hs => (encode_set_of_perm hperm hfinite hs).1)
      (fun ht => (encode_set_of_perm hperm.symm hfinite' ht).1)).imp_right ?_
    rintro ⟨json, hs, ht⟩
    obtain ⟨-, items, rfl, helements⟩ := encode_set_of_perm hperm hfinite hs
    exact ⟨items, hs, ht, helements⟩
  · intro κ α _ _ m n hperm
    refine (Fallible.errors_or_agree (fun hm => (encode_map_of_perm hperm hm).1)
      (fun hn => (encode_map_of_perm hperm.symm hn).1)).imp_right ?_
    rintro ⟨json, hm, hn⟩
    obtain ⟨-, members, rfl, hmembers⟩ := encode_map_of_perm hperm hm
    exact ⟨members, hm, hn, hmembers⟩

/-- A set of two words. -/
def words : UnorderedSet String := ⟨["void", "int"], by decide⟩

/-- The same set in its other order. -/
def wordsReversed : UnorderedSet String := ⟨["int", "void"], by decide⟩

/-- A map whose keys have another order as numbers than as texts. -/
def linesRead : UnorderedMap Int32 Double := ⟨⟨[(2, .zero), (10, .zero)], by decide⟩⟩

/-- The same map in its other order. -/
def linesReversed : UnorderedMap Int32 Double := ⟨⟨[(10, .zero), (2, .zero)], by decide⟩⟩

theorem encode_unordered_exact_words :
    (∃ items, encode words = .ok (.array items) ∧ encode wordsReversed = .ok (.array items) ∧
      AreElements words.elements items) ∧
    ∃ members, encode linesRead = .ok (.object members) ∧
      encode linesReversed = .ok (.object members) ∧
        AreMembers linesRead.entries.entries members := by
  obtain ⟨hsets, hmaps⟩ := encode_unordered_exact
  constructor
  · rcases hsets words wordsReversed (by decide) (FiniteForms.encodeFinite _) with
      ⟨⟨e, he⟩, -⟩ | harray
    · rw [encode_set_eq] at he
      cases he
    · exact harray
  · rcases hmaps linesRead linesReversed (by decide) with ⟨⟨e, he⟩, -⟩ | hobject
    · have hfinite : ∀ entry ∈ linesRead.entries.entries, entry.2.isFinite = true := by decide
      have hwritable : Writable linesRead.entries.entries :=
        ⟨by decide, fun entry hentry => exists_encode_double_iff.2 (hfinite entry hentry)⟩
      obtain ⟨json, hok⟩ := exists_encode_map_iff.2 hwritable
      rw [he] at hok
      cases hok
    · exact hobject

end JavaAtlas
