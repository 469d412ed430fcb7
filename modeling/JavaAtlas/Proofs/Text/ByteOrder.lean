import JavaAtlas.Text.Utf8
import Mathlib.Data.String.Basic

set_option autoImplicit false

/-! # The order of texts and the order of bytes

Texts are compared character by character, and UTF-8 is made so that this is the order of their
bytes (`encode_lt_iff`): the bytes of two characters differ somewhere, and at the first difference
the smaller character has the smaller byte (`differsBelow_utf8EncodeChar`). -/

namespace JavaAtlas.Utf8

/-! ## The bytes of a text -/

theorem toList_loop_eq (bytes : ByteArray) (i : Nat) (read : List UInt8) :
    ByteArray.toList.loop bytes i read = read.reverse ++ bytes.data.toList.drop i := by
  induction i, read using ByteArray.toList.loop.induct bytes with
  | case1 i read hi ih =>
    have hi' : i < bytes.data.toList.length := hi
    have hget : bytes.get! i = bytes.data.toList[i] := by
      rw [Array.getElem_toList]
      exact getElem!_pos bytes.data i hi
    rw [ByteArray.toList.loop, if_pos hi, ih, List.drop_eq_getElem_cons hi', hget,
      List.reverse_cons, List.append_assoc]
    rfl
  | case2 i read hi =>
    have hi' : bytes.data.toList.length ≤ i := Nat.le_of_not_lt hi
    rw [ByteArray.toList.loop, if_neg hi, List.drop_eq_nil_of_le hi', List.append_nil]

/-- The bytes of a text are those of its characters, one after the other. -/
theorem encode_eq_flatMap (s : String) : encode s = s.toList.flatMap String.utf8EncodeChar := by
  have hbytes : s.toUTF8 = (s.toList.flatMap String.utf8EncodeChar).toByteArray := by
    conv => lhs; rw [← String.ofList_toList (s := s)]
    rw [String.toUTF8_eq_toByteArray, String.toByteArray_ofList]
    rfl
  unfold encode ByteArray.toList
  rw [hbytes, toList_loop_eq, List.toList_data_toByteArray]
  rfl

/-! ## Characters -/

/-- The first difference of two lists is a smaller byte in the first one. -/
def DiffersBelow (xs ys : List UInt8) : Prop :=
  ∃ common x y xs' ys', xs = common ++ x :: xs' ∧ ys = common ++ y :: ys' ∧ x < y

theorem DiffersBelow.append_lt {xs ys : List UInt8} (h : DiffersBelow xs ys)
    (us vs : List UInt8) : xs ++ us < ys ++ vs := by
  obtain ⟨common, x, y, xs', ys', rfl, rfl, hlt⟩ := h
  rw [List.append_assoc, List.append_assoc]
  exact List.append_left_lt (List.Lex.rel hlt)

theorem DiffersBelow.head {m n : Nat} (hm : m < 256) (hn : n < 256) (h : m < n)
    (xs ys : List UInt8) : DiffersBelow (UInt8.ofNat m :: xs) (UInt8.ofNat n :: ys) :=
  ⟨[], _, _, xs, ys, rfl, rfl, (UInt8.ofNat_lt_iff_lt hm hn).2 h⟩

/-- A first byte that is not greater decides, unless it is the same in both. -/
theorem DiffersBelow.headOrTail {m n : Nat} (hm : m < 256) (hn : n < 256) (h : m ≤ n)
    {xs ys : List UInt8} (htail : m = n → DiffersBelow xs ys) :
    DiffersBelow (UInt8.ofNat m :: xs) (UInt8.ofNat n :: ys) := by
  rcases Nat.lt_or_eq_of_le h with hlt | heq
  · exact .head hm hn hlt xs ys
  · obtain ⟨common, x, y, xs', ys', rfl, rfl, hxy⟩ := htail heq
    exact ⟨UInt8.ofNat m :: common, x, y, xs', ys', rfl, by rw [heq]; rfl, hxy⟩

theorem toNat_lt (c : Char) : c.val.toNat < 1114112 := by
  have h := c.valid
  unfold UInt32.isValidChar Nat.isValidChar at h
  omega

/-- The bytes of characters tell their order. The first byte grows with the number of bytes; among
characters with equally many bytes, the digits in base 64 are compared from the first one on. -/
theorem differsBelow_utf8EncodeChar {c d : Char} (h : c < d) :
    DiffersBelow (String.utf8EncodeChar c) (String.utf8EncodeChar d) := by
  have hlt : c.val.toNat < d.val.toNat := UInt32.lt_iff_toNat_lt.1 (Char.lt_def.1 h)
  have hd := toNat_lt d
  unfold String.utf8EncodeChar
  generalize c.val.toNat = m at hlt
  generalize d.val.toNat = n at hlt hd
  dsimp only
  split
  · -- one byte, which is smaller than every first byte of a longer encoding
    split
    · exact .head (by omega) (by omega) hlt _ _
    · split
      · exact .head (by omega) (by omega) (by omega) _ _
      · split <;> exact .head (by omega) (by omega) (by omega) _ _
  · rw [if_neg (show ¬n ≤ 127 by omega)]
    split
    · split
      · refine .headOrTail (by omega) (by omega) (by omega) fun hfirst => ?_
        exact .head (by omega) (by omega) (by omega) _ _
      · split <;> exact .head (by omega) (by omega) (by omega) _ _
    · rw [if_neg (show ¬n ≤ 2047 by omega)]
      split
      · split
        · refine .headOrTail (by omega) (by omega) (by omega) fun hfirst => ?_
          have hfirst : m / 4096 = n / 4096 := by omega
          refine .headOrTail (by omega) (by omega) (by omega) fun hsecond => ?_
          exact .head (by omega) (by omega) (by omega) _ _
        · exact .head (by omega) (by omega) (by omega) _ _
      · rw [if_neg (show ¬n ≤ 65535 by omega)]
        refine .headOrTail (by omega) (by omega) (by omega) fun hfirst => ?_
        have hfirst : m / 262144 = n / 262144 := by omega
        refine .headOrTail (by omega) (by omega) (by omega) fun hsecond => ?_
        have hsecond : m / 4096 = n / 4096 := by omega
        refine .headOrTail (by omega) (by omega) (by omega) fun hthird => ?_
        have hthird : m / 64 = n / 64 := by omega
        exact .head (by omega) (by omega) (by omega) _ _

/-! ## Texts -/

theorem flatMap_utf8EncodeChar_lt {cs ds : List Char} (h : cs < ds) :
    cs.flatMap String.utf8EncodeChar < ds.flatMap String.utf8EncodeChar := by
  induction h with
  | @nil d ds =>
    rw [List.flatMap_nil, List.flatMap_cons]
    cases hbytes : String.utf8EncodeChar d with
    | nil => exact absurd hbytes (by simp)
    | cons x xs => exact List.Lex.nil
  | rel hlt =>
    rw [List.flatMap_cons, List.flatMap_cons]
    exact (differsBelow_utf8EncodeChar hlt).append_lt _ _
  | cons _ ih =>
    rw [List.flatMap_cons, List.flatMap_cons]
    exact List.append_left_lt ih

/-- **The order of texts is the order of their bytes.** -/
theorem encode_lt_iff {s t : String} : encode s < encode t ↔ s < t := by
  have hmono : ∀ {a b : String}, a < b → encode a < encode b := by
    intro a b h
    rw [encode_eq_flatMap, encode_eq_flatMap]
    exact flatMap_utf8EncodeChar_lt (String.lt_iff_toList_lt.1 h)
  refine ⟨fun h => ?_, hmono⟩
  rcases lt_trichotomy s t with hlt | rfl | hgt
  · exact hlt
  · exact absurd h (List.lt_irrefl _)
  · exact absurd (List.lt_trans h (hmono hgt)) (List.lt_irrefl _)

end JavaAtlas.Utf8
