import JavaAtlas.Proofs.Text.ByteOrder

set_option autoImplicit false

/-! # Decoding what was encoded

The bytes of a character are decoded to that character, whatever follows them
(`decode_utf8EncodeChar`): the first byte says how many bytes there are, and each of the others
gives six bits. So a text is read back from its bytes (`toString?_encode`), and no other bytes are
read as that text (`toString?_eq_some_iff`). -/

namespace JavaAtlas.Utf8

/-! ## Bytes -/

theorem toNat_ofNat {n : Nat} (h : n < 256) : (UInt8.ofNat n).toNat = n :=
  UInt8.toNat_ofNat_of_lt' h

theorem isContinuation_tail {n : Nat} (h : n < 64) : isContinuation (.ofNat (n + 128)) = true := by
  unfold isContinuation
  simp [UInt8.le_iff_toNat_le]
  omega

theorem payload_tail {n : Nat} (h : n < 64) : payload (.ofNat (n + 128)) = n := by
  unfold payload
  rw [toNat_ofNat (by omega)]
  omega

/-- A second byte may follow a first one if the character is not overlong, no surrogate and not
too large. -/
theorem mayFollow_tail {a n : Nat} (ha : a < 256) (hn : n < 64) (hlong : a = 0xE0 → 32 ≤ n)
    (hsurrogate : a = 0xED → n < 32) (hlonger : a = 0xF0 → 16 ≤ n) (hlarge : a = 0xF4 → n < 16) :
    mayFollow (.ofNat a) (.ofNat (n + 128)) = true := by
  have hbyte : ∀ m < 256, (UInt8.ofNat a == UInt8.ofNat m) = decide (a = m) := by
    intro m hm
    rw [Bool.eq_iff_iff, beq_iff_eq, decide_eq_true_eq, ← UInt8.toNat_inj, toNat_ofNat ha,
      toNat_ofNat hm]
  have htail := isContinuation_tail hn
  unfold mayFollow
  rw [show (0xE0 : UInt8) = .ofNat 0xE0 from rfl, show (0xED : UInt8) = .ofNat 0xED from rfl,
    show (0xF0 : UInt8) = .ofNat 0xF0 from rfl, show (0xF4 : UInt8) = .ofNat 0xF4 from rfl,
    hbyte _ (by decide), hbyte _ (by decide), hbyte _ (by decide), hbyte _ (by decide)]
  simp only [decide_eq_true_eq]
  split
  · next h =>
    have := hlong h
    simp [UInt8.le_iff_toNat_le]
    omega
  split
  · next h =>
    have := hsurrogate h
    simp [UInt8.le_iff_toNat_le]
    omega
  split
  · next h =>
    have := hlonger h
    simp [UInt8.le_iff_toNat_le]
    omega
  split
  · next h =>
    have := hlarge h
    simp [UInt8.le_iff_toNat_le]
    omega
  · exact htail

/-! ## Characters -/

theorem decode_one {n : Nat} (h : n < 128) (rest : List UInt8) :
    decode (.ofNat n :: rest) = some (Char.ofNat n) :: decode rest := by
  have ha := toNat_ofNat (show n < 256 by omega)
  have hsmall : UInt8.ofNat n < 0x80 := by
    rw [UInt8.lt_iff_toNat_lt, ha]
    exact h
  rw [decode.eq_def]
  simp only [if_pos hsmall, ha]

theorem decode_two {x y : Nat} (hx : 2 ≤ x) (hx' : x < 32) (hy : y < 64) (rest : List UInt8) :
    decode (.ofNat (x + 192) :: .ofNat (y + 128) :: rest) =
      some (Char.ofNat (x * 64 + y)) :: decode rest := by
  have ha := toNat_ofNat (show x + 192 < 256 by omega)
  have hnot : ¬UInt8.ofNat (x + 192) < 0x80 := by
    rw [UInt8.lt_iff_toNat_lt, ha]
    simp
  have hlead : (0xC2 ≤ UInt8.ofNat (x + 192) && UInt8.ofNat (x + 192) ≤ 0xDF) = true := by
    simp [UInt8.le_iff_toNat_le]
    omega
  rw [decode.eq_def]
  simp only [if_neg hnot, if_pos hlead, if_pos (isContinuation_tail hy), payload_tail hy, ha]
  rw [show (x + 192) % 32 * 64 + y = x * 64 + y by omega]

theorem decode_three {x y z : Nat} (hx : x < 16) (hy : y < 64) (hz : z < 64)
    (hlong : x = 0 → 32 ≤ y) (hsurrogate : x = 13 → y < 32) (rest : List UInt8) :
    decode (.ofNat (x + 224) :: .ofNat (y + 128) :: .ofNat (z + 128) :: rest) =
      some (Char.ofNat (x * 4096 + y * 64 + z)) :: decode rest := by
  have ha := toNat_ofNat (show x + 224 < 256 by omega)
  have hnot : ¬UInt8.ofNat (x + 224) < 0x80 := by
    rw [UInt8.lt_iff_toNat_lt, ha]
    simp
  have hnot' : ¬(0xC2 ≤ UInt8.ofNat (x + 224) && UInt8.ofNat (x + 224) ≤ 0xDF) = true := by
    simp [UInt8.le_iff_toNat_le]
    omega
  have hlead : (0xE0 ≤ UInt8.ofNat (x + 224) && UInt8.ofNat (x + 224) ≤ 0xEF) = true := by
    simp [UInt8.le_iff_toNat_le]
    omega
  have hfollow := mayFollow_tail (show x + 224 < 256 by omega) hy (by omega) (by omega)
    (by omega) (by omega)
  rw [decode.eq_def]
  simp only [if_neg hnot, if_neg hnot', if_pos hlead, if_pos hfollow,
    if_pos (isContinuation_tail hz), payload_tail hy, payload_tail hz, ha]
  rw [show (x + 224) % 16 * 4096 + y * 64 + z = x * 4096 + y * 64 + z by omega]

theorem decode_four {x y z w : Nat} (hx : x ≤ 4) (hy : y < 64) (hz : z < 64) (hw : w < 64)
    (hlong : x = 0 → 16 ≤ y) (hlarge : x = 4 → y < 16) (rest : List UInt8) :
    decode (.ofNat (x + 240) :: .ofNat (y + 128) :: .ofNat (z + 128) :: .ofNat (w + 128) :: rest) =
      some (Char.ofNat (x * 262144 + y * 4096 + z * 64 + w)) :: decode rest := by
  have ha := toNat_ofNat (show x + 240 < 256 by omega)
  have hnot : ¬UInt8.ofNat (x + 240) < 0x80 := by
    rw [UInt8.lt_iff_toNat_lt, ha]
    simp
  have hnot' : ¬(0xC2 ≤ UInt8.ofNat (x + 240) && UInt8.ofNat (x + 240) ≤ 0xDF) = true := by
    simp [UInt8.le_iff_toNat_le]
    omega
  have hnot'' : ¬(0xE0 ≤ UInt8.ofNat (x + 240) && UInt8.ofNat (x + 240) ≤ 0xEF) = true := by
    simp [UInt8.le_iff_toNat_le]
    omega
  have hlead : (0xF0 ≤ UInt8.ofNat (x + 240) && UInt8.ofNat (x + 240) ≤ 0xF4) = true := by
    simp [UInt8.le_iff_toNat_le]
    omega
  have hfollow := mayFollow_tail (show x + 240 < 256 by omega) hy (by omega) (by omega)
    (by omega) (by omega)
  rw [decode.eq_def]
  simp only [if_neg hnot, if_neg hnot', if_neg hnot'', if_pos hlead, if_pos hfollow,
    if_pos (isContinuation_tail hz), if_pos (isContinuation_tail hw), payload_tail hy,
    payload_tail hz, payload_tail hw, ha]
  rw [show (x + 240) % 8 * 262144 + y * 4096 + z * 64 + w =
    x * 262144 + y * 4096 + z * 64 + w by omega]

/-- The bytes of a character are decoded to the character. -/
theorem decode_utf8EncodeChar (c : Char) (rest : List UInt8) :
    decode (String.utf8EncodeChar c ++ rest) = some c :: decode rest := by
  have hlarge := toNat_lt c
  have hvalid : ¬(0xD800 ≤ c.val.toNat ∧ c.val.toNat ≤ 0xDFFF) := by
    have h := c.valid
    unfold UInt32.isValidChar Nat.isValidChar at h
    omega
  have hback : Char.ofNat c.val.toNat = c := Char.ofNat_toNat c
  unfold String.utf8EncodeChar
  generalize c.val.toNat = n at hlarge hvalid hback
  dsimp only
  split
  · next h =>
    rw [List.singleton_append, decode_one (by omega), hback]
  split
  · next h =>
    show decode (_ :: _ :: rest) = _
    rw [decode_two (by omega) (by omega) (by omega), ← hback]
    congr 3
    omega
  split
  · next h =>
    show decode (_ :: _ :: _ :: rest) = _
    rw [decode_three (by omega) (by omega) (by omega) (by omega) (by omega), ← hback]
    congr 3
    omega
  · show decode (_ :: _ :: _ :: _ :: rest) = _
    rw [decode_four (by omega) (by omega) (by omega) (by omega) (by omega) (by omega), ← hback]
    congr 3
    omega

/-! ## Texts -/

theorem decode_flatMap (cs : List Char) :
    decode (cs.flatMap String.utf8EncodeChar) = cs.map some := by
  induction cs with
  | nil => rw [List.flatMap_nil, decode.eq_def, List.map_nil]
  | cons c cs ih => rw [List.flatMap_cons, decode_utf8EncodeChar, ih, List.map_cons]

/-- **A text is read back from its bytes.** -/
theorem toString?_encode (s : String) : toString? (encode s) = some s := by
  have hall : ∀ cs : List Char, (cs.map some).mapM id = some cs := by
    intro cs
    induction cs with
    | nil => rfl
    | cons c cs ih => simp [ih]
  unfold toString? decodeStrict
  rw [encode_eq_flatMap, decode_flatMap, hall, Option.map_some, String.ofList_toList]

/-! ## Bytes that decode -/

theorem toNat_val_ofNat {n : Nat} (h : n.isValidChar) : (Char.ofNat n).val.toNat = n := by
  unfold Char.ofNat
  rw [dif_pos h]
  rfl

theorem ofNat_eq {n : Nat} {b : UInt8} (h : n = b.toNat) : UInt8.ofNat n = b := by
  rw [h, UInt8.ofNat_toNat]

theorem continuation_bounds {b : UInt8} (h : isContinuation b = true) :
    128 ≤ b.toNat ∧ b.toNat < 192 := by
  unfold isContinuation at h
  simp [UInt8.le_iff_toNat_le] at h
  omega

/-- What may follow a first byte continues a character that is not overlong, no surrogate and not
too large. -/
theorem follow_bounds {a b : UInt8} (h : mayFollow a b = true) :
    (128 ≤ b.toNat ∧ b.toNat < 192) ∧ (a.toNat = 0xE0 → 160 ≤ b.toNat) ∧
      (a.toNat = 0xED → b.toNat < 160) ∧ (a.toNat = 0xF0 → 144 ≤ b.toNat) ∧
        (a.toNat = 0xF4 → b.toNat < 144) := by
  unfold mayFollow isContinuation at h
  simp only [beq_iff_eq, ← UInt8.toNat_inj, UInt8.le_iff_toNat_le, UInt8.reduceToNat] at h
  split_ifs at h <;> simp at h <;> omega

theorem utf8EncodeChar_one {a : UInt8} (h : a < 0x80) :
    String.utf8EncodeChar (Char.ofNat a.toNat) = [a] := by
  rw [UInt8.lt_iff_toNat_lt] at h
  have hsmall : a.toNat < 128 := h
  unfold String.utf8EncodeChar
  rw [toNat_val_ofNat (by unfold Nat.isValidChar; omega)]
  dsimp only
  rw [if_pos (by omega), UInt8.ofNat_toNat]

theorem utf8EncodeChar_two {a b : UInt8} (h : (0xC2 ≤ a && a ≤ 0xDF) = true)
    (hb : isContinuation b = true) :
    String.utf8EncodeChar (Char.ofNat (a.toNat % 32 * 64 + payload b)) = [a, b] := by
  simp [UInt8.le_iff_toNat_le] at h
  have hb := continuation_bounds hb
  unfold String.utf8EncodeChar payload
  rw [toNat_val_ofNat (by unfold Nat.isValidChar; omega)]
  dsimp only
  rw [if_neg (by omega), if_pos (by omega), ofNat_eq (show _ = a.toNat by omega),
    ofNat_eq (show _ = b.toNat by omega)]

theorem utf8EncodeChar_three {a b c : UInt8} (h : (0xE0 ≤ a && a ≤ 0xEF) = true)
    (hb : mayFollow a b = true) (hc : isContinuation c = true) :
    String.utf8EncodeChar
      (Char.ofNat (a.toNat % 16 * 4096 + payload b * 64 + payload c)) = [a, b, c] := by
  simp [UInt8.le_iff_toNat_le] at h
  obtain ⟨hb, hlong, hsurrogate, -, -⟩ := follow_bounds hb
  have hc := continuation_bounds hc
  unfold String.utf8EncodeChar payload
  rw [toNat_val_ofNat (by unfold Nat.isValidChar; omega)]
  dsimp only
  rw [if_neg (by omega), if_neg (by omega), if_pos (by omega), ofNat_eq (show _ = a.toNat by omega),
    ofNat_eq (show _ = b.toNat by omega), ofNat_eq (show _ = c.toNat by omega)]

theorem utf8EncodeChar_four {a b c d : UInt8} (h : (0xF0 ≤ a && a ≤ 0xF4) = true)
    (hb : mayFollow a b = true) (hc : isContinuation c = true) (hd : isContinuation d = true) :
    String.utf8EncodeChar (Char.ofNat (a.toNat % 8 * 262144 + payload b * 4096 + payload c * 64 +
      payload d)) = [a, b, c, d] := by
  simp [UInt8.le_iff_toNat_le] at h
  obtain ⟨hb, -, -, hlong, hlarge⟩ := follow_bounds hb
  have hc := continuation_bounds hc
  have hd := continuation_bounds hd
  unfold String.utf8EncodeChar payload
  rw [toNat_val_ofNat (by unfold Nat.isValidChar; omega)]
  dsimp only
  rw [if_neg (by omega), if_neg (by omega), if_neg (by omega), ofNat_eq (show _ = a.toNat by omega),
    ofNat_eq (show _ = b.toNat by omega), ofNat_eq (show _ = c.toNat by omega),
    ofNat_eq (show _ = d.toNat by omega)]

theorem exists_of_mapM_id_cons {c : Char} {rest : List (Option Char)} {cs : List Char}
    (h : (some c :: rest).mapM id = some cs) :
    ∃ more, rest.mapM id = some more ∧ cs = c :: more := by
  rw [List.mapM_cons] at h
  obtain ⟨_, hc, h⟩ := Option.bind_eq_some_iff.1 h
  obtain rfl := Option.some.inj hc
  obtain ⟨more, hmore, h⟩ := Option.bind_eq_some_iff.1 h
  exact ⟨more, hmore, (Option.some.inj h).symm⟩

/-- Bytes that decode are those of the characters that they decode to. -/
theorem flatMap_of_decode {bytes : List UInt8} {cs : List Char}
    (h : (decode bytes).mapM id = some cs) : cs.flatMap String.utf8EncodeChar = bytes := by
  fun_induction decode bytes generalizing cs
  case case1 =>
    obtain rfl := Option.some.inj h
    rfl
  case case2 a rest ha ih =>
    obtain ⟨more, hmore, rfl⟩ := exists_of_mapM_id_cons h
    rw [List.flatMap_cons, utf8EncodeChar_one ha, ih hmore, List.singleton_append]
  case case3 a _ ha b rest hb ih =>
    obtain ⟨more, hmore, rfl⟩ := exists_of_mapM_id_cons h
    rw [List.flatMap_cons, utf8EncodeChar_two ha hb, ih hmore]
    rfl
  case case6 a _ _ ha b hb c rest hc ih =>
    obtain ⟨more, hmore, rfl⟩ := exists_of_mapM_id_cons h
    rw [List.flatMap_cons, utf8EncodeChar_three ha hb hc, ih hmore]
    rfl
  case case11 a _ _ _ ha b hb c hc d rest hd ih =>
    obtain ⟨more, hmore, rfl⟩ := exists_of_mapM_id_cons h
    rw [List.flatMap_cons, utf8EncodeChar_four ha hb hc hd, ih hmore]
    rfl
  -- the other ways to go on do not decode the first byte
  all_goals exact absurd h (by simp)

/-- Exactly the bytes of a text are read as the text. -/
theorem toString?_eq_some_iff {bytes : List UInt8} {s : String} :
    toString? bytes = some s ↔ bytes = encode s := by
  constructor
  · intro h
    obtain ⟨cs, hcs, rfl⟩ := Option.map_eq_some_iff.1 h
    rw [encode_eq_flatMap, String.toList_ofList]
    exact (flatMap_of_decode hcs).symm
  · rintro rfl
    exact toString?_encode s

end JavaAtlas.Utf8
