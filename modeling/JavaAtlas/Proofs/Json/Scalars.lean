import Mathlib.Data.List.TakeDrop
import JavaAtlas.Json.Outline
import JavaAtlas.Json.Printer
import JavaAtlas.Proofs.Number.Digits

set_option autoImplicit false

/-! # Strings and integers in JSON text

What the printer writes for a string or an integer, the scanner takes up as a whole and reads back:
a string character by character (`scanString_escaped`), an integer because its digits have no
needless zero in front and are followed by no character of a numeral (`scanNumeral_intChars`). -/

namespace JavaAtlas.Json

/-! ## Strings -/

/-- Whether the scanner takes the spelling of a character for one piece, which stands for it. -/
def IsSpelling (spelling : List Char) (c : Char) : Prop :=
  ∃ piece, (∀ cs, scanString (spelling ++ cs) =
      (scanString cs).map fun found => (piece :: found.1, found.2)) ∧
    ∀ pieces, assemble (piece :: pieces) = (assemble pieces).map (c :: ·)

theorem isSpelling_plain {c : Char} (hquote : c ≠ '"') (hslash : c ≠ '\\')
    (hc : ¬c.toNat < 0x20) : IsSpelling [c] c := by
  refine ⟨.char c, fun cs => ?_, fun _ => rfl⟩
  rw [List.singleton_append, scanString]
  · simp [hc, hslash]
    cases scanString cs <;> rfl
  · exact hquote
  · exact fun _ _ _ _ _ h => absurd h hslash
  · exact fun _ _ h => absurd h hslash

theorem isSpelling_letter {e c : Char} (hletter : e ≠ 'u') (he : escapedChar? e = some c) :
    IsSpelling ['\\', e] c := by
  refine ⟨.char c, fun cs => ?_, fun _ => rfl⟩
  show scanString ('\\' :: e :: cs) = _
  rw [scanString]
  · rw [he]
    cases scanString cs <;> rfl
  · exact fun _ _ _ _ _ h => absurd h hletter

theorem hexUnit?_hexPair {n : Nat} (h : n < 0x20) :
    hexUnit? '0' '0' (Nat.digitChar (n / 16)) (Nat.digitChar (n % 16)) = some n := by
  revert n
  decide

theorem isSpelling_unit {c : Char} (hc : c.toNat < 0x20) :
    IsSpelling ('\\' :: 'u' :: '0' :: '0' :: hexPair c.toNat) c := by
  refine ⟨.unit c.toNat, fun cs => ?_, fun pieces => ?_⟩
  · show scanString ('\\' :: 'u' :: '0' :: '0' :: _ :: _ :: cs) = _
    rw [scanString, hexUnit?_hexPair hc]
    cases scanString cs <;> rfl
  · have hhigh : isHighSurrogate c.toNat = false := by
      simp [isHighSurrogate]
      omega
    have hlow : isLowSurrogate c.toNat = false := by
      simp [isLowSurrogate]
      omega
    rw [assemble.eq_def]
    simp [hhigh, hlow]

theorem isSpelling_escapeChar (c : Char) : IsSpelling (escapeChar c) c := by
  unfold escapeChar
  split
  · exact isSpelling_letter (by decide) rfl
  · exact isSpelling_letter (by decide) rfl
  · exact isSpelling_letter (by decide) rfl
  · exact isSpelling_letter (by decide) rfl
  · exact isSpelling_letter (by decide) rfl
  · exact isSpelling_letter (by decide) rfl
  · exact isSpelling_letter (by decide) rfl
  · next hquote hslash _ _ _ _ _ =>
    split
    · next hc => exact isSpelling_unit hc
    · next hc => exact isSpelling_plain hquote hslash hc

/-- The scanner finds the whole string, and nothing but the string. -/
theorem scanString_escaped (s rest : List Char) :
    ∃ pieces, scanString (s.flatMap escapeChar ++ '"' :: rest) = some (pieces, rest) ∧
      assemble pieces = some s := by
  induction s with
  | nil => exact ⟨[], rfl, rfl⟩
  | cons c s ih =>
    obtain ⟨pieces, hscan, hassemble⟩ := ih
    obtain ⟨piece, hpiece, hstands⟩ := isSpelling_escapeChar c
    refine ⟨piece :: pieces, ?_, ?_⟩
    · rw [List.flatMap_cons, List.append_assoc, hpiece, hscan]
      rfl
    · rw [hstands, hassemble]
      rfl

/-! ## Integers -/

/-- What may follow a value inside a container, or at the end of the text. -/
inductive Stops : List Char → Prop where
  | nil : Stops []
  | comma (rest : List Char) : Stops (',' :: rest)
  | bracket (rest : List Char) : Stops (']' :: rest)
  | brace (rest : List Char) : Stops ('\x7d' :: rest)

theorem Stops.takeWhile_isDigit {rest : List Char} (h : Stops rest) :
    rest.takeWhile Char.isDigit = [] ∧ rest.dropWhile Char.isDigit = rest := by
  cases h <;> exact ⟨rfl, rfl⟩

theorem scanDigits_append {digits rest : List Char} (hdigits : ∀ c ∈ digits, c.isDigit = true)
    (hne : digits ≠ []) (h : Stops rest) : scanDigits (digits ++ rest) = some (digits, rest) := by
  obtain ⟨htake, hdrop⟩ := h.takeWhile_isDigit
  unfold scanDigits
  rw [List.span_eq_takeWhile_dropWhile, List.takeWhile_append_of_pos hdigits,
    List.dropWhile_append_of_pos hdigits, htake, hdrop, List.append_nil]
  cases digits with
  | nil => exact absurd rfl hne
  | cons => rfl

theorem scanWhole_digits (n : Nat) {rest : List Char} (h : Stops rest) :
    scanWhole (Decimal.digits n ++ rest) = some (Decimal.digits n, rest) := by
  have hzero : ¬((Decimal.digits n).head? = some '0' ∧ (Decimal.digits n).length > 1) := by
    rintro ⟨hhead, hlength⟩
    rcases Nat.eq_zero_or_pos n with rfl | hpos
    · exact absurd hlength (by decide)
    · exact Decimal.head?_digits_ne_zero hpos hhead
  unfold scanWhole
  rw [scanDigits_append (fun _ => Decimal.isDigit_of_mem_digits) (Decimal.digits_ne_nil n) h]
  show (if _ then none else _) = _
  rw [if_neg hzero]

/-- Integers are told apart by their texts: the sign by the first character, since no digit is a
minus, and the magnitude by the digits. -/
theorem intChars_inj {m n : Int} (h : intChars m = intChars n) : m = n := by
  have hminus : ∀ k cs, Decimal.digits k ≠ '-' :: cs := by
    intro k cs
    simpa using Decimal.digits_append_ne_minus k [] cs
  unfold intChars at h
  by_cases hm : m < 0 <;> by_cases hn : n < 0 <;> simp only [hm, hn, if_true, if_false,
    List.cons_append, List.nil_append, List.cons.injEq, true_and] at h
  · have habs := Decimal.digits_inj h
    omega
  · exact absurd h.symm (hminus _ _)
  · exact absurd h (hminus _ _)
  · have habs := Decimal.digits_inj h
    omega

theorem mem_intChars {n : Int} {c : Char} (h : c ∈ intChars n) : c = '-' ∨ c.isDigit = true := by
  unfold intChars at h
  rcases List.mem_append.1 h with h | h
  · split at h
    · exact .inl (List.mem_singleton.1 h)
    · exact absurd h List.not_mem_nil
  · exact .inr (Decimal.isDigit_of_mem_digits h)

theorem exists_intChars (n : Int) :
    ∃ c cs, intChars n = c :: cs ∧ (c = '-' ∨ c.isDigit = true) := by
  obtain ⟨d, digits, hdigits, hd⟩ := Decimal.exists_digits n.natAbs
  unfold intChars
  rw [hdigits]
  by_cases hneg : n < 0
  · exact ⟨'-', d :: digits, by simp [hneg], .inl rfl⟩
  · exact ⟨d, digits, by simp [hneg], .inr hd⟩

theorem scanNumeral_intChars (n : Int) {rest : List Char} (h : Stops rest) :
    scanNumeral (intChars n ++ rest) =
      some (⟨decide (n < 0), Decimal.digits n.natAbs, none, none⟩, rest) := by
  have hwhole := scanWhole_digits n.natAbs h
  have hminus := Decimal.digits_append_ne_minus n.natAbs rest
  unfold scanNumeral intChars
  by_cases hneg : n < 0
  · simp only [hneg, if_true, decide_true, List.cons_append, List.nil_append, hwhole]
    cases h <;> rfl
  · -- by `hminus` there is no sign to take off
    simp only [hneg, if_false, decide_false, List.nil_append, hwhole]
    cases h <;> rfl

theorem le_ofDigitChars (digits : List Char) (n : Nat) : n ≤ Nat.ofDigitChars 10 digits n := by
  induction digits generalizing n with
  | nil => exact Nat.le_refl n
  | cons c rest ih =>
    rw [Nat.ofDigitChars_cons]
    have hrest := ih (10 * n + (c.toNat - '0'.toNat))
    omega

theorem absorb_eq {digits : List Char} {n : Nat}
    (h : Nat.ofDigitChars 10 digits n < UInt64.size) :
    Numeral.absorb n digits = (Nat.ofDigitChars 10 digits n, []) := by
  induction digits generalizing n with
  | nil => rfl
  | cons c rest ih =>
    rw [Nat.ofDigitChars_cons] at h ⊢
    have hnext : n * 10 + Numeral.digitValue c = 10 * n + (c.toNat - '0'.toNat) := by
      rw [Nat.mul_comm]
      rfl
    have hlt : 10 * n + (c.toNat - '0'.toNat) < UInt64.size :=
      Nat.lt_of_le_of_lt (le_ofDigitChars rest _) h
    unfold Numeral.absorb
    simp only [hnext, hlt, if_true]
    exact ih h

/-- An integer of 64 bits, with or without sign, is read back from its numeral. -/
theorem read?_intChars_of_lt {n : Int} (hlow : Int64.minValue.toInt ≤ n)
    (hhigh : n < UInt64.size) :
    (⟨decide (n < 0), Decimal.digits n.natAbs, none, none⟩ : Numeral).read? = some (.int n) := by
  have hmin : Int64.minValue.toInt = -9223372036854775808 := by decide
  have hmax : Int64.maxValue.toInt = 9223372036854775807 := by decide
  have hsize : UInt64.size = 18446744073709551616 := rfl
  have hvalue := Decimal.ofDigitChars_digits n.natAbs
  have habsorb : Numeral.absorb 0 (Decimal.digits n.natAbs) = (n.natAbs, []) := by
    rw [absorb_eq (by omega), hvalue]
  -- all digits have been absorbed, and the sign decides which bound counts
  generalize hm : n.natAbs = m at habsorb ⊢
  unfold Numeral.read?
  by_cases hneg : n < 0
  · have hrange : ¬m = 0 ∧ (m : Int) ≤ Int64.maxValue.toInt + 1 := by omega
    have habs : -(m : Int) = n := by omega
    simp [habsorb, hneg, hrange, habs]
  · have habs : (m : Int) = n := by omega
    simp [habsorb, hneg, habs]

/-- An integer of 64 bits is read back from its numeral. -/
theorem read?_intChars {n : Int} (hlow : Int64.minValue.toInt ≤ n)
    (hhigh : n ≤ Int64.maxValue.toInt) :
    (⟨decide (n < 0), Decimal.digits n.natAbs, none, none⟩ : Numeral).read? = some (.int n) := by
  have hmax : Int64.maxValue.toInt = 9223372036854775807 := by decide
  have hsize : UInt64.size = 18446744073709551616 := rfl
  exact read?_intChars_of_lt hlow (by omega)

end JavaAtlas.Json
