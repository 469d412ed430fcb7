import Mathlib.Algebra.Group.Nat.Defs
import JavaAtlas.Number.Double

set_option autoImplicit false

/-! # Rounding without overflow

A count rounds to a finite double: the mantissa that rounding chooses has 53 bits, and for a natural
number of 64 bits the exponent stays far below the greatest one (`isFinite_ofNat`). -/

namespace JavaAtlas

namespace Magnitude

theorem le_roundQuotient (num den : Nat) : num / den ≤ roundQuotient num den := by
  unfold roundQuotient
  dsimp only
  split
  · exact Nat.le_refl _
  · split <;> omega

theorem roundQuotient_le (num den : Nat) : roundQuotient num den ≤ num / den + 1 := by
  unfold roundQuotient
  dsimp only
  split
  · omega
  · split <;> omega

theorem isSome_ofParts? {mantissa exponent : Nat} (hlow : 2 ^ 52 ≤ mantissa)
    (hhigh : mantissa < 2 ^ 53) (hexponent : exponent ≤ 2045) :
    (ofParts? mantissa exponent).isSome = true := by
  unfold ofParts?
  rw [dif_pos ⟨hhigh, .inr hlow, hexponent⟩]
  rfl

/-- Cutting a number to its first 53 bits leaves 53 bits. -/
theorem quotient_bounds {scaled : Nat} (h : 52 ≤ scaled.log2) :
    2 ^ 52 ≤ scaled / 2 ^ (scaled.log2 - 52) ∧ scaled / 2 ^ (scaled.log2 - 52) < 2 ^ 53 := by
  have hpos : scaled ≠ 0 := by
    rintro rfl
    exact absurd h (by decide)
  have hden : 0 < 2 ^ (scaled.log2 - 52) := Nat.two_pow_pos _
  constructor
  · rw [Nat.le_div_iff_mul_le hden, ← Nat.pow_add, Nat.add_sub_of_le h]
    exact Nat.log2_self_le hpos
  · rw [Nat.div_lt_iff_lt_mul hden, ← Nat.pow_add]
    have hsum : 53 + (scaled.log2 - 52) = scaled.log2 + 1 := by omega
    rw [hsum]
    exact Nat.lt_log2_self

/-- A number does not overflow if its exponent is in range. -/
theorem isSome_round {num : Nat} (hlow : 52 ≤ (num * Nat.pow 2 1074).log2)
    (hhigh : (num * Nat.pow 2 1074).log2 < 2096) : (round num 1).isSome = true := by
  generalize hscaled : num * Nat.pow 2 1074 = scaled at hlow hhigh
  obtain ⟨hleast, hgreatest⟩ := quotient_bounds hlow
  have hmin := le_roundQuotient scaled (2 ^ (scaled.log2 - 52))
  have hmax := roundQuotient_le scaled (2 ^ (scaled.log2 - 52))
  have hround : round num 1 =
      if roundQuotient scaled (2 ^ (scaled.log2 - 52)) = 2 ^ 53 then
        ofParts? (2 ^ 52) (scaled.log2 - 52 + 1)
      else ofParts? (roundQuotient scaled (2 ^ (scaled.log2 - 52))) (scaled.log2 - 52) := by
    unfold round
    rw [hscaled]
    simp only [Nat.pow_eq, Nat.div_one, Nat.one_mul]
  rw [hround]
  clear hround hscaled
  split
  · exact isSome_ofParts? (Nat.le_refl _) (by omega) (by omega)
  · exact isSome_ofParts? (by omega) (by omega) (by omega)

end Magnitude

namespace Double

theorem isFinite_ofRatio {negative : Bool} {num den : Nat} :
    (ofRatio negative num den).isFinite = (Magnitude.round num den).isSome := by
  unfold ofRatio
  generalize Magnitude.round num den = magnitude
  cases magnitude <;> rfl

theorem isFinite_ofNat {n : Nat} (h : n < Nat.pow 2 64) : (ofNat n).isFinite = true := by
  show (ofRatio false n 1).isFinite = true
  rw [isFinite_ofRatio]
  rcases Nat.eq_zero_or_pos n with rfl | hpos
  · decide +kernel
  · -- the units only move the leading bit, so the power of two is never expanded
    have hlog : ∀ units, (n * Nat.pow 2 units).log2 = n.log2 + units := by
      intro units
      induction units with
      | zero => exact congrArg Nat.log2 (Nat.mul_one n)
      | succ units ih =>
        have hmul : n * Nat.pow 2 units ≠ 0 :=
          Nat.mul_ne_zero (Nat.ne_of_gt hpos) (Nat.ne_of_gt (Nat.two_pow_pos units))
        have hdouble : n * Nat.pow 2 (units + 1) = 2 * (n * Nat.pow 2 units) := by
          show n * 2 ^ (units + 1) = 2 * (n * 2 ^ units)
          rw [Nat.pow_succ, ← Nat.mul_assoc, Nat.mul_comm]
        rw [hdouble, Nat.log2_two_mul hmul, ih, Nat.add_assoc]
    have hunits := hlog 1074
    have hn : n.log2 < 64 := (Nat.log2_lt (Nat.ne_of_gt hpos)).2 h
    exact Magnitude.isSome_round (by omega) (by omega)

end Double

end JavaAtlas
