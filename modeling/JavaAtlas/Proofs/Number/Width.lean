import JavaAtlas.Proofs.Number.Shortest

set_option autoImplicit false

/-! # The width of shortest decimals

The search for the shortest decimal starts from the leading power of ten, which is not too small
(`lt_zpow_decimalExponent_mul`), and ends by the seventeenth digit. On each grid it takes a place
next to the exact value, so the coefficient has seventeen digits at most, or is the power of ten
after them (`shortest_coefficient_le`). -/

namespace JavaAtlas

theorem Decimal.coefficient_trimZeros_le (fuel : Nat) (d : Decimal) :
    (d.trimZeros fuel).coefficient ≤ d.coefficient := by
  induction fuel generalizing d with
  | zero => exact Nat.le_refl _
  | succ fuel ih =>
    rw [trimZeros]
    split
    · exact Nat.le_trans (ih _) (Nat.div_le_self _ _)
    · exact Nat.le_refl _

namespace Magnitude

/-! ## The leading power of ten -/

theorem lt_zpow_mul_of_not_reaches {num den : Nat} {guess : Int}
    (h : ¬if guess ≥ 0 then den * Nat.pow 10 guess.toNat ≤ num
      else den ≤ num * Nat.pow 10 (-guess).toNat) : (num : ℚ) < 10 ^ guess * den := by
  split at h
  · next hpos =>
    obtain ⟨k, rfl⟩ := Int.eq_ofNat_of_zero_le hpos
    rw [Int.toNat_natCast, Nat.not_le] at h
    rw [zpow_natCast, mul_comm]
    exact_mod_cast h
  · next hneg =>
    obtain ⟨k, rfl⟩ : ∃ k : Nat, guess = -k := ⟨(-guess).toNat, by omega⟩
    rw [neg_neg, Int.toNat_natCast, Nat.not_le] at h
    rw [zpow_neg, zpow_natCast, lt_inv_mul_iff₀ (by positivity), mul_comm]
    exact_mod_cast h

/-- The estimate from the numbers of digits is not too small. -/
theorem lt_zpow_decimalExponent_mul (num : Nat) {den : Nat} (hden : 0 < den) :
    (num : ℚ) < 10 ^ (decimalExponent num den + 1) * den := by
  unfold decimalExponent
  dsimp only
  generalize hguess : ((Decimal.digits num).length : Int) - (Decimal.digits den).length = guess
  by_cases hreaches : if guess ≥ 0 then den * Nat.pow 10 guess.toNat ≤ num
      else den ≤ num * Nat.pow 10 (-guess).toNat
  · rw [if_pos hreaches]
    have hexponent : guess + 1 + ((Decimal.digits den).length - 1 : Nat) =
        ((Decimal.digits num).length : Int) := by
      have := Decimal.length_digits_pos den
      omega
    calc (num : ℚ) < 10 ^ (Decimal.digits num).length := by
          exact_mod_cast Decimal.lt_pow_length_digits num
      _ = 10 ^ (guess + 1) * 10 ^ ((Decimal.digits den).length - 1) := by
          rw [← zpow_natCast, ← zpow_natCast, ← zpow_add₀ (by norm_num), hexponent]
      _ ≤ 10 ^ (guess + 1) * den := by
          gcongr
          exact_mod_cast Decimal.pow_length_digits_le hden
  · rw [if_neg hreaches, sub_add_cancel]
    exact lt_zpow_mul_of_not_reaches hreaches

/-! ## Candidates -/

/-- What is found on a grid is next to the value. -/
theorem coefficient_nearestOfLength_le {x : Magnitude} {top : Int} {count : Nat} {d : Decimal}
    (h : nearestOfLength x top count = some d) :
    d.coefficient ≤ 4 * x.units * gridDen (top - count + 1) / gridStep (top - count + 1) + 1 := by
  unfold nearestOfLength at h
  unfold gridDen gridStep
  dsimp only at h
  generalize 4 * x.units * Nat.pow 10 (-(top - count + 1)).toNat /
    (Nat.pow 2 1076 * Nat.pow 10 (top - count + 1).toNat) = lower at h ⊢
  -- whichever neighbour comes first, both are tried
  split at h
  all_goals
    split at h
    · obtain rfl := Option.some.inj h
      dsimp only
      omega
    · split at h
      · obtain rfl := Option.some.inj h
        dsimp only
        omega
      · cases h

/-- The places of a grid that are not beyond the value have as many digits as the grid. -/
theorem value_div_gridStep_lt {units : Nat} {top : Int} (count : Nat)
    (h : (units : ℚ) < 10 ^ (top + 1) * (Nat.pow 2 1074 : Nat)) :
    4 * units * gridDen (top - count + 1) / gridStep (top - count + 1) < 10 ^ count := by
  rw [Nat.div_lt_iff_lt_mul (gridStep_pos _)]
  have hexact := gridStep_eq (top - count + 1)
  rw [show Nat.pow 2 1076 = 4 * Nat.pow 2 1074 by decide +kernel] at hexact
  have htop : top + 1 = (count : Int) + (top - count + 1) := by omega
  rw [htop, zpow_add₀ (by norm_num), zpow_natCast] at h
  have hden : (0 : ℚ) < gridDen (top - count + 1) := Nat.cast_pos.2 (gridDen_pos _)
  generalize Nat.pow 2 1074 = unit at h hexact
  generalize top - (count : Int) + 1 = exponent at h hexact hden ⊢
  have hcast : 4 * (units : ℚ) * gridDen exponent < 10 ^ count * gridStep exponent := by
    calc 4 * (units : ℚ) * gridDen exponent
        < 4 * (10 ^ count * 10 ^ exponent * unit) * gridDen exponent := by gcongr
      _ = 10 ^ count * gridStep exponent := by
          rw [hexact, Nat.cast_mul]
          push_cast
          ring
  exact_mod_cast hcast

/-- **The shortest decimal has seventeen digits at most**, unless it is the power of ten after
them. -/
theorem shortest_coefficient_le (x : Magnitude) : x.shortest.coefficient ≤ 10 ^ 17 := by
  unfold shortest
  split
  · exact Nat.zero_le _
  · have hunit : 0 < Nat.pow 2 1074 := by decide +kernel
    have htop := lt_zpow_decimalExponent_mul x.units hunit
    dsimp only
    split
    · next d hfound =>
      obtain ⟨count, hmem, hcount⟩ := List.exists_of_findSome?_eq_some hfound
      have hcount17 : count ≤ 17 := by
        rw [List.mem_range'_1] at hmem
        omega
      calc (d.trimZeros 20).coefficient ≤ d.coefficient := Decimal.coefficient_trimZeros_le 20 d
        _ ≤ 10 ^ count := Nat.le_trans (coefficient_nearestOfLength_le hcount)
            (value_div_gridStep_lt count htop)
        _ ≤ 10 ^ 17 := Nat.pow_le_pow_right (by decide) hcount17
    · exact Nat.zero_le _

end Magnitude

end JavaAtlas
