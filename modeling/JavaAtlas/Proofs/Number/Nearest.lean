import JavaAtlas.Proofs.Number.Rounding
import JavaAtlas.Proofs.Number.Shortest

set_option autoImplicit false

/-! # Rounding finds the magnitude that covers a number

`IsNearest` says what the mantissa and the exponent that rounding chooses have to do with the
fraction. The fraction lies in the rounding interval of these parts (`IsNearest.contains`), and they
do not overflow if it lies in the interval of any magnitude (`IsNearest.exponent_le`). So a fraction
rounds to a magnitude exactly if the magnitude covers it (`round_eq_some_iff`), and what is a
magnitude already stays as it is (`round_of_units`). -/

namespace JavaAtlas.Magnitude

/-! ## Intervals over a denominator -/

/-- The ends of an interval belong to it if it is closed. -/
theorem RoundingInterval.contains_iff_bounds {i : RoundingInterval} {num den : Nat} :
    i.contains num den = true ↔ i.low * den ≤ num ∧ num ≤ i.high * den ∧
      (num = i.low * den ∨ num = i.high * den → i.closed = true) := by
  unfold contains
  split
  · next hclosed => simp [hclosed]
  · next hopen =>
    rw [Bool.and_eq_true, decide_eq_true_eq, decide_eq_true_eq, Nat.lt_iff_le_and_ne,
      Nat.lt_iff_le_and_ne]
    tauto

theorem covers_iff_contains {x : Magnitude} {num den : Nat} (hden : 0 < den) :
    x.Covers (num / den) ↔
      x.roundingInterval.contains (4 * (num * Nat.pow 2 1074)) den = true := by
  have hunit : Nat.pow 2 1076 = 4 * Nat.pow 2 1074 := by decide +kernel
  rw [RoundingInterval.contains_iff hden]
  unfold Covers
  rw [hunit]
  generalize Nat.pow 2 1074 = unit
  have hscaled : (num / den : ℚ) * (4 * unit : Nat) = (4 * (num * unit) : Nat) / den := by
    push_cast
    ring
  rw [hscaled]

/-! ## The parts that rounding chooses -/

/-- The quotient is off by half at most, and by half only from an even number. -/
theorem roundQuotient_bounds (num : Nat) {den : Nat} (hden : 0 < den) :
    2 * num ≤ 2 * (roundQuotient num den * den) + den ∧
      2 * (roundQuotient num den * den) ≤ 2 * num + den ∧
      (2 * num = 2 * (roundQuotient num den * den) + den ∨
        2 * (roundQuotient num den * den) = 2 * num + den → roundQuotient num den % 2 = 0) := by
  have hnum := Nat.div_add_mod' num den
  have hrest := Nat.mod_lt num hden
  have hnext : (num / den + 1) * den = num / den * den + den := Nat.succ_mul _ den
  unfold roundQuotient
  dsimp only
  split
  · omega
  · split
    · omega
    · -- a tie goes to the even one of the two neighbours
      rcases Nat.mod_two_eq_zero_or_one (num / den) with heven | hodd
      · rw [heven, Nat.add_zero]
        omega
      · rw [hodd]
        omega

/-- Whether a mantissa and an exponent, of any size, are those of the number nearest to `scaled`,
when the numbers with this exponent are `step` apart. Below a power of two they are half as far
apart. -/
structure IsNearest (mantissa exponent scaled step : Nat) : Prop where
  mantissa_lt : mantissa < 2 ^ 53
  normal : exponent = 0 ∨ 2 ^ 52 ≤ mantissa
  below : 2 * scaled ≤ 2 * (mantissa * step) + step
  above : 2 * (mantissa * step) ≤ 2 * scaled + step
  power : mantissa = 2 ^ 52 → exponent ≠ 0 → 4 * (mantissa * step) ≤ 4 * scaled + step
  tie : 2 * scaled = 2 * (mantissa * step) + step ∨ 2 * (mantissa * step) = 2 * scaled + step →
    mantissa % 2 = 0

/-- The exponent is chosen so that the mantissa has 53 bits, or fewer if it is the least one. -/
theorem scaled_bounds (scaled : Nat) {den : Nat} (hden : 0 < den) :
    scaled < 2 ^ 53 * (den * 2 ^ ((scaled / den).log2 - 52)) ∧
      ((scaled / den).log2 - 52 = 0 ∨
        2 ^ 52 * (den * 2 ^ ((scaled / den).log2 - 52)) ≤ scaled) := by
  have hcomm : ∀ bits, 2 ^ bits * (den * 2 ^ ((scaled / den).log2 - 52)) =
      2 ^ (bits + ((scaled / den).log2 - 52)) * den := by
    intro bits
    rw [Nat.pow_add]
    ring
  rw [hcomm, hcomm, ← Nat.div_lt_iff_lt_mul hden, ← Nat.le_div_iff_mul_le hden]
  constructor
  · refine Nat.lt_of_lt_of_le Nat.lt_log2_self (Nat.pow_le_pow_right Nat.two_pos ?_)
    omega
  · rcases Nat.lt_or_ge 52 (scaled / den).log2 with hlog | hlog
    · have hne : scaled / den ≠ 0 := by
        intro hzero
        rw [hzero] at hlog
        exact absurd hlog (by decide)
      right
      rw [Nat.add_sub_of_le hlog.le]
      exact Nat.log2_self_le hne
    · left
      omega

/-- Rounding chooses the parts of the nearest number. -/
theorem exists_isNearest (num : Nat) {den : Nat} (hden : 0 < den) :
    ∃ mantissa exponent,
      IsNearest mantissa exponent (num * Nat.pow 2 1074) (den * 2 ^ exponent) ∧
        round num den = ofParts? mantissa exponent := by
  unfold round
  generalize num * Nat.pow 2 1074 = scaled
  obtain ⟨hmost, hleast⟩ := scaled_bounds scaled hden
  simp only [Nat.pow_eq]
  generalize (scaled / den).log2 - 52 = exponent at hmost hleast ⊢
  have hstep : 0 < den * 2 ^ exponent := Nat.mul_pos hden (Nat.two_pow_pos exponent)
  have hnext : den * 2 ^ (exponent + 1) = 2 * (den * 2 ^ exponent) := by ring
  obtain ⟨hbelow, habove, htie⟩ := roundQuotient_bounds scaled hstep
  generalize roundQuotient scaled (den * 2 ^ exponent) = mantissa at hbelow habove htie ⊢
  split
  · next hcarry =>
    -- the mantissa has one bit too many, and its half is a power of two
    refine ⟨2 ^ 52, exponent + 1, ?_, rfl⟩
    rw [hnext]
    subst hcarry
    generalize den * 2 ^ exponent = step at hmost hbelow habove
    refine ⟨by decide, .inr (Nat.le_refl _), ?_, ?_, ?_, fun _ => rfl⟩ <;> omega
  · next hfits =>
    refine ⟨mantissa, exponent, ?_, rfl⟩
    generalize den * 2 ^ exponent = step at hmost hleast hstep hbelow habove htie ⊢
    have hlt : mantissa < 2 ^ 53 := by
      refine Nat.lt_of_le_of_ne (Nat.le_of_lt_succ ?_) hfits
      refine Nat.lt_of_mul_lt_mul_right (a := step) ?_
      rw [Nat.succ_mul]
      omega
    have hnormal : exponent = 0 ∨ 2 ^ 52 ≤ mantissa := by
      refine hleast.imp_right fun hleast => ?_
      refine Nat.le_of_lt_succ (Nat.lt_of_mul_lt_mul_right (a := step) ?_)
      rw [Nat.succ_mul]
      omega
    refine ⟨hlt, hnormal, hbelow, habove, ?_, htie⟩
    rintro rfl hexponent
    have hexact := hleast.resolve_left hexponent
    omega

section

variable {mantissa exponent scaled den : Nat}

theorem exists_of_ofParts? {x : Magnitude} (h : ofParts? mantissa exponent = some x) :
    x.mantissa = mantissa ∧ x.exponent = exponent := by
  unfold ofParts? at h
  split at h
  · obtain rfl := Option.some.inj h
    exact ⟨rfl, rfl⟩
  · cases h

/-- The nearest number covers the fraction. -/
theorem IsNearest.contains {x : Magnitude}
    (h : IsNearest x.mantissa x.exponent scaled (den * 2 ^ x.exponent)) :
    x.roundingInterval.contains (4 * scaled) den = true := by
  obtain ⟨-, -, hbelow, habove, hpower, htie⟩ := h
  rw [RoundingInterval.contains_iff_bounds]
  show (4 * (x.mantissa * 2 ^ x.exponent) - x.below) * den ≤ 4 * scaled ∧
    4 * scaled ≤ (4 * (x.mantissa * 2 ^ x.exponent) + 2 * 2 ^ x.exponent) * den ∧
    (4 * scaled = (4 * (x.mantissa * 2 ^ x.exponent) - x.below) * den ∨
      4 * scaled = (4 * (x.mantissa * 2 ^ x.exponent) + 2 * 2 ^ x.exponent) * den →
        (x.mantissa % 2 == 0) = true)
  have hbelowDen : x.below * den = if x.mantissa = 2 ^ 52 ∧ x.exponent ≠ 0
      then den * 2 ^ x.exponent else 2 * (den * 2 ^ x.exponent) := by
    unfold Magnitude.below
    simp only [Nat.pow_eq]
    split <;> ring
  rw [Nat.sub_mul, Nat.add_mul, Nat.mul_assoc, Nat.mul_assoc, Nat.mul_assoc, Nat.mul_comm _ den,
    hbelowDen, beq_iff_eq]
  clear hbelowDen
  generalize den * 2 ^ x.exponent = step at hbelow habove hpower htie ⊢
  -- the interval of zero begins at zero, and zero is even
  have hzero : x.mantissa = 0 ∨ step ≤ x.mantissa * step :=
    (Nat.eq_zero_or_pos x.mantissa).imp_right (Nat.le_mul_of_pos_left step)
  split
  · next hcase =>
    have hlow := hpower hcase.1 hcase.2
    have heven : x.mantissa % 2 = 0 := hcase.1 ▸ rfl
    omega
  · omega

/-- What a magnitude covers is less than the middle of the greatest mantissa and the next power of
two, because that mantissa is odd. -/
theorem lt_of_contains {x : Magnitude} (hden : 0 < den)
    (h : x.roundingInterval.contains (4 * scaled) den = true) :
    4 * scaled < 36028797018963966 * (Nat.pow 2 x.exponent * den) := by
  obtain ⟨-, hmost, hend⟩ := RoundingInterval.contains_iff_bounds.1 h
  obtain ⟨hhigh, hodd⟩ := high_add_le x
  have hclosed : x.roundingInterval.closed = (x.mantissa % 2 == 0) := rfl
  rw [hclosed] at hend
  generalize x.roundingInterval.high = high at hmost hend hhigh hodd
  generalize Nat.pow 2 x.exponent = unit at hhigh hodd ⊢
  have hhighDen := Nat.mul_le_mul_right den hhigh
  rw [Nat.add_mul, Nat.mul_assoc, Nat.mul_assoc] at hhighDen
  refine Nat.lt_of_le_of_ne (by omega) fun heq => ?_
  have hmeet : 4 * scaled = high * den := hmost.antisymm (by linarith only [heq, hhighDen])
  have htop : high + 2 * unit = 36028797018963968 * unit := by
    refine Nat.eq_of_mul_eq_mul_right hden ?_
    rw [Nat.add_mul, Nat.mul_assoc, Nat.mul_assoc]
    linarith only [heq, hmeet]
  have heven := hend (.inr hmeet)
  rw [hodd htop] at heven
  cases heven

/-- No number with a greater exponent is nearest to a fraction that `x` covers. -/
theorem IsNearest.exponent_le {x : Magnitude} (hden : 0 < den)
    (h : IsNearest mantissa exponent scaled (den * 2 ^ exponent))
    (hx : x.roundingInterval.contains (4 * scaled) den = true) : exponent ≤ x.exponent := by
  by_contra! hlt
  obtain ⟨-, hnormal, -, habove, hpower, -⟩ := h
  have hmantissa := hnormal.resolve_left (by omega)
  have hscaled := lt_of_contains hden hx
  have hstep : 2 * (Nat.pow 2 x.exponent * den) ≤ den * 2 ^ exponent := by
    have hpow : 2 ^ (x.exponent + 1) ≤ 2 ^ exponent := Nat.pow_le_pow_right Nat.two_pos hlt
    calc 2 * (Nat.pow 2 x.exponent * den) = den * 2 ^ (x.exponent + 1) := by
          rw [Nat.pow_eq]
          ring
      _ ≤ den * 2 ^ exponent := Nat.mul_le_mul_left den hpow
  generalize den * 2 ^ exponent = step at hstep habove hpower
  generalize Nat.pow 2 x.exponent * den = unit at hstep hscaled
  rcases Nat.lt_or_eq_of_le hmantissa with hgreater | rfl
  · have hleast := Nat.mul_le_mul_right step (Nat.add_one_le_iff.2 hgreater)
    omega
  · have hleast := hpower rfl (by omega)
    omega

end

/-! ## Rounding -/

theorem covers_of_round {num den : Nat} (hden : 0 < den) {x : Magnitude}
    (h : round num den = some x) : x.Covers (num / den) := by
  obtain ⟨mantissa, exponent, hnearest, hround⟩ := exists_isNearest num hden
  rw [h] at hround
  obtain ⟨rfl, rfl⟩ := exists_of_ofParts? hround.symm
  exact (covers_iff_contains hden).2 hnearest.contains

/-- **A fraction rounds to the magnitude that covers it.** -/
theorem round_eq_some_iff {num den : Nat} (hden : 0 < den) {x : Magnitude} :
    round num den = some x ↔ x.Covers (num / den) := by
  refine ⟨covers_of_round hden, fun hx => ?_⟩
  obtain ⟨mantissa, exponent, hnearest, hround⟩ := exists_isNearest num hden
  have hexponent := hnearest.exponent_le hden ((covers_iff_contains hden).1 hx)
  have hparts : mantissa < Nat.pow 2 53 ∧ (exponent = 0 ∨ Nat.pow 2 52 ≤ mantissa) ∧
      exponent ≤ 2045 :=
    ⟨hnearest.mantissa_lt, hnearest.normal, Nat.le_trans hexponent x.exponent_le⟩
  unfold ofParts? at hround
  rw [dif_pos hparts] at hround
  rw [hround, covers_unique hx (covers_of_round hden hround)]

/-- A fraction that is a magnitude already stays as it is. -/
theorem round_of_units {x : Magnitude} {num den : Nat} (hden : 0 < den)
    (h : num * Nat.pow 2 1074 = x.units * den) : round num den = some x := by
  rw [round_eq_some_iff hden, covers_iff_contains hden, h, RoundingInterval.contains_iff_bounds]
  have hbelow := Nat.mul_pos (below_pos x) hden
  have hunit : 0 < Nat.pow 2 x.exponent * den := Nat.mul_pos (Nat.two_pow_pos x.exponent) hden
  show (4 * x.units - x.below) * den ≤ _ ∧ _ ≤ (4 * x.units + 2 * Nat.pow 2 x.exponent) * den ∧
    (_ = (4 * x.units - x.below) * den ∨ _ = (4 * x.units + 2 * Nat.pow 2 x.exponent) * den →
      (x.mantissa % 2 == 0) = true)
  rw [Nat.sub_mul, Nat.add_mul, Nat.mul_assoc, Nat.mul_assoc, beq_iff_eq]
  generalize Nat.pow 2 x.exponent * den = unit at hunit ⊢
  refine ⟨Nat.sub_le _ _, Nat.le_add_right _ _, fun hend => ?_⟩
  -- only zero is at an end of its interval
  have hzero : x.units * den = 0 := by omega
  have hmantissa : x.mantissa = 0 := by
    have hunits := (Nat.mul_eq_zero.1 hzero).resolve_right hden.ne'
    exact (Nat.mul_eq_zero.1 hunits).resolve_right (Nat.two_pow_pos x.exponent).ne'
  rw [hmantissa]

/-- The mantissa is filled up to 53 bits at the expense of the exponent. -/
theorem exists_units_eq {n bits : Nat} (hn : n < 2 ^ 53) (hlow : 52 ≤ bits) (hhigh : bits ≤ 2045) :
    ∃ x : Magnitude, x.units = n * 2 ^ bits := by
  rcases Nat.eq_zero_or_pos n with rfl | hpos
  · exact ⟨.zero, by rw [Nat.zero_mul]; rfl⟩
  have hlog : n.log2 < 53 := (Nat.log2_lt hpos.ne').2 hn
  have hfill : n.log2 + (52 - n.log2) = 52 := by omega
  have hmantissa : n * 2 ^ (52 - n.log2) < 2 ^ 53 := by
    calc n * 2 ^ (52 - n.log2) < 2 ^ (n.log2 + 1) * 2 ^ (52 - n.log2) :=
          Nat.mul_lt_mul_of_pos_right Nat.lt_log2_self (Nat.two_pow_pos _)
      _ = 2 ^ 53 := by rw [← Nat.pow_add, Nat.add_right_comm, hfill]
  have hnormal : 2 ^ 52 ≤ n * 2 ^ (52 - n.log2) := by
    calc 2 ^ 52 = 2 ^ n.log2 * 2 ^ (52 - n.log2) := by rw [← Nat.pow_add, hfill]
      _ ≤ n * 2 ^ (52 - n.log2) := Nat.mul_le_mul_right _ (Nat.log2_self_le hpos.ne')
  refine ⟨⟨n * 2 ^ (52 - n.log2), bits - (52 - n.log2), hmantissa, .inr hnormal, by omega⟩, ?_⟩
  show n * 2 ^ (52 - n.log2) * 2 ^ (bits - (52 - n.log2)) = _
  rw [Nat.mul_assoc, ← Nat.pow_add, Nat.add_sub_of_le (by omega)]

/-- A number of at most 53 bits and a power of two make a magnitude. -/
theorem exists_units {n k : Nat} (hn : n < 2 ^ 53) (hk : k ≤ 900) :
    ∃ x : Magnitude, x.units = n * 2 ^ k * Nat.pow 2 1074 := by
  obtain ⟨x, hx⟩ : ∃ x : Magnitude, x.units = n * 2 ^ (k + 1074) :=
    exists_units_eq hn (by omega) (by omega)
  refine ⟨x, hx.trans ?_⟩
  generalize 1074 = bits
  rw [Nat.pow_eq, Nat.pow_add, Nat.mul_assoc]

end JavaAtlas.Magnitude
