import Mathlib.Algebra.Order.Field.Power
import Mathlib.Algebra.Order.Field.Rat
import Mathlib.Tactic.FieldSimp
import Mathlib.Tactic.Linarith
import Mathlib.Tactic.Ring
import JavaAtlas.Proofs.Number.Digits

set_option autoImplicit false

/-! # The shortest decimal rounds back

The reals that round to a magnitude form an interval around it, and the intervals of two magnitudes
have no point in common: where one ends and the next begins, only the one with the even mantissa
holds the end (`covers_unique`). The search ends by the seventeenth digit, because a grid of
seventeen digits is finer than every interval (`isSome_nearestOfLength`), and what it finds lies in
the interval of the magnitude (`covers_shortest`). So the shortest decimal tells the magnitudes
apart (`shortest_value_inj`). -/

namespace JavaAtlas

/-! ## Decimals -/

theorem zpow_mul_pow_toNat_neg (e : Int) :
    (10 : ℚ) ^ e * 10 ^ (-e).toNat = 10 ^ e.toNat := by
  rw [← zpow_natCast, ← zpow_natCast, ← zpow_add₀ (by norm_num)]
  congr 1
  omega

namespace Decimal

/-- The number that a decimal stands for. -/
def value (d : Decimal) : ℚ := d.coefficient * 10 ^ d.exponent

theorem value_trimZeros (fuel : Nat) (d : Decimal) : (d.trimZeros fuel).value = d.value := by
  induction fuel generalizing d with
  | zero => rfl
  | succ fuel ih =>
    rw [trimZeros]
    split
    · next hzero =>
      obtain ⟨k, hk⟩ := Nat.dvd_of_mod_eq_zero hzero.2
      rw [ih]
      unfold value
      rw [hk, Nat.mul_div_cancel_left k (by decide), zpow_add₀ (by norm_num), zpow_one]
      push_cast
      ring
    · rfl

end Decimal

namespace Magnitude

/-! ## Rounding intervals -/

/-- Whether a rational, a multiple of `2 ^ -1076`, lies in the interval. -/
def RoundingInterval.Holds (i : RoundingInterval) (q : ℚ) : Prop :=
  if i.closed then i.low ≤ q ∧ q ≤ i.high else i.low < q ∧ q < i.high

theorem RoundingInterval.contains_iff {i : RoundingInterval} {num den : Nat} (hden : 0 < den) :
    i.contains num den = true ↔ i.Holds (num / den) := by
  have hpos : (0 : ℚ) < den := Nat.cast_pos.2 hden
  unfold contains Holds
  split
  · rw [le_div_iff₀ hpos, div_le_iff₀ hpos, Bool.and_eq_true, decide_eq_true_eq,
      decide_eq_true_eq]
    norm_cast
  · rw [lt_div_iff₀ hpos, div_lt_iff₀ hpos, Bool.and_eq_true, decide_eq_true_eq,
      decide_eq_true_eq]
    norm_cast

theorem RoundingInterval.Holds.bounds {i : RoundingInterval} {q : ℚ} (h : i.Holds q) :
    i.low ≤ q ∧ q ≤ i.high := by
  unfold Holds at h
  split at h
  · exact h
  · exact ⟨h.1.le, h.2.le⟩

theorem RoundingInterval.Holds.closed {i : RoundingInterval} {q : ℚ} (h : i.Holds q)
    (hend : q = i.low ∨ q = i.high) : i.closed = true := by
  by_contra hopen
  unfold Holds at h
  rw [if_neg hopen] at h
  rcases hend with rfl | rfl
  · exact lt_irrefl _ h.1
  · exact lt_irrefl _ h.2

/-- Whether a number is one of those that round to `x`. -/
def Covers (x : Magnitude) (q : ℚ) : Prop :=
  x.roundingInterval.Holds (q * (Nat.pow 2 1076 : Nat))

/-! ## Neighbours -/

/-- The distance from `x` down to the end of its interval, a multiple of `2 ^ -1076`. -/
def below (x : Magnitude) : Nat :=
  if x.mantissa = Nat.pow 2 52 ∧ x.exponent ≠ 0 then Nat.pow 2 x.exponent
  else 2 * Nat.pow 2 x.exponent

theorem below_le_two_mul (x : Magnitude) : x.below ≤ 2 * Nat.pow 2 x.exponent := by
  unfold below
  split <;> omega

theorem below_pos (x : Magnitude) : 0 < x.below := by
  have hunit : 0 < Nat.pow 2 x.exponent := Nat.two_pow_pos _
  unfold below
  split <;> omega

theorem below_le_units {x : Magnitude} (h : x.isZero = false) : x.below ≤ 4 * x.units := by
  have hmantissa : 0 < x.mantissa := Nat.pos_of_ne_zero fun hzero => by simp [isZero, hzero] at h
  have hunits : Nat.pow 2 x.exponent ≤ x.units := Nat.le_mul_of_pos_left _ hmantissa
  have hbelow := below_le_two_mul x
  omega

/-- The interval of a magnitude is not too narrow for its size. -/
theorem units_le_below (x : Magnitude) : 4 * x.units ≤ 18014398509481984 * x.below := by
  have hmantissa : x.mantissa ≤ 9007199254740992 := Nat.le_of_lt x.mantissa_lt
  have hunits : x.units ≤ 9007199254740992 * Nat.pow 2 x.exponent :=
    Nat.mul_le_mul_right _ hmantissa
  unfold below
  split
  · next hpower =>
    have hleast : x.units = 4503599627370496 * Nat.pow 2 x.exponent := by
      unfold units
      rw [hpower.1]
    omega
  · omega

/-- An interval ends below the next power of two, nearest to it for the greatest mantissa. -/
theorem high_add_le (x : Magnitude) :
    x.roundingInterval.high + 2 * Nat.pow 2 x.exponent ≤
        36028797018963968 * Nat.pow 2 x.exponent ∧
      (x.roundingInterval.high + 2 * Nat.pow 2 x.exponent =
        36028797018963968 * Nat.pow 2 x.exponent → x.mantissa % 2 = 1) := by
  obtain ⟨m, e, hm, _, _⟩ := x
  have hunit : 0 < Nat.pow 2 e := Nat.two_pow_pos e
  have hmost : (m + 1) * Nat.pow 2 e ≤ 9007199254740992 * Nat.pow 2 e :=
    Nat.mul_le_mul_right _ (Nat.succ_le_of_lt hm)
  show 4 * (m * Nat.pow 2 e) + 2 * Nat.pow 2 e + 2 * Nat.pow 2 e ≤ _ ∧
    (4 * (m * Nat.pow 2 e) + 2 * Nat.pow 2 e + 2 * Nat.pow 2 e = _ → m % 2 = 1)
  generalize Nat.pow 2 e = u at hunit hmost ⊢
  rw [Nat.succ_mul] at hmost
  refine ⟨by omega, fun heq => ?_⟩
  have hlast : m + 1 = 9007199254740992 := by
    refine Nat.eq_of_mul_eq_mul_right hunit ?_
    rw [Nat.succ_mul]
    omega
  omega

/-- An interval begins above the power of two of its exponent, or for the least mantissa a half unit
below it. -/
theorem le_low_add {x : Magnitude} (h : x.exponent ≠ 0) :
    18014398509481984 * Nat.pow 2 x.exponent ≤
        x.roundingInterval.low + Nat.pow 2 x.exponent ∧
      (x.roundingInterval.low + Nat.pow 2 x.exponent =
        18014398509481984 * Nat.pow 2 x.exponent → x.mantissa % 2 = 0) := by
  obtain ⟨m, e, _, hnormal, _⟩ := x
  change e ≠ 0 at h
  have hunit : 0 < Nat.pow 2 e := Nat.two_pow_pos e
  have hpow52 : Nat.pow 2 52 = 4503599627370496 := by decide
  have hm : Nat.pow 2 52 ≤ m := hnormal.resolve_left h
  show _ ≤ 4 * (m * Nat.pow 2 e) - below _ + Nat.pow 2 e ∧
    (4 * (m * Nat.pow 2 e) - below _ + Nat.pow 2 e = _ → m % 2 = 0)
  unfold below
  simp only [ne_eq, h, not_false_eq_true, and_true]
  rw [hpow52] at hm ⊢
  clear hnormal hpow52
  generalize Nat.pow 2 e = u at hunit ⊢
  rcases Nat.lt_or_eq_of_le hm with hlt | rfl
  · have hleast : 4503599627370497 * u ≤ m * u := Nat.mul_le_mul_right u hlt
    rw [if_neg (Nat.ne_of_gt hlt)]
    have hgreater : 18014398509481984 * u < 4 * (m * u) - 2 * u + u := by omega
    exact ⟨hgreater.le, fun heq => absurd heq (Nat.ne_of_gt hgreater)⟩
  · rw [if_pos rfl]
    exact ⟨by omega, fun _ => by omega⟩

/-- With one exponent, the mantissas differ by one where the intervals meet. -/
theorem high_le_low_of_mantissa_lt {x y : Magnitude} (hexponent : x.exponent = y.exponent)
    (h : x.mantissa < y.mantissa) :
    x.roundingInterval.high ≤ y.roundingInterval.low ∧
      (x.roundingInterval.high = y.roundingInterval.low → x.mantissa % 2 ≠ y.mantissa % 2) := by
  have hunit : 0 < Nat.pow 2 y.exponent := Nat.two_pow_pos _
  have hbelow := below_le_two_mul y
  have hsucc : (x.mantissa + 1) * Nat.pow 2 y.exponent ≤ y.mantissa * Nat.pow 2 y.exponent :=
    Nat.mul_le_mul_right _ h
  show 4 * (x.mantissa * Nat.pow 2 x.exponent) + 2 * Nat.pow 2 x.exponent ≤
      4 * (y.mantissa * Nat.pow 2 y.exponent) - y.below ∧
    (4 * (x.mantissa * Nat.pow 2 x.exponent) + 2 * Nat.pow 2 x.exponent =
      4 * (y.mantissa * Nat.pow 2 y.exponent) - y.below → _)
  rw [hexponent]
  generalize Nat.pow 2 y.exponent = u at hunit hbelow hsucc ⊢
  rw [Nat.succ_mul] at hsucc
  refine ⟨by omega, fun heq => ?_⟩
  have hnext : y.mantissa = x.mantissa + 1 := by
    refine Nat.eq_of_mul_eq_mul_right hunit ?_
    rw [Nat.succ_mul]
    omega
  omega

/-- With different exponents, the intervals meet at a power of two, if at all. -/
theorem high_le_low_of_exponent_lt {x y : Magnitude} (h : x.exponent < y.exponent) :
    x.roundingInterval.high ≤ y.roundingInterval.low ∧
      (x.roundingInterval.high = y.roundingInterval.low → x.mantissa % 2 ≠ y.mantissa % 2) := by
  obtain ⟨hhigh, hodd⟩ := high_add_le x
  obtain ⟨hlow, heven⟩ := le_low_add (Nat.ne_of_gt (Nat.lt_of_le_of_lt (Nat.zero_le _) h))
  have hunits : Nat.pow 2 x.exponent * 2 ≤ Nat.pow 2 y.exponent :=
    Nat.pow_le_pow_right Nat.two_pos (Nat.succ_le_of_lt h)
  generalize x.roundingInterval.high = high at hhigh hodd ⊢
  generalize y.roundingInterval.low = low at hlow heven ⊢
  generalize Nat.pow 2 x.exponent = u at hhigh hodd hunits
  generalize Nat.pow 2 y.exponent = w at hlow heven hunits
  refine ⟨by omega, fun heq => ?_⟩
  -- where they meet, the one below has the greatest mantissa and the one above the least
  have hx := hodd (by omega)
  have hy := heven (by omega)
  omega

/-- The interval of the smaller one of two magnitudes ends before that of the greater one begins,
or else they are neighbours, of which one has an odd mantissa. -/
theorem high_le_low {x y : Magnitude}
    (h : x.exponent < y.exponent ∨ x.exponent = y.exponent ∧ x.mantissa < y.mantissa) :
    x.roundingInterval.high ≤ y.roundingInterval.low ∧
      (x.roundingInterval.high = y.roundingInterval.low → x.mantissa % 2 ≠ y.mantissa % 2) := by
  rcases h with hlt | ⟨hexponent, hlt⟩
  · exact high_le_low_of_exponent_lt hlt
  · exact high_le_low_of_mantissa_lt hexponent hlt

/-- **No number rounds to two magnitudes.** -/
theorem covers_unique {x y : Magnitude} {q : ℚ} (hx : x.Covers q) (hy : y.Covers q) : x = y := by
  have hapart : ∀ {x y : Magnitude}, x.Covers q → y.Covers q →
      ¬(x.exponent < y.exponent ∨ x.exponent = y.exponent ∧ x.mantissa < y.mantissa) := by
    intro x y hx hy h
    obtain ⟨hle, hparity⟩ := high_le_low h
    have hhigh := (RoundingInterval.Holds.bounds hx).2
    have hlow := (RoundingInterval.Holds.bounds hy).1
    have hcast : (x.roundingInterval.high : ℚ) ≤ y.roundingInterval.low := Nat.cast_le.2 hle
    have hxeven : (x.mantissa % 2 == 0) = true :=
      RoundingInterval.Holds.closed hx (.inr (hhigh.antisymm (hcast.trans hlow)))
    have hyeven : (y.mantissa % 2 == 0) = true :=
      RoundingInterval.Holds.closed hy (.inl ((hhigh.trans hcast).antisymm hlow))
    rw [beq_iff_eq] at hxeven hyeven
    refine hparity ?_ (hxeven.trans hyeven.symm)
    exact Nat.cast_injective (R := ℚ) (hcast.antisymm (hlow.trans hhigh))
  have hxy := hapart hx hy
  have hyx := hapart hy hx
  obtain ⟨m, e, _, _, _⟩ := x
  obtain ⟨n, f, _, _, _⟩ := y
  simp only at hxy hyx
  obtain rfl : e = f := by omega
  obtain rfl : m = n := by omega
  rfl

/-! ## The leading power of ten -/

theorem zpow_mul_le_of_reaches {num den : Nat} {guess : Int}
    (h : if guess ≥ 0 then den * Nat.pow 10 guess.toNat ≤ num
      else den ≤ num * Nat.pow 10 (-guess).toNat) : (10 : ℚ) ^ guess * den ≤ num := by
  split at h
  · next hpos =>
    obtain ⟨k, rfl⟩ := Int.eq_ofNat_of_zero_le hpos
    rw [Int.toNat_natCast] at h
    rw [zpow_natCast, mul_comm]
    exact_mod_cast h
  · next hneg =>
    obtain ⟨k, rfl⟩ : ∃ k : Nat, guess = -k := ⟨(-guess).toNat, by omega⟩
    rw [neg_neg, Int.toNat_natCast] at h
    rw [zpow_neg, zpow_natCast, inv_mul_le_iff₀ (by positivity), mul_comm]
    exact_mod_cast h

/-- The estimate from the numbers of digits is at most one too great. -/
theorem zpow_decimalExponent_mul_le {num : Nat} (den : Nat) (hnum : 0 < num) :
    (10 : ℚ) ^ decimalExponent num den * den ≤ num := by
  unfold decimalExponent
  dsimp only
  generalize hguess : ((Decimal.digits num).length : Int) - (Decimal.digits den).length = guess
  by_cases hreaches : if guess ≥ 0 then den * Nat.pow 10 guess.toNat ≤ num
      else den ≤ num * Nat.pow 10 (-guess).toNat
  · rw [if_pos hreaches]
    exact zpow_mul_le_of_reaches hreaches
  · rw [if_neg hreaches]
    have hexponent : guess - 1 + ((Decimal.digits den).length : Int) =
        ((Decimal.digits num).length - 1 : Nat) := by
      have := Decimal.length_digits_pos num
      omega
    calc (10 : ℚ) ^ (guess - 1) * den
        ≤ 10 ^ (guess - 1) * 10 ^ (Decimal.digits den).length := by
          gcongr
          exact_mod_cast (Decimal.lt_pow_length_digits den).le
      _ = 10 ^ ((Decimal.digits num).length - 1) := by
          rw [← zpow_natCast, ← zpow_add₀ (by norm_num), hexponent, zpow_natCast]
      _ ≤ num := by exact_mod_cast Decimal.pow_length_digits_le hnum

/-! ## Candidates -/

/-- The step of the grid of multiples of `10 ^ exponent`, over `gridDen exponent`. -/
def gridStep (exponent : Int) : Nat := Nat.pow 2 1076 * Nat.pow 10 exponent.toNat

/-- What makes the step and the value of a magnitude whole. -/
def gridDen (exponent : Int) : Nat := Nat.pow 10 (-exponent).toNat

theorem gridDen_pos (exponent : Int) : 0 < gridDen exponent := Nat.pow_pos (by decide)

theorem gridStep_pos (exponent : Int) : 0 < gridStep exponent := by
  unfold gridStep
  generalize 1076 = bits
  exact Nat.mul_pos (Nat.two_pow_pos bits) (Nat.pow_pos (by decide))

theorem gridStep_eq (exponent : Int) :
    (gridStep exponent : ℚ) = (Nat.pow 2 1076 : Nat) * 10 ^ exponent * gridDen exponent := by
  unfold gridStep gridDen
  generalize Nat.pow 2 1076 = unit
  simp only [Nat.pow_eq]
  push_cast
  rw [mul_assoc, zpow_mul_pow_toNat_neg]

/-- Whether a multiple of `10 ^ exponent` may stand for `x`. -/
def fits (x : Magnitude) (exponent : Int) (c : Nat) : Bool :=
  c ≠ 0 && x.roundingInterval.contains (c * gridStep exponent) (gridDen exponent)

theorem fits_iff {x : Magnitude} {exponent : Int} {c : Nat} :
    fits x exponent c = true ↔ c ≠ 0 ∧ x.Covers (Decimal.value ⟨c, exponent⟩) := by
  unfold fits
  rw [Bool.and_eq_true, decide_eq_true_eq, RoundingInterval.contains_iff (gridDen_pos exponent)]
  have hvalue : ((c * gridStep exponent : Nat) : ℚ) / gridDen exponent =
      Decimal.value ⟨c, exponent⟩ * (Nat.pow 2 1076 : Nat) := by
    rw [div_eq_iff (Nat.cast_ne_zero.2 (gridDen_pos exponent).ne'), Nat.cast_mul, gridStep_eq]
    unfold Decimal.value
    ring
  rw [hvalue]
  exact Iff.rfl

/-- The place of the grid next to `value`, where a tie goes down or up. -/
theorem nearest_bounds {value step place : Nat} (hstep : 0 < step)
    (hplace : place = value / step ∧ 2 * (value % step) ≤ step ∨
      place = value / step + 1 ∧ step ≤ 2 * (value % step)) :
    2 * (place * step) ≤ 2 * value + step ∧ 2 * value ≤ 2 * (place * step) + step := by
  have hvalue := Nat.div_add_mod' value step
  have hrest := Nat.mod_lt value hstep
  rcases hplace with ⟨rfl, htie⟩ | ⟨rfl, htie⟩
  · omega
  · rw [Nat.add_mul, Nat.one_mul]
    omega

/-- The search looks at two places of the grid, and at the one nearest to `x` first. -/
theorem nearestOfLength_eq (x : Magnitude) (top : Int) (count : Nat) (exponent : Int)
    (hexponent : top - count + 1 = exponent) :
    ∃ first second,
      (2 * (first * gridStep exponent) ≤
          2 * (4 * x.units * gridDen exponent) + gridStep exponent ∧
        2 * (4 * x.units * gridDen exponent) ≤
          2 * (first * gridStep exponent) + gridStep exponent) ∧
      nearestOfLength x top count =
        if fits x exponent first then some ⟨first, exponent⟩
        else if fits x exponent second then some ⟨second, exponent⟩
        else none := by
  subst hexponent
  have hstep := gridStep_pos (top - count + 1)
  unfold nearestOfLength fits gridDen
  unfold gridStep at hstep ⊢
  generalize Nat.pow 2 1076 = unit at hstep ⊢
  refine ⟨_, _, nearest_bounds hstep ?_, rfl⟩
  split
  next hlower =>
    rw [Bool.or_eq_true, Bool.and_eq_true, decide_eq_true_eq, beq_iff_eq] at hlower
    exact .inl ⟨rfl, by omega⟩
  next hlower =>
    rw [Bool.or_eq_true, not_or, decide_eq_true_eq] at hlower
    exact .inr ⟨rfl, by omega⟩

theorem covers_nearestOfLength {x : Magnitude} {top : Int} {count : Nat} {d : Decimal}
    (h : nearestOfLength x top count = some d) : d.coefficient ≠ 0 ∧ x.Covers d.value := by
  obtain ⟨first, second, -, heq⟩ := nearestOfLength_eq x top count _ rfl
  rw [heq] at h
  split at h
  · next hfits =>
    obtain rfl := Option.some.inj h
    exact fits_iff.1 hfits
  · split at h
    · next hfits =>
      obtain rfl := Option.some.inj h
      exact fits_iff.1 hfits
    · cases h

/-- Seventeen digits make a step of the grid at most a `10 ^ 16`-th of the value. -/
theorem gridStep_mul_le {units : Nat} {exponent : Int}
    (h : (10 : ℚ) ^ (exponent + 16) * (Nat.pow 2 1074 : Nat) ≤ units) :
    gridStep exponent * 10 ^ 16 ≤ 4 * units * gridDen exponent := by
  have hexact := gridStep_eq exponent
  rw [show Nat.pow 2 1076 = 4 * Nat.pow 2 1074 by decide +kernel] at hexact
  rw [zpow_add₀ (by norm_num)] at h
  generalize Nat.pow 2 1074 = unit at h hexact
  have hcast : (gridStep exponent : ℚ) * 10 ^ 16 ≤ 4 * units * gridDen exponent := by
    calc (gridStep exponent : ℚ) * 10 ^ 16
        = 4 * ((10 : ℚ) ^ exponent * 10 ^ (16 : Int) * unit) * (gridDen exponent : ℚ) := by
          rw [hexact, Nat.cast_mul]
          push_cast
          ring
      _ ≤ 4 * (units : ℚ) * (gridDen exponent : ℚ) := by gcongr
  exact_mod_cast hcast

/-- A grid of seventeen digits is finer than the interval of the magnitude. -/
theorem fits_of_near {x : Magnitude} {exponent : Int} {place : Nat} (hx : x.isZero = false)
    (hfine : gridStep exponent * 10 ^ 16 ≤ 4 * x.units * gridDen exponent)
    (hmost : 2 * (place * gridStep exponent) ≤
      2 * (4 * x.units * gridDen exponent) + gridStep exponent)
    (hleast : 2 * (4 * x.units * gridDen exponent) ≤
      2 * (place * gridStep exponent) + gridStep exponent) : fits x exponent place = true := by
  have hstep := gridStep_pos exponent
  have hwidth : 0 < x.below * gridDen exponent :=
    Nat.mul_pos (below_pos x) (gridDen_pos exponent)
  have hbelow := Nat.mul_le_mul_right (gridDen exponent) (units_le_below x)
  rw [Nat.mul_assoc 18014398509481984] at hbelow
  have hlow : x.roundingInterval.low * gridDen exponent + x.below * gridDen exponent =
      4 * x.units * gridDen exponent := by
    rw [← Nat.add_mul]
    show (4 * x.units - x.below + x.below) * _ = _
    rw [Nat.sub_add_cancel (below_le_units hx)]
  have hhigh : 4 * x.units * gridDen exponent + x.below * gridDen exponent ≤
      x.roundingInterval.high * gridDen exponent := by
    rw [← Nat.add_mul]
    exact Nat.mul_le_mul_right _ (Nat.add_le_add_left (below_le_two_mul x) _)
  unfold fits
  generalize gridStep exponent = step at hstep hmost hleast hfine ⊢
  generalize gridDen exponent = den at hmost hleast hfine hwidth hbelow hlow hhigh ⊢
  have hlower : x.roundingInterval.low * den < place * step := by omega
  have hupper : place * step < x.roundingInterval.high * den := by omega
  have hplace : place ≠ 0 := by
    rintro rfl
    omega
  simp [RoundingInterval.contains, hplace, hlower, hupper, hlower.le, hupper.le]

theorem isSome_nearestOfLength {x : Magnitude} {top : Int} (hx : x.isZero = false)
    (htop : (10 : ℚ) ^ top * (Nat.pow 2 1074 : Nat) ≤ x.units) :
    (nearestOfLength x top 17).isSome = true := by
  obtain ⟨exponent, rfl⟩ : ∃ exponent, top = exponent + 16 := ⟨top - 16, by omega⟩
  obtain ⟨first, second, ⟨hmost, hleast⟩, heq⟩ :=
    nearestOfLength_eq x (exponent + 16) 17 exponent (by omega)
  rw [heq, if_pos (fits_of_near hx (gridStep_mul_le htop) hmost hleast)]
  rfl

/-! ## The search -/

theorem covers_zero {x : Magnitude} (h : x.isZero = true) : x.Covers (Decimal.value ⟨0, 0⟩) := by
  have hvalue : Decimal.value ⟨0, 0⟩ = 0 := by simp [Decimal.value]
  have hmantissa : x.mantissa = 0 := by simpa [isZero] using h
  have hlow : x.roundingInterval.low = 0 := by simp [roundingInterval, units, hmantissa]
  have hclosed : x.roundingInterval.closed = true := by simp [roundingInterval, hmantissa]
  rw [hvalue]
  unfold Covers RoundingInterval.Holds
  rw [if_pos hclosed, hlow, zero_mul]
  exact ⟨Nat.cast_zero.le, Nat.cast_nonneg _⟩

/-- **The shortest decimal rounds to the magnitude it is made from.** -/
theorem covers_shortest (x : Magnitude) : x.Covers x.shortest.value := by
  unfold shortest
  split
  · next hzero => exact covers_zero hzero
  · next hzero =>
    have hunits : 0 < x.units := Nat.mul_pos
      (Nat.pos_of_ne_zero fun h => hzero (by simp [isZero, h])) (Nat.two_pow_pos x.exponent)
    have htop := zpow_decimalExponent_mul_le (Nat.pow 2 1074) hunits
    have hsome := isSome_nearestOfLength (Bool.eq_false_iff.2 hzero) htop
    dsimp only
    split
    · next d hfound =>
      obtain ⟨count, -, hcount⟩ := List.exists_of_findSome?_eq_some hfound
      rw [Decimal.value_trimZeros]
      exact (covers_nearestOfLength hcount).2
    · next hnone =>
      have hlast := List.findSome?_eq_none_iff.1 hnone 17 (by decide)
      rw [hlast] at hsome
      cases hsome

/-- Magnitudes are told apart by their shortest decimals. -/
theorem shortest_value_inj {x y : Magnitude} (h : x.shortest.value = y.shortest.value) :
    x = y := by
  have hx := covers_shortest x
  rw [h] at hx
  exact covers_unique hx (covers_shortest y)

end Magnitude

end JavaAtlas
