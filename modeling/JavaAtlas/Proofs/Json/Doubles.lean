import JavaAtlas.Json.Printer
import JavaAtlas.Proofs.Json.Lexemes
import JavaAtlas.Proofs.Json.Scalars
import JavaAtlas.Proofs.Number.Layout
import JavaAtlas.Proofs.Number.Nearest
import JavaAtlas.Proofs.Number.Width

set_option autoImplicit false

/-! # Doubles that are read back from JSON text

The text of a double is a numeral, and its digits and its exponent make the shortest decimal with
one exception: behind a whole number there stands a zero, which counts as a digit
(`spellsDecimal_json`). The reader rounds twice, first the digits and then the product with the
power of ten, so it does not find every double again. It does if the first rounding changes nothing
and the power of ten is a double itself (`isRecovered_of_small`). -/

namespace JavaAtlas

open Json (Numeral)

/-! ## The decimal in the text -/

/-- The decimal that the digits and the exponent in the JSON text of a magnitude make: the shortest
one, but with `.0` behind it if it is written as a whole number. -/
def Magnitude.written (x : Magnitude) : Decimal :=
  let d := x.shortest
  if 0 ≤ d.exponent ∧ d.exponent + (Decimal.digits d.coefficient).length ≤ 16 then
    ⟨d.coefficient * Nat.pow 10 (d.exponent.toNat + 1), -1⟩
  else d

/-- Whether the reader finds a finite double again in its JSON text: whether the two roundings of
the decimal that is written there lead back to it. -/
def Double.IsRecovered : Double → Prop
  | .finite _ x => Numeral.scale x.written.coefficient x.written.exponent = some x
  | _ => False

instance : DecidablePred Double.IsRecovered
  | .finite _ x => inferInstanceAs (Decidable (Numeral.scale _ _ = some x))
  | .nan _ | .infinity _ => inferInstanceAs (Decidable False)

theorem Magnitude.value_written (x : Magnitude) : x.written.value = x.shortest.value := by
  unfold written
  dsimp only
  split
  · next hwhole =>
    obtain ⟨k, hk⟩ := Int.eq_ofNat_of_zero_le hwhole.1
    unfold Decimal.value
    rw [hk, Int.toNat_natCast, Nat.pow_eq, zpow_natCast]
    push_cast
    rw [pow_succ, zpow_neg_one]
    ring
  · rfl

/-- The digits that are written fit in 64 bits. -/
theorem Magnitude.written_coefficient_lt (x : Magnitude) :
    x.written.coefficient < UInt64.size := by
  have hsize : UInt64.size = 18446744073709551616 := rfl
  unfold written
  dsimp only
  split
  · next hwhole =>
    have hdigits := Decimal.lt_pow_length_digits x.shortest.coefficient
    generalize (Decimal.digits x.shortest.coefficient).length = count at hwhole hdigits
    calc x.shortest.coefficient * Nat.pow 10 (x.shortest.exponent.toNat + 1)
        ≤ 10 ^ count * 10 ^ (x.shortest.exponent.toNat + 1) :=
          Nat.mul_le_mul_right _ hdigits.le
      _ = 10 ^ (count + (x.shortest.exponent.toNat + 1)) := (Nat.pow_add _ _ _).symm
      _ ≤ 10 ^ 17 := Nat.pow_le_pow_right (by decide) (by omega)
      _ < UInt64.size := by decide
  · exact Nat.lt_of_le_of_lt x.shortest_coefficient_le (by decide)

theorem Magnitude.eq_zero_of_coefficient {x : Magnitude} (h : x.shortest.coefficient = 0) :
    x = .zero := by
  have hvalue : x.shortest.value = Decimal.value ⟨0, 0⟩ := by simp [Decimal.value, h]
  exact covers_unique (hvalue ▸ covers_shortest x) (covers_zero rfl)

namespace Json

/-! ## Numerals with a mark -/

/-- The texts of numerals that are not those of integers, because of a point or an exponent, with
the decimals that their digits and their exponents make. -/
inductive SpellsDecimal : List Char → Decimal → Prop where
  | intro {whole point power : List Char} {fraction : Option (List Char)} {exponent : Option Int}
      (hwhole : IsWhole whole) (hpoint : SpellsFraction point fraction)
      (hpower : SpellsExponent power exponent)
      (hmark : fraction.isSome = true ∨ exponent.isSome = true) :
      SpellsDecimal (whole ++ (point ++ power))
        ⟨Literal.appendDigits 0 (whole ++ fraction.getD []),
          exponent.getD 0 - (fraction.getD []).length⟩

/-- The reader takes up all digits if they fit in 64 bits. -/
theorem Numeral.read?_of_marked {n : Numeral}
    (hmark : n.fraction.isSome = true ∨ n.exponent.isSome = true)
    (hsize : Literal.appendDigits 0 (n.whole ++ n.fraction.getD []) < UInt64.size) :
    n.read? = (scale (Literal.appendDigits 0 (n.whole ++ n.fraction.getD []))
      (n.exponent.getD 0 - (n.fraction.getD []).length)).map fun x =>
        .float (.finite n.negative x) := by
  rw [Literal.appendDigits_append, Literal.appendDigits_eq] at hsize ⊢
  have hfraction := absorb_eq hsize
  have hwhole : absorb 0 n.whole = (Literal.appendDigits 0 n.whole, []) := by
    have hle := le_ofDigitChars (n.fraction.getD []) (Literal.appendDigits 0 n.whole)
    rw [Literal.appendDigits_eq] at hle hsize ⊢
    exact absorb_eq (Nat.lt_of_le_of_lt hle hsize)
  have hfloat : (n.fraction.isNone && n.exponent.isNone) = false := by
    rcases hmark with h | h
    · rw [Option.isNone_eq_false_iff.2 h, Bool.false_and]
    · rw [Option.isNone_eq_false_iff.2 h, Bool.and_false]
  unfold read?
  rw [hwhole]
  dsimp only
  rw [hfraction, hfloat]
  simp [neg_add_eq_sub]

theorem SpellsDecimal.exists_numeral {text : List Char} {d : Decimal} (h : SpellsDecimal text d)
    (hsize : d.coefficient < UInt64.size) (negative : Bool) :
    ∃ numeral, SpellsNumeral ((if negative then ['-'] else []) ++ text) numeral ∧
      numeral.read? = (Numeral.scale d.coefficient d.exponent).map fun x =>
        .float (.finite negative x) := by
  obtain ⟨hwhole, hpoint, hpower, hmark⟩ := h
  refine ⟨_, .intro ?_ hwhole hpoint hpower, Numeral.read?_of_marked hmark hsize⟩
  cases negative with
  | true => exact .minus
  | false => exact .none

/-! ## Texts -/

section

variable {digits : List Char}

theorem isWhole_of_head? (hdigits : Literal.IsDigits digits) (hsome : digits ≠ [])
    (hhead : digits.head? ≠ some '0') : IsWhole digits :=
  ⟨hdigits, hsome, fun h => hhead h.1⟩

theorem isWhole_singleton {d : Char} (hd : d.isDigit = true) : IsWhole [d] :=
  ⟨List.forall_mem_singleton.2 hd, List.cons_ne_nil _ _, fun h => absurd h.2 (Nat.lt_irrefl 1)⟩

/-- Digits on both sides of a point. -/
theorem spellsDecimal_positional {whole fraction : List Char} (hwhole : IsWhole whole)
    (hfraction : Literal.IsDigits fraction) (hsome : fraction ≠ []) :
    SpellsDecimal (whole ++ '.' :: fraction)
      ⟨Literal.appendDigits 0 (whole ++ fraction), -(fraction.length : Int)⟩ := by
  have h := SpellsDecimal.intro hwhole (.point hfraction hsome) .none (.inl rfl)
  simp only [List.append_nil, Option.getD_some, Option.getD_none, zero_sub] at h
  exact h

theorem spellsDecimal_spread_of_neg (hdigits : Literal.IsDigits digits) (hsome : digits ≠ [])
    {leading : Int} (h : leading < 0) :
    SpellsDecimal (Layout.spread digits leading)
      ⟨Literal.appendDigits 0 digits, leading + 1 - digits.length⟩ := by
  generalize hcount : (-leading - 1).toNat = count
  have hspell := spellsDecimal_positional (isWhole_singleton (d := '0') rfl)
    ((Literal.isDigits_zeros count).append hdigits) (List.append_ne_nil_of_right_ne_nil _ hsome)
  have hvalue : Literal.appendDigits 0 (['0'] ++ (List.replicate count '0' ++ digits)) =
      Literal.appendDigits 0 digits := by
    rw [← List.append_assoc, Literal.appendDigits_append, ← List.replicate_one,
      List.replicate_append_replicate, Literal.appendDigits_zeros, Nat.zero_mul]
  have hexponent : -((List.replicate count '0' ++ digits).length : Int) =
      leading + 1 - digits.length := by
    rw [List.length_append, List.length_replicate]
    omega
  rw [hvalue, hexponent] at hspell
  rw [Layout.spread_of_neg h, hcount]
  exact hspell

/-- All digits are in front of the point, and a zero is behind it. -/
theorem spellsDecimal_spread_of_length_le (hdigits : Literal.IsDigits digits) (hsome : digits ≠ [])
    (hhead : digits.head? ≠ some '0') {leading : Int} (h : 0 ≤ leading)
    (hlength : digits.length ≤ leading.toNat + 1) :
    SpellsDecimal (Layout.spread digits leading)
      ⟨Literal.appendDigits 0 digits * 10 ^ (leading.toNat + 1 - digits.length + 1), -1⟩ := by
  rw [Layout.spread_of_length_le h hlength]
  generalize leading.toNat + 1 - digits.length = count
  have hwhole : IsWhole (digits ++ List.replicate count '0') := by
    refine isWhole_of_head? (hdigits.append (Literal.isDigits_zeros count))
      (List.append_ne_nil_of_left_ne_nil hsome _) ?_
    rwa [List.head?_append_of_ne_nil _ hsome]
  have hspell := spellsDecimal_positional hwhole (Literal.isDigits_zeros 1) (List.cons_ne_nil _ _)
  have hvalue : Literal.appendDigits 0 (digits ++ List.replicate count '0' ++ ['0']) =
      Literal.appendDigits 0 digits * 10 ^ (count + 1) := by
    rw [List.append_assoc, ← List.replicate_one, List.replicate_append_replicate,
      Literal.appendDigits_append, Literal.appendDigits_zeros]
  rw [List.replicate_one, hvalue] at hspell
  exact hspell

/-- The point is among the digits. -/
theorem spellsDecimal_spread_of_lt_length (hdigits : Literal.IsDigits digits)
    (hhead : digits.head? ≠ some '0') {leading : Int} (h : 0 ≤ leading)
    (hlength : leading.toNat + 1 < digits.length) :
    SpellsDecimal (Layout.spread digits leading)
      ⟨Literal.appendDigits 0 digits, leading + 1 - digits.length⟩ := by
  obtain ⟨d, rest, rfl⟩ := List.exists_cons_of_length_pos (Nat.zero_lt_of_lt hlength)
  have hwhole : IsWhole ((d :: rest).take (leading.toNat + 1)) :=
    isWhole_of_head? (fun c hc => hdigits c (List.mem_of_mem_take hc)) (List.cons_ne_nil _ _) hhead
  have hfraction : (d :: rest).drop (leading.toNat + 1) ≠ [] := by
    rw [Ne, List.drop_eq_nil_iff]
    omega
  have hspell := spellsDecimal_positional hwhole
    (fun c hc => hdigits c (List.mem_of_mem_drop hc)) hfraction
  have hexponent : -(((d :: rest).drop (leading.toNat + 1)).length : Int) =
      leading + 1 - (d :: rest).length := by
    rw [List.length_drop]
    omega
  rw [List.take_append_drop, hexponent] at hspell
  rwa [Layout.spread_of_lt_length h hlength]

/-- Where the point stands shows in the text of a whole number only. -/
theorem spellsDecimal_spread (hdigits : Literal.IsDigits digits) (hsome : digits ≠ [])
    (hhead : digits.head? ≠ some '0') (exponent : Int) :
    SpellsDecimal (Layout.spread digits (exponent + digits.length - 1))
      (if 0 ≤ exponent then ⟨Literal.appendDigits 0 digits * 10 ^ (exponent.toNat + 1), -1⟩
        else ⟨Literal.appendDigits 0 digits, exponent⟩) := by
  have hlength := List.length_pos_iff.2 hsome
  have hexponent : exponent + (digits.length : Int) - 1 + 1 - digits.length = exponent := by omega
  rcases lt_or_ge (exponent + (digits.length : Int) - 1) 0 with hneg | hge
  · have h := spellsDecimal_spread_of_neg hdigits hsome hneg
    rw [if_neg (by omega)]
    rwa [hexponent] at h
  · rcases Nat.lt_or_ge ((exponent + (digits.length : Int) - 1).toNat + 1) digits.length with
      hlt | hle
    · have h := spellsDecimal_spread_of_lt_length hdigits hhead hge hlt
      rw [if_neg (by omega)]
      rwa [hexponent] at h
    · have h := spellsDecimal_spread_of_length_le hdigits hsome hhead hge hle
      have hzeros : (exponent + (digits.length : Int) - 1).toNat + 1 - digits.length + 1 =
          exponent.toNat + 1 := by omega
      rw [if_pos (by omega)]
      rwa [hzeros] at h

theorem spellsExponent_of_literal {cs : List Char} {exponent : Int}
    (h : Literal.SpellsExponent cs exponent) (hne : cs ≠ []) :
    SpellsExponent cs (some exponent) := by
  cases h with
  | none => exact absurd rfl hne
  | power hletter hsign hdigits hsome => exact .power hletter hsign hdigits hsome

theorem spellsDecimal_scientific (plus : Bool) (hdigits : Literal.IsDigits digits)
    (hsome : digits ≠ []) (exponent : Int) :
    SpellsDecimal (Layout.scientific plus digits (exponent + digits.length - 1))
      ⟨Literal.appendDigits 0 digits, exponent⟩ := by
  obtain ⟨d, rest, rfl⟩ := List.exists_cons_of_ne_nil hsome
  obtain ⟨hd, hrest⟩ := List.forall_mem_cons.1 hdigits
  generalize hleading : exponent + ((d :: rest).length : Int) - 1 = leading
  have hpower := spellsExponent_of_literal (Layout.spellsExponent_scientific plus leading)
    (List.cons_ne_nil _ _)
  have hexponent : exponent = leading - rest.length := by
    rw [List.length_cons] at hleading
    omega
  rw [hexponent]
  -- a lone digit is written without the point
  cases rest with
  | nil => exact .intro (isWhole_singleton hd) .none hpower (.inr rfl)
  | cons c rest =>
    have h := SpellsDecimal.intro (isWhole_singleton hd) (.point hrest (List.cons_ne_nil _ _))
      hpower (.inl rfl)
    simpa [Layout.scientific] using h

end

/-- The decimal that is written in the text of a magnitude. -/
theorem spellsDecimal_json (x : Magnitude) : SpellsDecimal (Layout.json.magnitude x) x.written := by
  rcases Nat.eq_zero_or_pos x.shortest.coefficient with hzero | hpos
  · obtain rfl := Magnitude.eq_zero_of_coefficient hzero
    exact spellsDecimal_positional (isWhole_singleton (d := '0') rfl) (Literal.isDigits_zeros 1)
      (List.cons_ne_nil _ _)
  · have hdigits := Literal.isDigits_digits x.shortest.coefficient
    have hsome := Decimal.digits_ne_nil x.shortest.coefficient
    have hhead := Decimal.head?_digits_ne_zero hpos
    have hlength := Decimal.length_digits_pos x.shortest.coefficient
    have hspread := spellsDecimal_spread hdigits hsome hhead x.shortest.exponent
    have hscientific := spellsDecimal_scientific Layout.json.exponentPlus hdigits hsome
      x.shortest.exponent
    rw [Literal.appendDigits_digits] at hspread hscientific
    have hpositional : ∀ leading, Layout.json.positional leading = true ↔
        -5 ≤ leading ∧ leading ≤ 15 := fun leading => by simp [Layout.json]
    unfold Layout.magnitude Magnitude.written
    dsimp only
    -- of the numbers that are written as whole ones, all are written positionally
    split
    · next h =>
      have hrange := (hpositional _).1 h
      rcases lt_or_ge x.shortest.exponent 0 with hneg | hge
      · rw [if_neg (by omega)]
        rwa [if_neg (by omega)] at hspread
      · rw [if_pos (by omega)]
        rwa [if_pos hge] at hspread
    · next h =>
      rw [hpositional] at h
      rw [if_neg (by omega)]
      exact hscientific

/-- The text of a finite double is a numeral, which the reader rounds twice. -/
theorem exists_numeral_double (negative : Bool) (x : Magnitude) :
    ∃ numeral, SpellsNumeral (Layout.json.double (.finite negative x)) numeral ∧
      numeral.read? = (Numeral.scale x.written.coefficient x.written.exponent).map fun y =>
        .float (.finite negative y) :=
  (spellsDecimal_json x).exists_numeral x.written_coefficient_lt negative

/-! ## Doubles that are read back -/

theorem round_pow_ten {k : Nat} (hk : k ≤ 22) :
    ∃ power : Magnitude, Magnitude.round (Nat.pow 10 k) 1 = some power ∧
      power.units = 10 ^ k * Nat.pow 2 1074 := by
  have hfives : 5 ^ k < 2 ^ 53 :=
    Nat.lt_of_le_of_lt (Nat.pow_le_pow_right (by decide) hk) (by decide)
  obtain ⟨power, hpower⟩ := Magnitude.exists_units (k := k) hfives (by omega)
  rw [← Nat.mul_pow] at hpower
  exact ⟨power, Magnitude.round_of_units Nat.one_pos (by rw [hpower, Nat.mul_one]; rfl), hpower⟩

section

variable {x y : Magnitude} {n k : Nat}

theorem scaleUp_of_covers (hk : k ≤ 22) (hy : y.units = n * Nat.pow 2 1074)
    (hx : x.Covers (n * 10 ^ k)) : Double.scaleUp y k = some x := by
  obtain ⟨power, hround, hpower⟩ := round_pow_ten hk
  have hunit : Nat.pow 2 2148 = Nat.pow 2 1074 * Nat.pow 2 1074 := by decide +kernel
  have hpos : 0 < Nat.pow 2 1074 := by decide +kernel
  unfold Double.scaleUp
  rw [hround, Option.bind_eq_bind, Option.bind_some, hy, hpower, hunit,
    Magnitude.round_eq_some_iff (Nat.mul_pos hpos hpos)]
  generalize Nat.pow 2 1074 = unit at hpos
  have hne : (unit : ℚ) ≠ 0 := Nat.cast_ne_zero.2 hpos.ne'
  have hvalue : ((n * unit * (10 ^ k * unit) : Nat) : ℚ) / (unit * unit : Nat) = n * 10 ^ k := by
    push_cast
    field_simp
  rwa [hvalue]

theorem scaleDown_of_covers (hk : k ≤ 22) (hy : y.units = n * Nat.pow 2 1074)
    (hx : x.Covers (n / 10 ^ k)) : Double.scaleDown y k = some x := by
  obtain ⟨power, hround, hpower⟩ := round_pow_ten hk
  have hpos : 0 < Nat.pow 2 1074 := by decide +kernel
  unfold Double.scaleDown
  rw [hround, Option.bind_eq_bind, Option.bind_some, hy, hpower,
    Magnitude.round_eq_some_iff (Nat.mul_pos (Nat.pow_pos (by decide)) hpos)]
  generalize Nat.pow 2 1074 = unit at hpos
  have hne : (unit : ℚ) ≠ 0 := Nat.cast_ne_zero.2 hpos.ne'
  have hvalue : ((n * unit : Nat) : ℚ) / (10 ^ k * unit : Nat) = n / 10 ^ k := by
    push_cast
    field_simp
  rwa [hvalue]

/-- If neither the digits nor the power of ten are rounded, the result is rounded once. -/
theorem scale_of_covers {exponent : Int} (hn : n < 2 ^ 53) (hleast : -22 ≤ exponent)
    (hmost : exponent ≤ 22) (hx : x.Covers (Decimal.value ⟨n, exponent⟩)) :
    Numeral.scale n exponent = some x := by
  obtain ⟨y, hy⟩ := Magnitude.exists_units (k := 0) hn (Nat.zero_le _)
  rw [Nat.pow_zero, Nat.mul_one] at hy
  have hround : Magnitude.round n 1 = some y :=
    Magnitude.round_of_units Nat.one_pos (by rw [hy, Nat.mul_one])
  unfold Numeral.scale Decimal.value at *
  rw [hround]
  simp only [Option.bind_eq_bind, Option.bind_some]
  split
  · next hzero =>
    have hunits : n * Nat.pow 2 1074 = 0 := by
      have hmantissa : y.mantissa = 0 := beq_iff_eq.1 hzero
      rw [← hy, Magnitude.units, hmantissa, Nat.zero_mul]
    have hn0 : n = 0 := (Nat.mul_eq_zero.1 hunits).resolve_right (by decide +kernel)
    have hvalue : (n : ℚ) * 10 ^ exponent = Decimal.value ⟨0, 0⟩ := by simp [hn0, Decimal.value]
    rw [hvalue] at hx
    rw [Magnitude.covers_unique hx (Magnitude.covers_zero hzero)]
  · rw [if_neg (by omega)]
    split
    · next hpos =>
      obtain ⟨k, rfl⟩ := Int.eq_ofNat_of_zero_le hpos
      rw [zpow_natCast] at hx
      exact scaleUp_of_covers (by omega) hy hx
    · next hneg =>
      obtain ⟨k, rfl⟩ : ∃ k : Nat, exponent = -k := ⟨(-exponent).toNat, by omega⟩
      rw [zpow_neg, zpow_natCast, ← div_eq_mul_inv] at hx
      rw [if_pos (by omega), neg_neg]
      exact scaleDown_of_covers (by omega) hy hx

end

/-- **Doubles of few digits and a small exponent are read back**: what is written is at most one
rounding away from them. -/
theorem isRecovered_of_small {negative : Bool} {x : Magnitude}
    (hdigits : x.written.coefficient < 2 ^ 53) (hleast : -22 ≤ x.written.exponent)
    (hmost : x.written.exponent ≤ 22) : (Double.finite negative x).IsRecovered := by
  have hx := x.covers_shortest
  rw [← x.value_written] at hx
  exact scale_of_covers hdigits hleast hmost hx

end Json

end JavaAtlas
