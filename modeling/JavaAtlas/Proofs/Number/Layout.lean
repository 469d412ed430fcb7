import JavaAtlas.Number.Layout
import JavaAtlas.Proofs.Number.Literal
import JavaAtlas.Proofs.Number.Shortest

set_option autoImplicit false

/-! # The text of a number stands for its shortest decimal

Wherever the point is put and whether or not the exponent is written out, the text stands for the
shortest decimal (`denotes_magnitude`). A text stands for one number only (`Denotes.unique`), so in
every layout finite doubles have different texts (`double_inj`). The point or the exponent also
keeps these texts apart from those of integers (`Denotes.exists_mark`). -/

namespace JavaAtlas.Layout

open Literal

/-! ## Texts of positive numbers -/

/-- The texts that are seen to be those of doubles, because of a point or an exponent, with the
numbers that they stand for. -/
inductive Denotes : List Char → ℚ → Prop where
  | intro {whole point fraction power : List Char} {exponent : Int} (hwhole : IsDigits whole)
      (hsome : whole ≠ []) (hpoint : SpellsFraction point fraction)
      (hpower : SpellsExponent power exponent) (hmark : point ≠ [] ∨ power ≠ []) :
      Denotes (whole ++ (point ++ power))
        (appendDigits 0 (whole ++ fraction) * 10 ^ (exponent - fraction.length))

/-- The parts of a text, and with them the number, are found by taking the longest run of digits,
then what follows a point, then the exponent. -/
theorem Denotes.unique {cs : List Char} {q r : ℚ} (hq : Denotes cs q) (hr : Denotes cs r) :
    q = r := by
  have hparts : ∀ {q : ℚ}, Denotes cs q → ∃ exponent,
      exponent? (takeFraction (cs.span Char.isDigit).2).2 = some exponent ∧
      q = appendDigits 0 ((cs.span Char.isDigit).1 ++ (takeFraction (cs.span Char.isDigit).2).1) *
        10 ^ (exponent - ((takeFraction (cs.span Char.isDigit).2).1.length : Int)) := by
    rintro q ⟨hwhole, -, hpoint, hpower, -⟩
    rw [span_isDigit_eq_iff.2 ⟨rfl, hwhole, hpoint.begins_append hpower.begins⟩]
    rw [takeFraction_append hpoint hpower.begins]
    exact ⟨_, exponent?_eq_some_iff.2 hpower, rfl⟩
  obtain ⟨exponent, hexponent, rfl⟩ := hparts hq
  obtain ⟨exponent', hexponent', rfl⟩ := hparts hr
  rw [hexponent, Option.some.injEq] at hexponent'
  rw [hexponent']

/-- Digits and the marks that occur among them. -/
def IsNumeralChar (c : Char) : Prop := c.isDigit = true ∨ c ∈ ['-', '+', '.', 'e', 'E']

instance : DecidablePred IsNumeralChar := fun _ => inferInstanceAs (Decidable (_ ∨ _))

theorem Denotes.isNumeralChar {cs : List Char} {q : ℚ} (h : Denotes cs q) :
    ∀ c ∈ cs, IsNumeralChar c := by
  obtain ⟨hwhole, -, hpoint, hpower, -⟩ := h
  simp only [List.forall_mem_append]
  refine ⟨fun c hc => .inl (hwhole c hc), ?_, ?_⟩
  · cases hpoint with
    | none => exact List.forall_mem_nil _
    | point hdigits => exact List.forall_mem_cons.2 ⟨by decide, fun c hc => .inl (hdigits c hc)⟩
  · cases hpower with
    | none => exact List.forall_mem_nil _
    | power hletter hsign hdigits =>
      rw [List.forall_mem_cons, List.forall_mem_append]
      refine ⟨?_, ?_, fun c hc => .inl (hdigits c hc)⟩
      · rcases hletter with rfl | rfl <;> decide
      · cases hsign with
        | none => exact List.forall_mem_nil _
        | plus => exact List.forall_mem_singleton.2 (by decide)
        | minus => exact List.forall_mem_singleton.2 (by decide)

theorem Denotes.head {cs : List Char} {q : ℚ} (h : Denotes cs q) :
    ∃ c rest, cs = c :: rest ∧ c.isDigit = true := by
  obtain ⟨hwhole, hsome, -, -, -⟩ := h
  rename_i whole point fraction power exponent
  obtain ⟨c, rest, rfl⟩ := List.exists_cons_of_ne_nil hsome
  exact ⟨c, _, rfl, hwhole c List.mem_cons_self⟩

/-- Digits alone are the text of an integer. -/
theorem Denotes.exists_mark {cs : List Char} {q : ℚ} (h : Denotes cs q) :
    ∃ c ∈ cs, c = '.' ∨ c = 'e' ∨ c = 'E' := by
  obtain ⟨-, -, hpoint, hpower, hmark⟩ := h
  cases hpoint with
  | point => exact ⟨'.', by simp, .inl rfl⟩
  | none =>
    cases hpower with
    | none => exact (hmark.elim (fun h => h rfl) fun h => h rfl).elim
    | @power letter _ _ _ hletter => exact ⟨letter, by simp, .inr hletter⟩

/-! ## Layouts -/

/-- Digits on both sides of a point. -/
theorem denotes_positional {whole fraction : List Char} (hwhole : IsDigits whole)
    (hsome : whole ≠ []) (hfraction : IsDigits fraction) :
    Denotes (whole ++ '.' :: fraction)
      (appendDigits 0 (whole ++ fraction) * 10 ^ (-(fraction.length : Int))) := by
  have h := Denotes.intro hwhole hsome (.point hfraction) .none (.inl (List.cons_ne_nil _ _))
  rwa [List.append_nil, zero_sub] at h

variable {digits : List Char}

theorem spread_of_neg {leading : Int} (h : leading < 0) :
    spread digits leading =
      '0' :: '.' :: (List.replicate (-leading - 1).toNat '0' ++ digits) := by
  unfold spread
  rw [if_pos h]

theorem spread_of_length_le {leading : Int} (h : 0 ≤ leading)
    (hlength : digits.length ≤ leading.toNat + 1) :
    spread digits leading =
      digits ++ List.replicate (leading.toNat + 1 - digits.length) '0' ++ '.' :: ['0'] := by
  unfold spread
  rw [if_neg (not_lt.2 h)]
  simp only [List.take_of_length_le hlength, List.drop_of_length_le hlength]
  rfl

theorem spread_of_lt_length {leading : Int} (h : 0 ≤ leading)
    (hlength : leading.toNat + 1 < digits.length) :
    spread digits leading =
      digits.take (leading.toNat + 1) ++ '.' :: digits.drop (leading.toNat + 1) := by
  have hfraction : digits.drop (leading.toNat + 1) ≠ [] := by
    rw [Ne, List.drop_eq_nil_iff]
    omega
  unfold spread
  rw [if_neg (not_lt.2 h)]
  simp [hfraction, Nat.sub_eq_zero_of_le hlength.le]

theorem denotes_spread_of_neg (hdigits : IsDigits digits) {leading : Int} (h : leading < 0) :
    Denotes (spread digits leading)
      (appendDigits 0 digits * 10 ^ (leading + 1 - digits.length)) := by
  generalize hcount : (-leading - 1).toNat = count
  have hden := denotes_positional (isDigits_zeros 1) (List.cons_ne_nil _ _)
    ((isDigits_zeros count).append hdigits)
  have hvalue : appendDigits 0 (List.replicate 1 '0' ++ (List.replicate count '0' ++ digits)) =
      appendDigits 0 digits := by
    rw [← List.append_assoc, appendDigits_append, List.replicate_append_replicate,
      appendDigits_zeros, Nat.zero_mul]
  have hexponent : -((List.replicate count '0' ++ digits).length : Int) =
      leading + 1 - digits.length := by
    rw [List.length_append, List.length_replicate]
    omega
  rw [hvalue, hexponent] at hden
  rw [spread_of_neg h, hcount]
  exact hden

/-- All digits are in front of the point. -/
theorem denotes_spread_of_length_le (hdigits : IsDigits digits) {leading : Int} (h : 0 ≤ leading)
    (hlength : digits.length ≤ leading.toNat + 1) (hsome : digits ≠ []) :
    Denotes (spread digits leading)
      (appendDigits 0 digits * 10 ^ (leading + 1 - digits.length)) := by
  have hspread := spread_of_length_le h hlength
  generalize hcount : leading.toNat + 1 - digits.length = count at hspread
  have hden := denotes_positional (hdigits.append (isDigits_zeros count))
    (List.append_ne_nil_of_left_ne_nil hsome _) (isDigits_zeros 1)
  have hvalue : appendDigits 0 (digits ++ List.replicate count '0' ++ ['0']) =
      appendDigits 0 digits * 10 ^ (count + 1) := by
    rw [List.append_assoc, ← List.replicate_one, List.replicate_append_replicate,
      appendDigits_append, appendDigits_zeros]
  have hexponent : leading + 1 - (digits.length : Int) = ((count + 1 : Nat) : Int) + -1 := by omega
  rw [hspread, hexponent, zpow_add₀ (by norm_num), zpow_natCast, ← mul_assoc]
  rw [List.replicate_one, hvalue] at hden
  exact_mod_cast hden

/-- The point is among the digits. -/
theorem denotes_spread_of_lt_length (hdigits : IsDigits digits) {leading : Int} (h : 0 ≤ leading)
    (hlength : leading.toNat + 1 < digits.length) :
    Denotes (spread digits leading)
      (appendDigits 0 digits * 10 ^ (leading + 1 - digits.length)) := by
  have hwhole : digits.take (leading.toNat + 1) ≠ [] := by
    rw [Ne, List.take_eq_nil_iff]
    rintro (h | rfl)
    · omega
    · exact absurd hlength (Nat.not_lt_zero _)
  have hrest : IsDigits (digits.drop (leading.toNat + 1)) :=
    fun c hc => hdigits c (List.mem_of_mem_drop hc)
  have hden := denotes_positional (fun c hc => hdigits c (List.mem_of_mem_take hc)) hwhole hrest
  have hexponent : -((digits.drop (leading.toNat + 1)).length : Int) =
      leading + 1 - digits.length := by
    rw [List.length_drop]
    omega
  rw [spread_of_lt_length h hlength]
  rwa [List.take_append_drop, hexponent] at hden

theorem denotes_spread (hdigits : IsDigits digits) (hsome : digits ≠ []) (leading : Int) :
    Denotes (spread digits leading)
      (appendDigits 0 digits * 10 ^ (leading + 1 - digits.length)) := by
  rcases lt_or_ge leading 0 with hneg | hpos
  · exact denotes_spread_of_neg hdigits hneg
  · rcases Nat.lt_or_ge (leading.toNat + 1) digits.length with hlt | hle
    · exact denotes_spread_of_lt_length hdigits hpos hlt
    · exact denotes_spread_of_length_le hdigits hpos hle hsome

/-- The exponent of a number that is not written positionally. -/
theorem spellsExponent_scientific (plus : Bool) (leading : Int) :
    SpellsExponent
      ('e' :: ((if leading < 0 then ['-'] else if plus then ['+'] else []) ++
        Decimal.digits leading.natAbs)) leading := by
  have hpower : ∀ {sign : List Char} {negative : Bool}, SpellsSign sign negative →
      (if negative then -(leading.natAbs : Int) else leading.natAbs) = leading →
      SpellsExponent ('e' :: (sign ++ Decimal.digits leading.natAbs)) leading := by
    intro sign negative hsign hvalue
    have h := SpellsExponent.power (.inl rfl) hsign (isDigits_digits leading.natAbs)
      (Decimal.digits_ne_nil _)
    rwa [appendDigits_digits, hvalue] at h
  split
  · next hneg =>
    have habs : -(leading.natAbs : Int) = leading := by omega
    exact hpower .minus habs
  · next hpos =>
    have habs : (leading.natAbs : Int) = leading := by omega
    split
    · exact hpower .plus habs
    · exact hpower .none habs

theorem denotes_scientific (plus : Bool) (hdigits : IsDigits digits) (hsome : digits ≠ [])
    (leading : Int) :
    Denotes (scientific plus digits leading)
      (appendDigits 0 digits * 10 ^ (leading + 1 - digits.length)) := by
  obtain ⟨d, rest, rfl⟩ := List.exists_cons_of_ne_nil hsome
  obtain ⟨hd, hrest⟩ := List.forall_mem_cons.1 hdigits
  have hwhole : IsDigits [d] := List.forall_mem_singleton.2 hd
  have hexponent : leading + 1 - ((d :: rest).length : Int) = leading - rest.length := by
    rw [List.length_cons]
    omega
  have hpower := spellsExponent_scientific plus leading
  rw [hexponent]
  -- a lone digit is written without the point
  cases rest with
  | nil =>
    exact .intro hwhole (List.cons_ne_nil _ _) .none hpower (.inr (List.cons_ne_nil _ _))
  | cons c rest =>
    have h := Denotes.intro hwhole (List.cons_ne_nil _ _) (.point hrest) hpower
      (.inl (List.cons_ne_nil _ _))
    simpa [scientific] using h

/-- **The text of a magnitude stands for its shortest decimal**, in every layout. -/
theorem denotes_magnitude (layout : Layout) (x : Magnitude) :
    Denotes (layout.magnitude x) x.shortest.value := by
  have hexponent : x.shortest.exponent + ((Decimal.digits x.shortest.coefficient).length : Int) -
      1 + 1 - (Decimal.digits x.shortest.coefficient).length = x.shortest.exponent := by omega
  have hvalue := appendDigits_digits x.shortest.coefficient
  have hdigits := isDigits_digits x.shortest.coefficient
  have hsome := Decimal.digits_ne_nil x.shortest.coefficient
  unfold magnitude Decimal.value
  dsimp only
  generalize Decimal.digits x.shortest.coefficient = digits at hexponent hvalue hdigits hsome ⊢
  generalize hleading : x.shortest.exponent + (digits.length : Int) - 1 = leading at hexponent ⊢
  rw [← hvalue, ← hexponent]
  split
  · exact denotes_spread hdigits hsome leading
  · exact denotes_scientific _ hdigits hsome leading

/-- Magnitudes are told apart by their texts. -/
theorem magnitude_inj {layout : Layout} {x y : Magnitude}
    (h : layout.magnitude x = layout.magnitude y) : x = y := by
  have hx := denotes_magnitude layout x
  rw [h] at hx
  exact Magnitude.shortest_value_inj (hx.unique (denotes_magnitude layout y))

/-! ## Signs -/

theorem exists_finite {x : Double} (h : x.isFinite = true) :
    ∃ negative magnitude, x = .finite negative magnitude := by
  cases x with
  | nan => cases h
  | infinity => cases h
  | finite negative magnitude => exact ⟨negative, magnitude, rfl⟩

/-- Finite doubles are told apart by their texts: the sign by the first character, since the text
of a magnitude begins with a digit. -/
theorem double_inj {layout : Layout} {x y : Double} (hx : x.isFinite = true)
    (hy : y.isFinite = true) (h : layout.double x = layout.double y) : x = y := by
  have hsign : ∀ z cs, layout.magnitude z ≠ '-' :: cs := by
    intro z cs heq
    obtain ⟨c, rest, hz, hc⟩ := (denotes_magnitude layout z).head
    rw [hz, List.cons.injEq] at heq
    rw [heq.1] at hc
    exact absurd hc (by decide)
  obtain ⟨negative, m, rfl⟩ := exists_finite hx
  obtain ⟨negative', n, rfl⟩ := exists_finite hy
  cases negative <;> cases negative'
  · rw [magnitude_inj (h : layout.magnitude m = layout.magnitude n)]
  · exact absurd h (hsign m _)
  · exact absurd h.symm (hsign n _)
  · rw [magnitude_inj (List.cons.inj h).2]

end JavaAtlas.Layout
