import Mathlib.Data.List.TakeDrop
import Mathlib.Data.List.TakeWhile
import JavaAtlas.Proofs.Number.Digits

set_option autoImplicit false

/-! # The grammar of floating-point literals

`Spells` says what the texts of literals are and which doubles they stand for, part by part: a sign,
digits with a point, an exponent. The scanner takes the longest run of digits and the first sign
that it sees, and since no part of a literal begins as its neighbour goes on, it accepts exactly
these texts (`double?_eq_some_iff`). -/

namespace JavaAtlas.Literal

/-! ## Grammar -/

/-- Decimal digits, possibly none. -/
def IsDigits (cs : List Char) : Prop := ∀ c ∈ cs, c.isDigit = true

/-- What stands for a sign; the second part says whether it is a minus. -/
inductive SpellsSign : List Char → Bool → Prop where
  | none : SpellsSign [] false
  | plus : SpellsSign ['+'] false
  | minus : SpellsSign ['-'] true

/-- What stands for the digits behind the point. -/
inductive SpellsFraction : List Char → List Char → Prop where
  | none : SpellsFraction [] []
  | point {digits : List Char} (hdigits : IsDigits digits) : SpellsFraction ('.' :: digits) digits

/-- What stands for an exponent. -/
inductive SpellsExponent : List Char → Int → Prop where
  | none : SpellsExponent [] 0
  | power {letter : Char} {sign digits : List Char} {negative : Bool}
      (hletter : letter = 'e' ∨ letter = 'E') (hsign : SpellsSign sign negative)
      (hdigits : IsDigits digits) (hsome : digits ≠ []) :
      SpellsExponent (letter :: (sign ++ digits))
        (if negative then -(appendDigits 0 digits : Int) else appendDigits 0 digits)

/-- What stands for a number of decimal digits. -/
inductive SpellsDecimal (negative : Bool) : List Char → Double → Prop where
  | intro {whole point fraction power : List Char} {exponent : Int} (hwhole : IsDigits whole)
      (hpoint : SpellsFraction point fraction) (hsome : whole ≠ [] ∨ fraction ≠ [])
      (hpower : SpellsExponent power exponent) :
      SpellsDecimal negative (whole ++ (point ++ power))
        (.ofDecimal negative (appendDigits 0 (whole ++ fraction)) (exponent - fraction.length))

/-- The word, in any letter case. -/
def IsWord (word : String) (cs : List Char) : Prop := String.ofList (cs.map Char.toLower) = word

instance (word : String) : DecidablePred (IsWord word) :=
  fun _ => inferInstanceAs (Decidable (_ = _))

/-- What stands for a double, but for its sign. -/
inductive SpellsMagnitude (negative : Bool) : List Char → Double → Prop where
  | infinity {cs : List Char} (hword : IsWord "inf" cs ∨ IsWord "infinity" cs) :
      SpellsMagnitude negative cs (.infinity negative)
  | nan {cs : List Char} (hword : IsWord "nan" cs) : SpellsMagnitude negative cs (.nan negative)
  | decimal {cs : List Char} {x : Double} (hdecimal : SpellsDecimal negative cs x) :
      SpellsMagnitude negative cs x

/-- What stands for a double. -/
inductive Spells : List Char → Double → Prop where
  | intro {sign rest : List Char} {negative : Bool} {x : Double} (hsign : SpellsSign sign negative)
      (hrest : SpellsMagnitude negative rest x) : Spells (sign ++ rest) x

/-! ## How the parts of a literal begin -/

/-- Whether the text is empty or begins with a character that satisfies `p`. -/
def Begins (p : Char → Prop) (cs : List Char) : Prop := ∀ c ∈ cs.head?, p c

/-- Whether a character is neither sign. -/
def NoSign (c : Char) : Prop := c ≠ '-' ∧ c ≠ '+'

instance : DecidablePred NoSign := fun _ => inferInstanceAs (Decidable (_ ∧ _))

theorem IsDigits.append {xs ys : List Char} (hxs : IsDigits xs) (hys : IsDigits ys) :
    IsDigits (xs ++ ys) :=
  List.forall_mem_append.2 ⟨hxs, hys⟩

theorem isDigits_digits (n : Nat) : IsDigits (Decimal.digits n) :=
  fun _ => Decimal.isDigit_of_mem_digits

theorem isDigits_zeros (count : Nat) : IsDigits (List.replicate count '0') := by
  intro c hc
  rw [List.eq_of_mem_replicate hc]
  rfl

theorem IsDigits.noSign {cs : List Char} (h : IsDigits cs) : Begins NoSign cs := by
  intro c hc
  have hdigit := h c (List.mem_of_mem_head? hc)
  constructor <;> rintro rfl <;> exact absurd hdigit (by decide)

theorem SpellsExponent.begins {cs : List Char} {exponent : Int} (h : SpellsExponent cs exponent) :
    Begins (fun c => c = 'e' ∨ c = 'E') cs := by
  cases h with
  | none => exact fun _ hc => nomatch hc
  | power hletter =>
    rintro _ ⟨⟩
    exact hletter

theorem SpellsDecimal.begins {negative : Bool} {cs : List Char} {x : Double}
    (h : SpellsDecimal negative cs x) :
    ∃ c rest, cs = c :: rest ∧ (c.isDigit = true ∨ c = '.') := by
  obtain ⟨hwhole, hpoint, hsome, -⟩ := h
  rename_i whole point fraction power exponent
  cases whole with
  | cons c whole => exact ⟨c, _, rfl, .inl (hwhole c List.mem_cons_self)⟩
  | nil =>
    cases hpoint with
    | none => exact absurd rfl (hsome.resolve_left (not_not_intro rfl))
    | point => exact ⟨'.', _, rfl, .inr rfl⟩

theorem IsWord.head?_eq {word : String} {cs : List Char} (h : IsWord word cs) :
    cs.head?.map Char.toLower = word.toList.head? := by
  rw [← h, String.toList_ofList, List.head?_map]

theorem IsWord.noSign {word : String} {cs : List Char} (h : IsWord word cs) {first : Char}
    (hfirst : word.toList.head? = some first) (hsign : NoSign first) : Begins NoSign cs := by
  intro c hc
  have hhead := h.head?_eq
  rw [hfirst, Option.mem_def.1 hc, Option.map_some, Option.some.injEq] at hhead
  obtain ⟨hminus, hplus⟩ := hhead ▸ hsign
  -- a sign is its own lower case
  constructor <;> rintro rfl
  · exact hminus rfl
  · exact hplus rfl

theorem toLower_of_isDigit_or_point {c : Char} (h : c.isDigit = true ∨ c = '.') :
    c.toLower = c := by
  rcases h with h | rfl
  · simp only [Char.isDigit, Bool.and_eq_true, decide_eq_true_eq] at h
    have hlow : ¬('A'.val ≤ c.val) := by
      intro hupper
      exact absurd (UInt32.le_trans hupper h.2) (by decide)
    unfold Char.toLower
    rw [dif_neg fun hc => hlow hc.1]
  · rfl

/-- A number of decimal digits is no word that begins with a letter. -/
theorem SpellsDecimal.not_isWord {negative : Bool} {cs : List Char} {x : Double}
    (h : SpellsDecimal negative cs x) {word : String} {first : Char}
    (hfirst : word.toList.head? = some first) (hletter : ¬(first.isDigit = true ∨ first = '.')) :
    ¬IsWord word cs := by
  intro hcs
  obtain ⟨c, rest, rfl, hc⟩ := h.begins
  have hhead := hcs.head?_eq
  rw [hfirst, List.head?_cons, Option.map_some, toLower_of_isDigit_or_point hc,
    Option.some.injEq] at hhead
  exact hletter (hhead ▸ hc)

theorem SpellsMagnitude.noSign {negative : Bool} {cs : List Char} {x : Double}
    (h : SpellsMagnitude negative cs x) : Begins NoSign cs := by
  cases h with
  | infinity hword =>
    rcases hword with hword | hword
    · exact hword.noSign rfl (by decide)
    · exact hword.noSign rfl (by decide)
  | nan hword => exact hword.noSign rfl (by decide)
  | decimal hdecimal =>
    obtain ⟨c, rest, rfl, hstart⟩ := hdecimal.begins
    rintro _ ⟨⟩
    constructor <;> rintro rfl <;> exact absurd hstart (by decide)

/-! ## Signs -/

theorem takeSign_append {sign rest : List Char} {negative : Bool} (hsign : SpellsSign sign negative)
    (hrest : Begins NoSign rest) : takeSign (sign ++ rest) = (negative, rest) := by
  cases hsign with
  | plus => rfl
  | minus => rfl
  | none =>
    rw [List.nil_append]
    cases rest with
    | nil => rfl
    | cons c rest =>
      obtain ⟨hminus, hplus⟩ := hrest c rfl
      unfold takeSign
      split
      · next h => exact absurd (List.cons.inj h).1 hminus
      · next h => exact absurd (List.cons.inj h).1 hplus
      · rfl

theorem exists_sign {cs rest : List Char} {negative : Bool} (h : takeSign cs = (negative, rest)) :
    ∃ sign, SpellsSign sign negative ∧ cs = sign ++ rest := by
  unfold takeSign at h
  split at h
  all_goals cases h
  · exact ⟨['-'], .minus, rfl⟩
  · exact ⟨['+'], .plus, rfl⟩
  · exact ⟨[], .none, rfl⟩

/-! ## Digits -/

/-- The scanner takes the longest run of digits. -/
theorem span_isDigit_eq_iff {cs digits rest : List Char} :
    cs.span Char.isDigit = (digits, rest) ↔
      cs = digits ++ rest ∧ IsDigits digits ∧ Begins (·.isDigit = false) rest := by
  rw [List.span_eq_takeWhile_dropWhile, Prod.mk.injEq]
  constructor
  · rintro ⟨rfl, rfl⟩
    refine ⟨List.takeWhile_append_dropWhile.symm, fun c hc => List.mem_takeWhile_imp hc, ?_⟩
    intro c hc
    simpa [Option.mem_def.1 hc] using List.head?_dropWhile_not Char.isDigit cs
  · rintro ⟨rfl, hdigits, hrest⟩
    have hnone : rest.takeWhile Char.isDigit = [] ∧ rest.dropWhile Char.isDigit = rest := by
      cases rest with
      | nil => exact ⟨rfl, rfl⟩
      | cons c rest =>
        have hc : ¬c.isDigit = true := by simp [hrest c rfl]
        exact ⟨List.takeWhile_cons_of_neg hc, List.dropWhile_cons_of_neg hc⟩
    rw [List.takeWhile_append_of_pos hdigits, List.dropWhile_append_of_pos hdigits, hnone.1,
      hnone.2, List.append_nil]
    exact ⟨rfl, rfl⟩

/-! ## Exponents -/

theorem exponent?_cons_eq_some_iff {letter : Char} {rest : List Char} {exponent : Int} :
    exponent? (letter :: rest) = some exponent ↔ (letter = 'e' ∨ letter = 'E') ∧
      IsDigits (takeSign rest).2 ∧ (takeSign rest).2 ≠ [] ∧
        (if (takeSign rest).1 then -(appendDigits 0 (takeSign rest).2 : Int)
          else appendDigits 0 (takeSign rest).2) = exponent := by
  simp [exponent?, IsDigits, and_assoc, and_left_comm]

theorem exponent?_eq_some_iff {cs : List Char} {exponent : Int} :
    exponent? cs = some exponent ↔ SpellsExponent cs exponent := by
  constructor
  · intro h
    cases cs with
    | nil =>
      obtain rfl := Option.some.inj h
      exact .none
    | cons letter rest =>
      obtain ⟨negative, digits, hsplit⟩ : ∃ negative digits, takeSign rest = (negative, digits) :=
        ⟨_, _, rfl⟩
      rw [exponent?_cons_eq_some_iff, hsplit] at h
      obtain ⟨hletter, hdigits, hsome, rfl⟩ := h
      obtain ⟨sign, hsign, rfl⟩ := exists_sign hsplit
      exact .power hletter hsign hdigits hsome
  · intro h
    cases h with
    | none => rfl
    | power hletter hsign hdigits hsome =>
      rw [exponent?_cons_eq_some_iff, takeSign_append hsign hdigits.noSign]
      exact ⟨hletter, hdigits, hsome, rfl⟩

/-! ## Decimal digits -/

/-- A point, or else the letter of an exponent, ends the digits before it. -/
theorem SpellsFraction.begins_append {point fraction rest : List Char}
    (h : SpellsFraction point fraction) (hrest : Begins (fun c => c = 'e' ∨ c = 'E') rest) :
    Begins (·.isDigit = false) (point ++ rest) := by
  cases h with
  | point =>
    rintro _ ⟨⟩
    rfl
  | none =>
    intro c hc
    rcases hrest c hc with rfl | rfl <;> rfl

/-- The digits behind the point, if there is a point, and what follows them. -/
def takeFraction (cs : List Char) : List Char × List Char :=
  match cs with
  | '.' :: rest => rest.span Char.isDigit
  | _ => ([], cs)

theorem takeFraction_append {point fraction rest : List Char}
    (hpoint : SpellsFraction point fraction) (hrest : Begins (fun c => c = 'e' ∨ c = 'E') rest) :
    takeFraction (point ++ rest) = (fraction, rest) := by
  cases hpoint with
  | point hdigits =>
    refine span_isDigit_eq_iff.2 ⟨rfl, hdigits, fun c hc => ?_⟩
    rcases hrest c hc with rfl | rfl <;> decide
  | none =>
    rw [List.nil_append]
    unfold takeFraction
    split
    · rcases hrest '.' rfl with hpoint | hpoint <;> exact absurd hpoint (by decide)
    · rfl

theorem exists_point {cs fraction rest : List Char} (h : takeFraction cs = (fraction, rest)) :
    ∃ point, SpellsFraction point fraction ∧ cs = point ++ rest := by
  unfold takeFraction at h
  split at h
  · obtain ⟨rfl, hdigits, -⟩ := span_isDigit_eq_iff.1 h
    exact ⟨_, .point hdigits, rfl⟩
  · cases h
    exact ⟨[], .none, rfl⟩

theorem decimal?_eq_some_iff_of_parts {negative : Bool} {cs whole tail fraction rest : List Char}
    (hwhole : cs.span Char.isDigit = (whole, tail))
    (hfraction : takeFraction tail = (fraction, rest)) {x : Double} :
    decimal? negative cs = some x ↔ (whole ≠ [] ∨ fraction ≠ []) ∧
      ∃ exponent, exponent? rest = some exponent ∧
        .ofDecimal negative (appendDigits 0 (whole ++ fraction)) (exponent - fraction.length) =
          x := by
  have hparts : decimal? negative cs =
      if (whole.isEmpty && (takeFraction tail).1.isEmpty) = true then none
      else (exponent? (takeFraction tail).2).bind fun exponent =>
        some (.ofDecimal negative (appendDigits (appendDigits 0 whole) (takeFraction tail).1)
          (exponent - (takeFraction tail).1.length)) := by
    unfold decimal?
    rw [hwhole]
    rfl
  rw [hparts, hfraction, ← appendDigits_append]
  simp only [Option.ite_none_left_eq_some, Bool.and_eq_true, List.isEmpty_iff, not_and_or,
    Option.bind_eq_some_iff, Option.some.injEq, ne_eq]

theorem decimal?_eq_some_iff {negative : Bool} {cs : List Char} {x : Double} :
    decimal? negative cs = some x ↔ SpellsDecimal negative cs x := by
  constructor
  · intro h
    obtain ⟨whole, tail, hspan⟩ : ∃ whole tail, cs.span Char.isDigit = (whole, tail) :=
      ⟨_, _, rfl⟩
    obtain ⟨fraction, rest, htail⟩ : ∃ fraction rest, takeFraction tail = (fraction, rest) :=
      ⟨_, _, rfl⟩
    obtain ⟨hsome, exponent, hexponent, rfl⟩ := (decimal?_eq_some_iff_of_parts hspan htail).1 h
    obtain ⟨rfl, hwhole, -⟩ := span_isDigit_eq_iff.1 hspan
    obtain ⟨point, hpoint, rfl⟩ := exists_point htail
    exact .intro hwhole hpoint hsome (exponent?_eq_some_iff.1 hexponent)
  · rintro ⟨hwhole, hpoint, hsome, hpower⟩
    have hspan := span_isDigit_eq_iff.2 ⟨rfl, hwhole, hpoint.begins_append hpower.begins⟩
    exact (decimal?_eq_some_iff_of_parts hspan (takeFraction_append hpoint hpower.begins)).2
      ⟨hsome, _, exponent?_eq_some_iff.2 hpower, rfl⟩

/-! ## Literals -/

theorem double?_eq {text : String} {negative : Bool} {cs : List Char}
    (h : takeSign text.toList = (negative, cs)) :
    double? text =
      if IsWord "inf" cs ∨ IsWord "infinity" cs then some (.infinity negative)
      else if IsWord "nan" cs then some (.nan negative)
      else decimal? negative cs := by
  unfold double?
  rw [h]
  rfl

/-- **The texts of literals.** The scanner finds a double exactly in the texts that spell it. -/
theorem double?_eq_some_iff {text : String} {x : Double} :
    double? text = some x ↔ Spells text.toList x := by
  constructor
  · intro h
    obtain ⟨negative, rest, hsplit⟩ : ∃ negative rest, takeSign text.toList = (negative, rest) :=
      ⟨_, _, rfl⟩
    obtain ⟨sign, hsign, htext⟩ := exists_sign hsplit
    rw [double?_eq hsplit] at h
    rw [htext]
    refine .intro hsign ?_
    split at h
    · next hword =>
      obtain rfl := Option.some.inj h
      exact .infinity hword
    · split at h
      · next hword =>
        obtain rfl := Option.some.inj h
        exact .nan hword
      · exact .decimal (decimal?_eq_some_iff.1 h)
  · generalize htext : text.toList = cs
    rintro ⟨hsign, hrest⟩
    rw [double?_eq (htext ▸ takeSign_append hsign hrest.noSign)]
    cases hrest with
    | infinity hword => rw [if_pos hword]
    | nan hword =>
      have hother : ∀ word : String, word ≠ "nan" → ¬IsWord word _ :=
        fun word hne hword' => hne (hword'.symm.trans hword)
      rw [if_neg (not_or.2 ⟨hother _ (by decide), hother _ (by decide)⟩), if_pos hword]
    | decimal hdecimal =>
      have hinfinity := not_or.2 ⟨hdecimal.not_isWord (rfl : "inf".toList.head? = _) (by decide),
        hdecimal.not_isWord (rfl : "infinity".toList.head? = _) (by decide)⟩
      rw [if_neg hinfinity, if_neg (hdecimal.not_isWord rfl (by decide))]
      exact decimal?_eq_some_iff.2 hdecimal

example : double? "-.15e+2" = some (.ofDecimal true 15 0) := by decide +kernel

example : double? "+Infinity" = some (.infinity false) ∧ double? "." = none ∧
    double? "1e" = none := by decide +kernel

end JavaAtlas.Literal
