import JavaAtlas.Json.Outline
import JavaAtlas.Proofs.Number.Literal

set_option autoImplicit false

/-! # Blanks, strings and numerals in JSON text

The parts of JSON text that hold no other values, as relations between characters and what they
stand for. The scanner finds each part at the start of a text exactly if it is spelled there: a
string up to the first quote that ends it (`scanString_eq_some_iff`), and a numeral because it takes
the longest run of digits each time (`scanNumeral_append`). -/

namespace JavaAtlas.Json

/-! ## Blanks -/

/-- The blanks of JSON text. -/
def IsBlank (c : Char) : Prop := c = ' ' ∨ c = '\n' ∨ c = '\t' ∨ c = '\r'

instance : DecidablePred IsBlank := fun _ => inferInstanceAs (Decidable (_ ∨ _))

/-- Whether a text has nothing but blanks. -/
def AllBlank (cs : List Char) : Prop := ∀ c ∈ cs, IsBlank c

theorem skipBlank_eq (cs : List Char) :
    skipBlank cs = cs.dropWhile fun c => decide (IsBlank c) := by
  have hblank : (fun c => c == ' ' || c == '\n' || c == '\t' || c == '\r') =
      fun c => decide (IsBlank c) := by
    funext c
    rw [Bool.eq_iff_iff, decide_eq_true_iff]
    simp [IsBlank, or_assoc]
  rw [skipBlank, hblank]

theorem skipBlank_append {blanks : List Char} (h : AllBlank blanks) (cs : List Char) :
    skipBlank (blanks ++ cs) = skipBlank cs := by
  rw [skipBlank_eq, skipBlank_eq, List.dropWhile_append_of_pos (by simpa [AllBlank] using h)]

theorem skipBlank_of_begins {cs : List Char} (h : Literal.Begins (¬IsBlank ·) cs) :
    skipBlank cs = cs := by
  cases cs with
  | nil => rfl
  | cons c cs =>
    rw [skipBlank_eq]
    exact List.dropWhile_cons_of_neg (by simpa using h c rfl)

theorem begins_skipBlank (cs : List Char) : Literal.Begins (¬IsBlank ·) (skipBlank cs) := by
  intro c hc
  rw [skipBlank_eq] at hc
  simpa [Option.mem_def.1 hc] using List.head?_dropWhile_not (fun c => decide (IsBlank c)) cs

theorem exists_blanks (cs : List Char) :
    ∃ blanks, AllBlank blanks ∧ cs = blanks ++ skipBlank cs := by
  refine ⟨cs.takeWhile fun c => decide (IsBlank c), fun c hc => ?_, ?_⟩
  · simpa using List.mem_takeWhile_imp hc
  · rw [skipBlank_eq, List.takeWhile_append_dropWhile]

theorem skipBlank_skipBlank (cs : List Char) : skipBlank (skipBlank cs) = skipBlank cs :=
  skipBlank_of_begins (begins_skipBlank cs)

/-! ## Strings -/

/-- What stands for the pieces of a string between its quotes. -/
inductive SpellsPieces : List Char → List StringPiece → Prop where
  | nil : SpellsPieces [] []
  | unit {a b c d : Char} {n : Nat} {cs : List Char} {pieces : List StringPiece}
      (hunit : hexUnit? a b c d = some n) (hrest : SpellsPieces cs pieces) :
      SpellsPieces ('\\' :: 'u' :: a :: b :: c :: d :: cs) (.unit n :: pieces)
  | escape {e c : Char} {cs : List Char} {pieces : List StringPiece}
      (hescape : escapedChar? e = some c) (hrest : SpellsPieces cs pieces) :
      SpellsPieces ('\\' :: e :: cs) (.char c :: pieces)
  | plain {c : Char} {cs : List Char} {pieces : List StringPiece} (hquote : c ≠ '"')
      (hslash : c ≠ '\\') (hcontrol : 0x20 ≤ c.toNat) (hrest : SpellsPieces cs pieces) :
      SpellsPieces (c :: cs) (.char c :: pieces)

/-- What stands for a string; `none` is a string with half of a surrogate pair. -/
inductive SpellsString : List Char → Option String → Prop where
  | intro {cs : List Char} {pieces : List StringPiece} (hpieces : SpellsPieces cs pieces) :
      SpellsString ('"' :: (cs ++ ['"'])) (assembleString pieces)

theorem scanString_append {text : List Char} {pieces : List StringPiece}
    (h : SpellsPieces text pieces) (rest : List Char) :
    scanString (text ++ '"' :: rest) = some (pieces, rest) := by
  induction h with
  | nil => rfl
  | unit hunit _ ih =>
    simp only [List.cons_append]
    rw [scanString, hunit, ih]
    rfl
  | @escape e c cs pieces hescape _ ih =>
    -- a unit has its own rule, which the scanner tries first
    have hletter : e ≠ 'u' := by
      rintro rfl
      cases hescape
    simp only [List.cons_append]
    rw [scanString]
    · rw [hescape, ih]
      rfl
    · exact fun _ _ _ _ _ h => absurd h hletter
  | plain hquote hslash hcontrol _ ih =>
    rw [List.cons_append, scanString]
    · simp [Nat.not_lt.2 hcontrol, hslash, ih]
    · exact hquote
    · exact fun _ _ _ _ _ h => absurd h hslash
    · exact fun _ _ h => absurd h hslash

theorem exists_pieces {cs rest : List Char} {pieces : List StringPiece}
    (h : scanString cs = some (pieces, rest)) :
    ∃ text, SpellsPieces text pieces ∧ cs = text ++ '"' :: rest := by
  fun_induction scanString cs generalizing pieces with
  | case1 => cases h
  | case2 =>
    cases h
    exact ⟨[], .nil, rfl⟩
  | case3 a b c d cs ih =>
    obtain ⟨n, hunit, h⟩ := Option.bind_eq_some_iff.1 h
    obtain ⟨⟨more, rest'⟩, hmore, h⟩ := Option.bind_eq_some_iff.1 h
    cases h
    obtain ⟨text, htext, rfl⟩ := ih hmore
    exact ⟨_, .unit hunit htext, rfl⟩
  | case4 e cs _ ih =>
    obtain ⟨c, hescape, h⟩ := Option.bind_eq_some_iff.1 h
    obtain ⟨⟨more, rest'⟩, hmore, h⟩ := Option.bind_eq_some_iff.1 h
    cases h
    obtain ⟨text, htext, rfl⟩ := ih hmore
    exact ⟨_, .escape hescape htext, rfl⟩
  | case5 => cases h
  | case6 c cs hquote _ _ hplain ih =>
    rw [Bool.or_eq_true, decide_eq_true_eq, beq_iff_eq, not_or] at hplain
    obtain ⟨⟨more, rest'⟩, hmore, h⟩ := Option.bind_eq_some_iff.1 h
    cases h
    obtain ⟨text, htext, rfl⟩ := ih hmore
    exact ⟨_, .plain hquote hplain.2 (Nat.not_lt.1 hplain.1) htext, rfl⟩

/-- A string ends at the first quote that is not escaped. -/
theorem scanString_eq_some_iff {cs rest : List Char} {pieces : List StringPiece} :
    scanString cs = some (pieces, rest) ↔
      ∃ text, SpellsPieces text pieces ∧ cs = text ++ '"' :: rest :=
  ⟨exists_pieces, fun ⟨_, htext, hcs⟩ => hcs ▸ scanString_append htext rest⟩

/-! ## Numerals -/

/-- What stands for the sign of a numeral. -/
inductive SpellsMinus : List Char → Bool → Prop where
  | none : SpellsMinus [] false
  | minus : SpellsMinus ['-'] true

/-- Whether digits are the whole part of a numeral, which has no needless zero in front. -/
def IsWhole (digits : List Char) : Prop :=
  Literal.IsDigits digits ∧ digits ≠ [] ∧ ¬(digits.head? = some '0' ∧ digits.length > 1)

/-- What stands for the digits behind the point. -/
inductive SpellsFraction : List Char → Option (List Char) → Prop where
  | none : SpellsFraction [] none
  | point {digits : List Char} (hdigits : Literal.IsDigits digits) (hsome : digits ≠ []) :
      SpellsFraction ('.' :: digits) (some digits)

/-- What stands for an exponent. -/
inductive SpellsExponent : List Char → Option Int → Prop where
  | none : SpellsExponent [] none
  | power {letter : Char} {sign digits : List Char} {negative : Bool}
      (hletter : letter = 'e' ∨ letter = 'E') (hsign : Literal.SpellsSign sign negative)
      (hdigits : Literal.IsDigits digits) (hsome : digits ≠ []) :
      SpellsExponent (letter :: (sign ++ digits))
        (some (if negative then -(digitsValue digits : Int) else digitsValue digits))

/-- What stands for a numeral. -/
inductive SpellsNumeral : List Char → Numeral → Prop where
  | intro {minus whole point power : List Char} {negative : Bool} {fraction : Option (List Char)}
      {exponent : Option Int} (hminus : SpellsMinus minus negative) (hwhole : IsWhole whole)
      (hpoint : SpellsFraction point fraction) (hpower : SpellsExponent power exponent) :
      SpellsNumeral (minus ++ (whole ++ (point ++ power))) ⟨negative, whole, fraction, exponent⟩

/-- Whether no numeral goes on with the character. -/
def EndsNumeral (c : Char) : Prop := c.isDigit = false ∧ c ≠ '.' ∧ c ≠ 'e' ∧ c ≠ 'E'

theorem scanDigits_eq_some_iff {cs digits rest : List Char} :
    scanDigits cs = some (digits, rest) ↔ cs = digits ++ rest ∧ Literal.IsDigits digits ∧
      digits ≠ [] ∧ Literal.Begins (·.isDigit = false) rest := by
  have hspan : scanDigits cs = some (digits, rest) ↔
      cs.span Char.isDigit = (digits, rest) ∧ digits ≠ [] := by
    unfold scanDigits
    rcases cs.span Char.isDigit with ⟨_ | ⟨c, found⟩, tail⟩
    · simp +contextual [eq_comm]
    · simp
      rintro rfl -
      exact List.cons_ne_nil _ _
  rw [hspan, Literal.span_isDigit_eq_iff]
  tauto

theorem scanWhole_eq_some_iff {cs digits rest : List Char} :
    scanWhole cs = some (digits, rest) ↔
      cs = digits ++ rest ∧ IsWhole digits ∧ Literal.Begins (·.isDigit = false) rest := by
  unfold scanWhole
  simp only [Option.bind_eq_bind, Option.bind_eq_some_iff, Prod.exists, scanDigits_eq_some_iff,
    Option.ite_none_left_eq_some, Option.some.injEq, Prod.mk.injEq, IsWhole]
  constructor
  · rintro ⟨_, _, ⟨rfl, hdigits, hsome, hrest⟩, hwhole, rfl, rfl⟩
    exact ⟨rfl, ⟨hdigits, hsome, hwhole⟩, hrest⟩
  · rintro ⟨rfl, ⟨hdigits, hsome, hwhole⟩, hrest⟩
    exact ⟨_, _, ⟨rfl, hdigits, hsome, hrest⟩, hwhole, rfl, rfl⟩

/-- The sign of a numeral, and the text after it. -/
def takeMinus (cs : List Char) : Bool × List Char :=
  match cs with
  | '-' :: rest => (true, rest)
  | _ => (false, cs)

/-- The digits behind the point, if there is a point, and the text after them. -/
def scanFraction (cs : List Char) : Option (Option (List Char) × List Char) :=
  match cs with
  | '.' :: rest => (scanDigits rest).map fun (digits, rest) => (some digits, rest)
  | _ => some (none, cs)

/-- The exponent, if there is one, and the text after it. -/
def scanPower (cs : List Char) : Option (Option Int × List Char) :=
  match cs with
  | 'e' :: rest | 'E' :: rest => (scanExponent rest).map fun (value, rest) => (some value, rest)
  | _ => some (none, cs)

theorem scanFraction_of_ne {cs : List Char} (h : ∀ rest, cs ≠ '.' :: rest) :
    scanFraction cs = some (none, cs) := by
  unfold scanFraction
  split
  · exact absurd rfl (h _)
  · rfl

theorem scanPower_of_ne {cs : List Char} (hlower : ∀ rest, cs ≠ 'e' :: rest)
    (hupper : ∀ rest, cs ≠ 'E' :: rest) : scanPower cs = some (none, cs) := by
  unfold scanPower
  split
  · exact absurd rfl (hlower _)
  · exact absurd rfl (hupper _)
  · rfl

theorem scanNumeral_eq (cs : List Char) :
    scanNumeral cs =
      (scanWhole (takeMinus cs).2).bind fun (whole, tail) =>
        (scanFraction tail).bind fun (fraction, tail) =>
          (scanPower tail).bind fun (exponent, rest) =>
            some (⟨(takeMinus cs).1, whole, fraction, exponent⟩, rest) := by
  unfold scanNumeral
  split
  next negative tail htake =>
  have hminus : takeMinus cs = (negative, tail) := htake
  rw [hminus]
  refine Option.bind_congr fun ⟨whole, tail⟩ _ => ?_
  dsimp only
  split
  · refine Option.bind_congr fun ⟨fraction, tail⟩ _ => ?_
    dsimp only
    split
    · rfl
    · rfl
    · next hlower hupper =>
      rw [scanPower_of_ne hlower hupper]
      rfl
  · next hpoint =>
    rw [scanFraction_of_ne hpoint]
    dsimp only [Option.bind_eq_bind, Option.bind_some]
    split
    · rfl
    · rfl
    · next hlower hupper =>
      rw [scanPower_of_ne hlower hupper]
      rfl

theorem scanExponent_eq (cs : List Char) :
    scanExponent cs = (scanDigits (Literal.takeSign cs).2).bind fun (digits, rest) =>
      some (if (Literal.takeSign cs).1 then -(digitsValue digits : Int) else digitsValue digits,
        rest) := by
  unfold scanExponent
  split
  next negative tail htake =>
  have hsign : Literal.takeSign cs = (negative, tail) := by
    rw [← htake]
    cases cs with
    | nil => rfl
    | cons c cs =>
      by_cases hplus : c = '+'
      · subst hplus
        rfl
      · by_cases hminus : c = '-'
        · subst hminus
          rfl
        · simp [Literal.takeSign, hplus, hminus]
  rw [hsign]
  rfl

theorem begins_append {p : Char → Prop} {xs ys : List Char} (hxs : Literal.Begins p xs)
    (hys : Literal.Begins p ys) : Literal.Begins p (xs ++ ys) := by
  cases xs with
  | nil => exact hys
  | cons c xs => exact hxs

theorem begins_of_imp {p q : Char → Prop} (h : ∀ c, p c → q c) {cs : List Char}
    (hcs : Literal.Begins p cs) : Literal.Begins q cs :=
  fun c hc => h c (hcs c hc)

theorem takeMinus_append {minus rest : List Char} {negative : Bool}
    (h : SpellsMinus minus negative) (hrest : Literal.Begins (· ≠ '-') rest) :
    takeMinus (minus ++ rest) = (negative, rest) := by
  cases h with
  | minus => rfl
  | none =>
    rw [List.nil_append]
    unfold takeMinus
    split
    · exact absurd rfl (hrest '-' rfl)
    · rfl

theorem exists_minus {cs rest : List Char} {negative : Bool} (h : takeMinus cs = (negative, rest)) :
    ∃ minus, SpellsMinus minus negative ∧ cs = minus ++ rest := by
  unfold takeMinus at h
  split at h
  all_goals cases h
  · exact ⟨['-'], .minus, rfl⟩
  · exact ⟨[], .none, rfl⟩

theorem scanFraction_append {point rest : List Char} {fraction : Option (List Char)}
    (h : SpellsFraction point fraction)
    (hrest : Literal.Begins (fun c => c.isDigit = false ∧ c ≠ '.') rest) :
    scanFraction (point ++ rest) = some (fraction, rest) := by
  cases h with
  | none =>
    rw [List.nil_append]
    exact scanFraction_of_ne fun more heq => (hrest '.' (by rw [heq]; rfl)).2 rfl
  | @point digits hdigits hsome =>
    have hscan : scanDigits (digits ++ rest) = some (digits, rest) :=
      scanDigits_eq_some_iff.2 ⟨rfl, hdigits, hsome, begins_of_imp (fun _ hc => hc.1) hrest⟩
    show (scanDigits (digits ++ rest)).map _ = _
    rw [hscan]
    rfl

theorem exists_point {cs rest : List Char} {fraction : Option (List Char)}
    (h : scanFraction cs = some (fraction, rest)) :
    ∃ point, SpellsFraction point fraction ∧ cs = point ++ rest := by
  unfold scanFraction at h
  split at h
  · obtain ⟨⟨digits, tail⟩, hscan, hfound⟩ := Option.map_eq_some_iff.1 h
    cases hfound
    obtain ⟨rfl, hdigits, hsome, -⟩ := scanDigits_eq_some_iff.1 hscan
    exact ⟨_, .point hdigits hsome, rfl⟩
  · cases h
    exact ⟨[], .none, rfl⟩

theorem scanPower_append {power rest : List Char} {exponent : Option Int}
    (h : SpellsExponent power exponent) (hrest : Literal.Begins EndsNumeral rest) :
    scanPower (power ++ rest) = some (exponent, rest) := by
  cases h with
  | none =>
    rw [List.nil_append]
    refine scanPower_of_ne (fun more heq => ?_) (fun more heq => ?_)
    · exact (hrest 'e' (by rw [heq]; rfl)).2.2.1 rfl
    · exact (hrest 'E' (by rw [heq]; rfl)).2.2.2 rfl
  | @power letter sign digits negative hletter hsign hdigits hsome =>
    have hscan : scanDigits (digits ++ rest) = some (digits, rest) :=
      scanDigits_eq_some_iff.2 ⟨rfl, hdigits, hsome, begins_of_imp (fun _ hc => hc.1) hrest⟩
    have htake : Literal.takeSign (sign ++ (digits ++ rest)) = (negative, digits ++ rest) := by
      refine Literal.takeSign_append hsign ?_
      cases digits with
      | nil => exact absurd rfl hsome
      | cons d digits => exact hdigits.noSign
    have hexponent : scanExponent (sign ++ (digits ++ rest)) =
        some (if negative then -(digitsValue digits : Int) else digitsValue digits, rest) := by
      rw [scanExponent_eq, htake, hscan]
      rfl
    rw [List.cons_append, List.append_assoc]
    rcases hletter with rfl | rfl
    all_goals
      show (scanExponent _).map _ = _
      rw [hexponent]
      rfl

theorem exists_power {cs rest : List Char} {exponent : Option Int}
    (h : scanPower cs = some (exponent, rest)) :
    ∃ power, SpellsExponent power exponent ∧ cs = power ++ rest := by
  have hexponent : ∀ {letter : Char} {cs : List Char}, (letter = 'e' ∨ letter = 'E') →
      (scanExponent cs).map (fun (value, rest) => (some value, rest)) = some (exponent, rest) →
        ∃ power, SpellsExponent power exponent ∧ letter :: cs = power ++ rest := by
    intro letter cs hletter hscan
    obtain ⟨⟨value, tail⟩, hvalue, hfound⟩ := Option.map_eq_some_iff.1 hscan
    cases hfound
    obtain ⟨negative, tail, htake⟩ : ∃ negative tail, Literal.takeSign cs = (negative, tail) :=
      ⟨_, _, rfl⟩
    obtain ⟨sign, hsign, rfl⟩ := Literal.exists_sign htake
    rw [scanExponent_eq, htake] at hvalue
    obtain ⟨⟨digits, rest⟩, hdigits, hfound⟩ := Option.bind_eq_some_iff.1 hvalue
    cases hfound
    obtain ⟨rfl, hdigits, hsome, -⟩ := scanDigits_eq_some_iff.1 hdigits
    exact ⟨_, .power hletter hsign hdigits hsome, by simp⟩
  unfold scanPower at h
  split at h
  · exact hexponent (.inl rfl) h
  · exact hexponent (.inr rfl) h
  · cases h
    exact ⟨[], .none, rfl⟩

/-- A numeral is found if none goes on behind it. -/
theorem scanNumeral_append {text rest : List Char} {numeral : Numeral}
    (h : SpellsNumeral text numeral) (hrest : Literal.Begins EndsNumeral rest) :
    scanNumeral (text ++ rest) = some (numeral, rest) := by
  obtain ⟨hminus, hwhole, hpoint, hpower⟩ := h
  rename_i minus whole point power negative fraction exponent
  -- no part begins with a character with which the part before it could go on
  have hpowerRest : Literal.Begins (fun c => c.isDigit = false ∧ c ≠ '.') (power ++ rest) := by
    refine begins_append ?_ (begins_of_imp (fun c hc => ⟨hc.1, hc.2.1⟩) hrest)
    cases hpower with
    | none => exact fun _ hc => nomatch hc
    | power hletter =>
      rintro _ ⟨⟩
      rcases hletter with rfl | rfl <;> decide
  have hpointRest : Literal.Begins (·.isDigit = false) (point ++ (power ++ rest)) := by
    refine begins_append ?_ (begins_of_imp (fun c hc => hc.1) hpowerRest)
    cases hpoint with
    | none => exact fun _ hc => nomatch hc
    | point =>
      rintro _ ⟨⟩
      rfl
  have htake : takeMinus (minus ++ (whole ++ (point ++ (power ++ rest)))) =
      (negative, whole ++ (point ++ (power ++ rest))) := by
    refine takeMinus_append hminus ?_
    cases whole with
    | nil => exact absurd rfl hwhole.2.1
    | cons d digits => exact begins_of_imp (fun _ hc => hc.1) hwhole.1.noSign
  simp only [List.append_assoc]
  rw [scanNumeral_eq, htake, scanWhole_eq_some_iff.2 ⟨rfl, hwhole, hpointRest⟩]
  simp only [Option.bind_some, scanFraction_append hpoint hpowerRest,
    scanPower_append hpower hrest]

theorem exists_numeral {cs rest : List Char} {numeral : Numeral}
    (h : scanNumeral cs = some (numeral, rest)) :
    ∃ text, SpellsNumeral text numeral ∧ cs = text ++ rest := by
  obtain ⟨negative, tail, htake⟩ : ∃ negative tail, takeMinus cs = (negative, tail) := ⟨_, _, rfl⟩
  rw [scanNumeral_eq, htake] at h
  obtain ⟨⟨whole, afterWhole⟩, hscanWhole, h⟩ := Option.bind_eq_some_iff.1 h
  obtain ⟨⟨fraction, afterPoint⟩, hscanPoint, h⟩ := Option.bind_eq_some_iff.1 h
  obtain ⟨⟨exponent, afterPower⟩, hscanPower, h⟩ := Option.bind_eq_some_iff.1 h
  cases h
  obtain ⟨minus, hminus, rfl⟩ := exists_minus htake
  obtain ⟨rfl, hwhole, -⟩ := scanWhole_eq_some_iff.1 hscanWhole
  obtain ⟨point, hpoint, rfl⟩ := exists_point hscanPoint
  obtain ⟨power, hpower, rfl⟩ := exists_power hscanPower
  exact ⟨_, .intro hminus hwhole hpoint hpower, by simp⟩

theorem SpellsNumeral.begins {text : List Char} {numeral : Numeral}
    (h : SpellsNumeral text numeral) :
    ∃ c cs, text = c :: cs ∧ (c = '-' ∨ c.isDigit = true) := by
  obtain ⟨hminus, hwhole, -, -⟩ := h
  cases hminus with
  | minus => exact ⟨_, _, rfl, .inl rfl⟩
  | none =>
    obtain ⟨hdigits, hsome, -⟩ := hwhole
    rename_i whole _ _ _ _
    cases whole with
    | nil => exact absurd rfl hsome
    | cons d digits => exact ⟨d, _, rfl, .inr (hdigits d List.mem_cons_self)⟩

end JavaAtlas.Json
