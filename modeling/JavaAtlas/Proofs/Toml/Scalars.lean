import Mathlib.Data.List.TakeDrop
import JavaAtlas.Proofs.Json.Scalars
import JavaAtlas.Toml.Document
import JavaAtlas.Toml.Printer

set_option autoImplicit false

/-! # Integers and booleans are read back

A scalar without quotes is taken up to the first character that cannot be part of one
(`readScalar_append`). The digits of an integer have no needless zero in front and give back its
value (`scalarValue?_intChars`). -/

namespace JavaAtlas.Toml

/-- What the writer puts behind a value: the end of its line, a comma, or the end of the array or
of the table that it is in. -/
inductive Stops : List Char → Prop where
  | line (rest : List Char) : Stops ('\n' :: rest)
  | comma (rest : List Char) : Stops (',' :: rest)
  | bracket (rest : List Char) : Stops (']' :: rest)
  | brace (rest : List Char) : Stops (' ' :: '\x7d' :: rest)

/-- A scalar without quotes is taken up as a whole. -/
theorem readScalar_append {token rest : List Char} {value : Value}
    (htoken : token.all isScalarChar = true) (hvalue : scalarValue? token = some value)
    (hrest : Stops rest) : readScalar (token ++ rest) = some (value, rest) := by
  have hsplit : rest.takeWhile isScalarChar = [] ∧ rest.dropWhile isScalarChar = rest := by
    cases hrest <;> exact ⟨rfl, rfl⟩
  have htake : (token ++ rest).takeWhile isScalarChar = token := by
    rw [List.takeWhile_append_of_pos (List.all_eq_true.1 htoken), hsplit.1, List.append_nil]
  have hdrop : (token ++ rest).dropWhile isScalarChar = rest := by
    rw [List.dropWhile_append_of_pos (List.all_eq_true.1 htoken), hsplit.2]
  unfold readScalar
  simp only [htake, hdrop, hvalue]
  cases hrest with
  | line more => rfl
  | comma more => rfl
  | bracket more => rfl
  | brace more =>
    -- a brace is no digit, so no time of day follows
    have hdigit : Char.isDigit '\x7d' = false := by decide
    simp [hdigit]

/-! ## Booleans -/

theorem readScalar_boolean (b : Bool) {rest : List Char} (hrest : Stops rest) :
    readScalar ((Value.boolean b).chars ++ rest) = some (.boolean b, rest) := by
  cases b with
  | true => exact readScalar_append rfl rfl hrest
  | false => exact readScalar_append rfl rfl hrest

/-! ## Integers -/

theorem ungroup_digits {digits : List Char} (hne : digits ≠ [])
    (h : ∀ c ∈ digits, c.isDigit = true) : ungroup Char.isDigit digits = some digits := by
  induction digits with
  | nil => exact absurd rfl hne
  | cons c rest ih =>
    rw [List.forall_mem_cons] at h
    cases rest with
    | nil => simp [ungroup, h.1]
    | cons d rest =>
      have hd : d ≠ '_' := by
        rintro rfl
        exact absurd (h.2 _ List.mem_cons_self) (by decide)
      simp [ungroup, h.1, hd, ih (List.cons_ne_nil _ _) h.2]

theorem noLeadingZero_digits (n : Nat) : noLeadingZero (Decimal.digits n) = true := by
  rcases Nat.eq_zero_or_pos n with rfl | hpos
  · decide
  · simp [noLeadingZero, Decimal.head?_digits_ne_zero hpos]

/-- The digits of an integer, behind its sign, give back the integer. -/
theorem number?_digits {n : Int64} {negative : Bool}
    (h : (if negative then -(n.toInt.natAbs : Int) else n.toInt.natAbs) = n.toInt) :
    number? negative (Decimal.digits n.toInt.natAbs) = some (.integer n) := by
  have hvalue := Literal.appendDigits_digits n.toInt.natAbs
  have hrange : Int64.minValue.toInt ≤ n.toInt ∧ n.toInt ≤ Int64.maxValue.toInt :=
    ⟨n.minValue_le_toInt, n.toInt_le⟩
  have hinteger : decimalInteger? negative (Decimal.digits n.toInt.natAbs) =
      some (.integer n) := by
    unfold decimalInteger?
    rw [ungroup_digits (Decimal.digits_ne_nil _) fun c => Decimal.isDigit_of_mem_digits]
    show (if noLeadingZero _ = true then _ else _) = _
    rw [if_pos (noLeadingZero_digits _), hvalue, h, integerOf?, if_pos hrange, Int64.ofInt_toInt]
  -- no word is made of digits
  have hword : ∀ c ∈ ['i', 'n'], ∀ cs, Decimal.digits n.toInt.natAbs ≠ c :: cs := by
    intro c hc cs heq
    have hdigit := Decimal.isDigit_of_mem_digits (heq ▸ List.mem_cons_self : c ∈ Decimal.digits _)
    have hletter : ['i', 'n'].all (fun c => !c.isDigit) = true := by decide
    have hnone := List.all_eq_true.1 hletter c hc
    rw [hdigit] at hnone
    exact absurd hnone Bool.false_ne_true
  have hinf : Decimal.digits n.toInt.natAbs ≠ "inf".toList := hword 'i' (by decide) _
  have hnan : Decimal.digits n.toInt.natAbs ≠ "nan".toList := hword 'n' (by decide) _
  unfold number?
  rw [if_neg hinf, if_neg hnan, hinteger]

/-- Digits in front of which there is no sign are read as a number. -/
theorem scalarValue?_digits {cs : List Char} {value : Value} (hne : cs ≠ [])
    (h : ∀ c ∈ cs, c.isDigit = true) (hvalue : number? false cs = some value) :
    scalarValue? cs = some value := by
  obtain ⟨d, ds, rfl⟩ := List.exists_cons_of_ne_nil hne
  rw [List.forall_mem_cons] at h
  have hsign : ∀ c ∈ ['+', '-', 't', 'f'], d ≠ c := by
    rintro c hc rfl
    have hsigns : ['+', '-', 't', 'f'].all (fun c => !c.isDigit) = true := by decide
    have hnone := List.all_eq_true.1 hsigns d hc
    rw [h.1] at hnone
    exact absurd hnone Bool.false_ne_true
  have hradix : ∀ c ∈ ['x', 'o', 'b'], ∀ rest, ds ≠ c :: rest := by
    rintro c hc rest rfl
    have hmarks : ['x', 'o', 'b'].all (fun c => !c.isDigit) = true := by decide
    have hnone := List.all_eq_true.1 hmarks c hc
    rw [h.2 c List.mem_cons_self] at hnone
    exact absurd hnone Bool.false_ne_true
  have htrue : d :: ds ≠ "true".toList := fun heq =>
    hsign 't' (by decide) (List.cons.inj heq).1
  have hfalse : d :: ds ≠ "false".toList := fun heq =>
    hsign 'f' (by decide) (List.cons.inj heq).1
  unfold scalarValue?
  split
  · next heq => exact absurd (List.cons.inj heq).1 (hsign '+' (by decide))
  · next heq => exact absurd (List.cons.inj heq).1 (hsign '-' (by decide))
  · next heq => exact absurd (List.cons.inj heq).2 (hradix 'x' (by decide) _)
  · next heq => exact absurd (List.cons.inj heq).2 (hradix 'o' (by decide) _)
  · next heq => exact absurd (List.cons.inj heq).2 (hradix 'b' (by decide) _)
  · rw [if_neg htrue, if_neg hfalse, hvalue]

theorem scalarValue?_intChars (n : Int64) :
    scalarValue? (Json.intChars n.toInt) = some (.integer n) := by
  unfold Json.intChars
  by_cases hneg : n.toInt < 0
  · have habs : -(n.toInt.natAbs : Int) = n.toInt := by omega
    rw [if_pos hneg]
    exact @number?_digits n true habs
  · have habs : (n.toInt.natAbs : Int) = n.toInt := by omega
    rw [if_neg hneg, List.nil_append]
    exact scalarValue?_digits (Decimal.digits_ne_nil _) (fun c => Decimal.isDigit_of_mem_digits)
      (@number?_digits n false habs)

theorem isScalarChar_of_mem_intChars {n : Int} {c : Char} (h : c ∈ Json.intChars n) :
    isScalarChar c = true := by
  rcases Json.mem_intChars h with rfl | hdigit
  · decide
  · simp [isScalarChar, Char.isAlphanum, hdigit]

theorem readScalar_integer (n : Int64) {rest : List Char} (hrest : Stops rest) :
    readScalar ((Value.integer n).chars ++ rest) = some (.integer n, rest) :=
  readScalar_append (List.all_eq_true.2 fun _ => isScalarChar_of_mem_intChars)
    (scalarValue?_intChars n) hrest

end JavaAtlas.Toml
