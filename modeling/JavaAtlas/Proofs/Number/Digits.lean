import Mathlib.Algebra.Group.Nat.Defs
import JavaAtlas.Number.Literal
import JavaAtlas.Number.Shortest

set_option autoImplicit false

/-! # Decimal digits

The digits that are written for a natural number, and the natural number that digits stand for: one
undoes the other (`appendDigits_digits`), and zeros in front or behind do what one expects of
them. -/

namespace JavaAtlas

namespace Decimal

theorem digits_ne_nil (n : Nat) : digits n ≠ [] := Nat.toDigits_ne_nil

theorem isDigit_of_mem_digits {n : Nat} {c : Char} (h : c ∈ digits n) : c.isDigit = true :=
  Nat.isDigit_of_mem_toDigits (by decide) (by decide) h

theorem exists_digits (n : Nat) : ∃ d rest, digits n = d :: rest ∧ d.isDigit = true := by
  obtain ⟨d, rest, hdigits⟩ := List.exists_cons_of_ne_nil (digits_ne_nil n)
  exact ⟨d, rest, hdigits, isDigit_of_mem_digits (hdigits ▸ List.mem_cons_self)⟩

/-- Digits are not taken for a number with a sign. -/
theorem digits_append_ne_minus (n : Nat) (rest cs : List Char) :
    digits n ++ rest ≠ '-' :: cs := by
  obtain ⟨d, ds, hdigits, hd⟩ := exists_digits n
  intro heq
  rw [hdigits, List.cons_append, List.cons.injEq] at heq
  exact absurd (heq.1 ▸ hd) (by decide)

theorem ofDigitChars_digits (n : Nat) : Nat.ofDigitChars 10 (digits n) 0 = n :=
  Nat.ofDigitChars_toDigits (by decide) (by decide)

theorem digits_inj {m n : Nat} (h : digits m = digits n) : m = n := by
  rw [← ofDigitChars_digits m, h, ofDigitChars_digits]

/-- A positive number has no needless zero in front. -/
theorem head?_digits_ne_zero {n : Nat} (h : 0 < n) : (digits n).head? ≠ some '0' := by
  induction n using Nat.strongRecOn with
  | ind n ih =>
    unfold digits
    rw [Nat.toDigits_eq_if (by decide)]
    split
    · next hn =>
      have hdigits : ∀ k < 10, 0 < k → Nat.digitChar k ≠ '0' := by decide
      simpa using hdigits n hn h
    · next hn =>
      obtain ⟨d, rest, hdigits⟩ := List.exists_cons_of_ne_nil (Nat.toDigits_ne_nil (b := 10))
      have hhead := ih (n / 10) (by omega) (by omega)
      unfold digits at hhead
      rwa [hdigits] at hhead ⊢

theorem length_digits_pos (n : Nat) : 0 < (digits n).length :=
  List.length_pos_iff.2 (digits_ne_nil n)

/-- A number of `k` digits is less than `10 ^ k`. -/
theorem lt_pow_length_digits (n : Nat) : n < 10 ^ (digits n).length :=
  (Nat.length_toDigits_le_iff (by decide) (length_digits_pos n)).1 (Nat.le_refl _)

/-- A positive number of `k` digits is at least `10 ^ (k - 1)`. -/
theorem pow_length_digits_le {n : Nat} (h : 0 < n) : 10 ^ ((digits n).length - 1) ≤ n := by
  rcases Nat.lt_or_eq_of_le (Nat.succ_le_of_lt (length_digits_pos n)) with hlt | heq
  · refine Nat.le_of_not_lt fun hless => ?_
    have hshort := (Nat.length_toDigits_le_iff (by decide) (by omega)).2 hless
    unfold digits at hlt hshort
    omega
  · rw [← heq]
    exact h

end Decimal

namespace Literal

theorem appendDigits_append (n : Nat) (xs ys : List Char) :
    appendDigits n (xs ++ ys) = appendDigits (appendDigits n xs) ys :=
  List.foldl_append

theorem appendDigits_eq (n : Nat) (digits : List Char) :
    appendDigits n digits = Nat.ofDigitChars 10 digits n := by
  induction digits generalizing n with
  | nil => rfl
  | cons c rest ih =>
    rw [Nat.ofDigitChars_cons, ← ih, Nat.mul_comm]
    rfl

theorem appendDigits_digits (n : Nat) : appendDigits 0 (Decimal.digits n) = n := by
  rw [appendDigits_eq, Decimal.ofDigitChars_digits]

theorem appendDigits_zeros (n count : Nat) :
    appendDigits n (List.replicate count '0') = n * 10 ^ count := by
  induction count generalizing n with
  | zero => exact (Nat.mul_one n).symm
  | succ count ih =>
    rw [List.replicate_succ]
    show appendDigits (n * 10) _ = _
    rw [ih, Nat.pow_succ', Nat.mul_assoc]

end Literal

end JavaAtlas
