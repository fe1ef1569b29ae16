import GasEscalator.Json
import Mathlib.Tactic.Ring

/-!
# Decimal digits

A natural number is denoted by its digits, no zero leads them unless it is the only one, and their
number tells how large it is.
-/
namespace GasEscalator

namespace Json

theorem digitsValue_append (a b : List Char) :
    digitsValue (a ++ b) = digitsValue a * 10 ^ b.length + digitsValue b := by
  show Nat.ofDigitChars 10 (a ++ b) 0 = Nat.ofDigitChars 10 a 0 * 10 ^ b.length + _
  rw [Nat.ofDigitChars_append, Nat.ofDigitChars_eq_ofDigitChars_zero, Nat.mul_comm]
  rfl

theorem digitsValue_zeros (n : Nat) : digitsValue (List.replicate n '0') = 0 :=
  Nat.ofDigitChars_replicate_zero

theorem toList_toString (n : Nat) : (toString n).toList = Nat.toDigits 10 n := Nat.toList_repr

@[simp] theorem digitsValue_toString (n : Nat) : digitsValue (toString n).toList = n := by
  rw [toList_toString]
  exact Nat.ofDigitChars_ten_toDigits

theorem isDigit_of_mem_toString {c : Char} {n : Nat} (h : c ∈ (toString n).toList) :
    c.isDigit = true := by
  rw [toList_toString] at h
  exact Nat.isDigit_of_mem_toDigits (by decide) (by decide) h

theorem toString_ne_nil (n : Nat) : (toString n).toList ≠ [] := by
  rw [toList_toString]
  exact Nat.toDigits_ne_nil

theorem toString_zero : (toString 0).toList = ['0'] := by rw [toList_toString, Nat.toDigits_zero]

/-- The first digit of a positive number is not zero. -/
theorem head?_toString {n : Nat} (pos : 0 < n) : (toString n).toList.head? ≠ some '0' := by
  rw [toList_toString]
  induction n using Nat.strongRecOn with
  | ind n ih =>
    by_cases small : n < 10
    · rw [Nat.toDigits_of_lt_base small]
      intro h
      have := Nat.digitChar_eq_zero.mp (Option.some.inj h)
      omega
    · have before := ih (n / 10) (by omega) (by omega)
      rw [Nat.toDigits_of_base_le (by decide) (by omega), List.head?_append]
      cases first : (Nat.toDigits 10 (n / 10)).head? with
      | none => exact absurd (List.head?_eq_none_iff.mp first) Nat.toDigits_ne_nil
      | some c =>
        rw [first] at before
        exact before

/-- A number has at most `k` digits exactly when it is below `10 ^ k`. -/
theorem length_toString_le_iff {n k : Nat} (pos : 0 < k) :
    (toString n).length ≤ k ↔ n < 10 ^ k := Nat.length_repr_le_iff pos

theorem length_toString_pos (n : Nat) : 0 < (toString n).length := by
  rw [← String.length_toList]
  exact List.length_pos_iff.mpr (toString_ne_nil n)

theorem lt_pow_length (n : Nat) : n < 10 ^ (toString n).length :=
  (length_toString_le_iff (length_toString_pos n)).mp (Nat.le_refl _)

theorem pow_length_le {n : Nat} (pos : 0 < n) : 10 ^ ((toString n).length - 1) ≤ n := by
  by_cases single : (toString n).length ≤ 1
  · rw [Nat.sub_eq_zero_of_le single]
    exact pos
  · have longer : ¬ (toString n).length ≤ (toString n).length - 1 := by omega
    rw [length_toString_le_iff (by omega)] at longer
    exact Nat.le_of_not_lt longer

end Json

/-! ## Numerals -/

/-- A numeral that can be written: digits throughout, at least one in front of the point, and no
zero leads the others. -/
structure Numeral.WellFormed (n : Numeral) : Prop where
  whole : ∀ c ∈ n.whole, c.isDigit = true
  fraction : ∀ c ∈ n.fraction, c.isDigit = true
  nonempty : n.whole ≠ []
  lead : n.whole.head? = some '0' → n.whole = ['0']

/-- The digits of a natural number can be written. -/
theorem Numeral.wellFormed_digits (n : Nat) :
    WellFormed ⟨false, (toString n).toList, [], none⟩ where
  whole _ h := Json.isDigit_of_mem_toString h
  fraction _ h := absurd h List.not_mem_nil
  nonempty := Json.toString_ne_nil n
  lead zero := by
    obtain rfl : n = 0 := by
      by_contra positive
      exact Json.head?_toString (Nat.pos_of_ne_zero positive) zero
    exact Json.toString_zero

end GasEscalator
