import GasEscalator.Proofs.PriceScale
import Mathlib.Algebra.Order.Field.Rat
import Mathlib.Tactic.Linarith

/-!
# The increase of a price

Scaling a price by a finite factor above one never lowers it, and raises it wherever the exact
increase is worth a whole unit or the price has more than fifty-three bits. Below `2 ^ 53` a price is
a number of its own, so that only the product is rounded, and no whole price is stepped over. From
`2 ^ 53` on a price may first be rounded down, by at most half the distance of two numbers; the
product is a whole such distance above that again.
-/
namespace GasEscalator

namespace Binary64

def value (x : Binary64) : ℚ := (if x.negative then -1 else 1) * ((x.units : ℚ) / unitsPerOne)

theorem unitsPerOne_cast_pos : (0 : ℚ) < unitsPerOne := Nat.cast_pos.mpr unitsPerOne_pos

theorem value_mul_unitsPerOne {x : Binary64} (sign : x.negative = false) :
    x.value * unitsPerOne = x.units := by
  rw [value, sign, if_neg Bool.false_ne_true, one_mul]
  exact div_mul_cancel₀ _ unitsPerOne_cast_pos.ne'

theorem not_negative_of_value_pos {x : Binary64} (pos : 0 < x.value) : x.negative = false := by
  by_contra sign
  rw [Bool.not_eq_false] at sign
  have size : (0 : ℚ) ≤ (x.units : ℚ) / unitsPerOne :=
    div_nonneg (Nat.cast_nonneg _) unitsPerOne_cast_pos.le
  rw [value, if_pos sign] at pos
  linarith

theorem exceedsOne_iff {m : Binary64} (finite : m.isFinite = true) :
    m.exceedsOne = true ↔ 1 < m.value := by
  have number : m.isNaN = false := by
    have := of_decide_eq_true finite
    exact decide_eq_false (by omega)
  have counted (sign : m.negative = false) : 1 < m.value ↔ unitsPerOne < m.units := by
    rw [← mul_lt_mul_iff_left₀ unitsPerOne_cast_pos, one_mul, value_mul_unitsPerOne sign,
      Nat.cast_lt]
  simp only [exceedsOne, number, finite, Bool.not_true, Bool.not_false, Bool.true_and,
    Bool.false_or, Bool.and_eq_true, Bool.not_eq_true', decide_eq_true_eq]
  constructor
  · rintro ⟨sign, above⟩
    exact (counted sign).mpr above
  · intro above
    have sign := not_negative_of_value_pos (zero_lt_one.trans above)
    exact ⟨sign, (counted sign).mp above⟩

/-- A gain of one price, counted in units. -/
theorem succ_mul_unitsPerOne_le {m : Binary64} {p : Nat} (sign : m.negative = false)
    (gain : 1 ≤ (p : ℚ) * (m.value - 1)) : (p + 1) * unitsPerOne ≤ p * m.units := by
  have next : ((p : ℚ) + 1) * unitsPerOne ≤ p * m.units := by
    calc ((p : ℚ) + 1) * unitsPerOne ≤ p * m.value * unitsPerOne :=
          mul_le_mul_of_nonneg_right (by linarith) unitsPerOne_cast_pos.le
      _ = p * m.units := by rw [mul_assoc, value_mul_unitsPerOne sign]
  exact_mod_cast next

end Binary64

/-- **Scaling raises prices.** A price that is scaled by a finite factor above one is not lowered,
and below the highest price it is raised if it is at least `2 ^ 53` or if its exact increase is at
least one. -/
theorem Price.scale_increases {m : Binary64} (finite : m.isFinite = true) (above : 1 < m.value)
    (p : Price) :
    p ≤ p.scale m ∧
      (p < highest → 2 ^ 53 ≤ p.val ∨ 1 ≤ (p.val : ℚ) * (m.value - 1) → p < p.scale m) := by
  have exceeds := (Binary64.exceedsOne_iff finite).mpr above
  have sign := Binary64.not_negative_of_exceedsOne exceeds
  refine ⟨Price.le_scale finite exceeds p, ?_⟩
  intro low gain
  obtain ⟨q, next⟩ : ∃ q : Price, q.val = p.val + 1 := ⟨⟨p.val + 1, Nat.add_lt_of_lt_sub low⟩, rfl⟩
  have pos : 0 < p.val := by
    rcases gain with large | gain
    · exact Nat.lt_of_lt_of_le (by decide) large
    · refine Nat.pos_of_ne_zero fun zero => ?_
      rw [zero, Nat.cast_zero, zero_mul] at gain
      linarith
  have reached : q ≤ p.scale m := by
    refine Price.le_scale_of_units pos finite sign ?_
    rw [next]
    rcases Nat.lt_or_ge p.val (2 ^ 53) with short | large
    · have gain := gain.resolve_left (Nat.not_le_of_lt short)
      exact Binary64.succ_le_roundedUnits_of_gain short
        (Binary64.succ_mul_unitsPerOne_le sign gain)
    · exact Binary64.succ_le_roundedUnits_product large p.isLt finite exceeds
  show p.val < (p.scale m).val
  have := Fin.le_def.mp reached
  omega

/-- The least price that has more than fifty-three bits, and the least factor above one. -/
theorem Price.least_factor_increases :
    let m : Binary64 := ⟨0x3ff0000000000001⟩
    let p : Price := ⟨2 ^ 53, by decide⟩
    m.isFinite = true ∧ 1 < m.value ∧ p < highest ∧ p < p.scale m := by
  intro m p
  have finite : m.isFinite = true := by decide
  have above : 1 < m.value := (Binary64.exceedsOne_iff finite).mp (by decide +kernel)
  have low : p < highest := by decide
  exact ⟨finite, above, low, (Price.scale_increases finite above p).2 low (.inl Nat.le.refl)⟩

end GasEscalator
