import GasEscalator.Proofs.PriceIncrease

/-!
# The accuracy of raised prices

A price and its product with a factor above one are rounded where a significand has all its bits,
so that each of the two roundings is off by at most one part in `2 ^ 53`. What is cut off behind the
point is less than one, and what is beyond the highest price becomes that price. Every step keeps
the order of prices.
-/
namespace GasEscalator

namespace Binary64

/-- The largest relative error of one rounding. -/
def roundoff : ℚ := 1 / 2 ^ 53

theorem roundedUnits_near {n d : Nat} (hd : 0 < d) (hk : 0 < leastShift n d) :
    (n : ℚ) / d * (1 - roundoff) ≤ roundedUnits n d ∧
      (roundedUnits n d : ℚ) ≤ n / d * (1 + roundoff) := by
  obtain ⟨low, high⟩ := roundedUnits_bounds hd hk
  have hpos : (0 : ℚ) < d := Nat.cast_pos.mpr hd
  have low : (2 : ℚ) ^ 53 * n ≤ 2 ^ 53 * (roundedUnits n d * d) + n := by exact_mod_cast low
  have high : (2 : ℚ) ^ 53 * (roundedUnits n d * d) ≤ 2 ^ 53 * n + n := by exact_mod_cast high
  rw [div_mul_eq_mul_div, div_mul_eq_mul_div, div_le_iff₀ hpos, le_div_iff₀ hpos, roundoff]
  constructor
  · linarith
  · linarith

end Binary64

namespace Price

open Binary64

def roundedPrice (p : Price) : Nat := roundedUnits (p.val * unitsPerOne) 1

def roundedProduct (p : Price) (m : Binary64) : Nat :=
  roundedUnits (p.roundedPrice * m.units) unitsPerOne

variable {p q : Price} {m : Binary64}

theorem roundedProduct_mono (h : p ≤ q) : p.roundedProduct m ≤ q.roundedProduct m := by
  have hprice : p.roundedPrice ≤ q.roundedPrice :=
    roundedUnits_mono Nat.one_pos (Nat.mul_le_mul_right _ h)
  exact roundedUnits_mono unitsPerOne_pos (Nat.mul_le_mul_right _ hprice)

theorem roundedPrice_near (pos : 0 < p.val) :
    (p.val : ℚ) * unitsPerOne * (1 - roundoff) ≤ p.roundedPrice ∧
      (p.roundedPrice : ℚ) ≤ p.val * unitsPerOne * (1 + roundoff) := by
  have near := roundedUnits_near Nat.one_pos (leastShift_price pos p.isLt).1
  rwa [Nat.cast_one, div_one, Nat.cast_mul] at near

/-- A product is at least one, and one has all its bits. -/
theorem leastShift_product (pos : 0 < p.val) (finite : m.isFinite = true)
    (above : m.exceedsOne = true) : 0 < leastShift (p.roundedPrice * m.units) unitsPerOne := by
  have hunits : unitsPerOne = 2 ^ (52 + oneShift) := by rw [unitsPerOne_eq, ← Nat.pow_add]
  have hprice : unitsPerOne ≤ p.roundedPrice := by
    have hself : 1 * 2 ^ (52 + oneShift) * 1 ≤ p.val * unitsPerOne := by
      rw [Nat.one_mul, Nat.mul_one, ← hunits]
      exact Nat.le_mul_of_pos_left _ pos
    have hle := le_roundedUnits Nat.one_pos Nat.one_le_two_pow hself
    rwa [Nat.one_mul, ← hunits] at hle
  have hfactor : 2 ^ 53 ≤ m.units := by
    calc 2 ^ 53 ≤ unitsPerOne := pow_le_unitsPerOne
      _ = 2 ^ 52 * 2 ^ oneShift := unitsPerOne_eq
      _ ≤ (2 ^ 52 + 1) * 2 ^ oneShift := Nat.mul_le_mul_right _ (Nat.le_succ _)
      _ ≤ m.units := units_of_exceedsOne finite above
  exact leastShift_pos unitsPerOne_pos (Nat.mul_le_mul hprice hfactor)

/-- **Two roundings.** Both errors multiply. -/
theorem roundedProduct_near (pos : 0 < p.val) (finite : m.isFinite = true) (above : 1 < m.value) :
    (p.val : ℚ) * m.value * (1 - roundoff) ^ 2 * unitsPerOne ≤ p.roundedProduct m ∧
      (p.roundedProduct m : ℚ) ≤ p.val * m.value * (1 + roundoff) ^ 2 * unitsPerOne := by
  have exceeds := (exceedsOne_iff finite).mpr above
  have sign := not_negative_of_exceedsOne exceeds
  obtain ⟨priceLow, priceHigh⟩ := roundedPrice_near pos
  obtain ⟨low, high⟩ := roundedUnits_near unitsPerOne_pos (leastShift_product pos finite exceeds)
  have factor :
      ((p.roundedPrice * m.units : Nat) : ℚ) / unitsPerOne = p.roundedPrice * m.value := by
    rw [Nat.cast_mul, ← value_mul_unitsPerOne sign, ← mul_assoc]
    exact mul_div_cancel_right₀ _ unitsPerOne_cast_pos.ne'
  rw [factor] at low high
  have hvalue : (0 : ℚ) ≤ m.value := by linarith
  have hless : (0 : ℚ) ≤ m.value * (1 - roundoff) := by
    refine mul_nonneg hvalue ?_
    norm_num [roundoff]
  have hmore : (0 : ℚ) ≤ m.value * (1 + roundoff) := by
    refine mul_nonneg hvalue ?_
    norm_num [roundoff]
  constructor
  · calc (p.val : ℚ) * m.value * (1 - roundoff) ^ 2 * unitsPerOne =
          p.val * unitsPerOne * (1 - roundoff) * (m.value * (1 - roundoff)) := by ring
      _ ≤ p.roundedPrice * (m.value * (1 - roundoff)) := mul_le_mul_of_nonneg_right priceLow hless
      _ = p.roundedPrice * m.value * (1 - roundoff) := by ring
      _ ≤ p.roundedProduct m := low
  · calc (p.roundedProduct m : ℚ) ≤ p.roundedPrice * m.value * (1 + roundoff) := high
      _ = p.roundedPrice * (m.value * (1 + roundoff)) := by ring
      _ ≤ p.val * unitsPerOne * (1 + roundoff) * (m.value * (1 + roundoff)) :=
          mul_le_mul_of_nonneg_right priceHigh hmore
      _ = p.val * m.value * (1 + roundoff) ^ 2 * unitsPerOne := by ring

/-- The scaled price is the highest one that the rounded product reaches. -/
theorem le_scale_iff (pos : 0 < p.val) (finite : m.isFinite = true) (sign : m.negative = false) :
    q ≤ p.scale m ↔ q.val * unitsPerOne ≤ p.roundedProduct m := by
  constructor
  · intro le
    exact (Nat.mul_le_mul_right _ le).trans (scale_mul_unitsPerOne_le pos finite sign)
  · exact le_scale_of_units pos finite sign

theorem val_eq_of_not_lt_highest (h : ¬ q < highest) : q.val = 2 ^ 128 - 1 := by
  have below : q.val < 2 ^ 128 := q.isLt
  have reached : ¬ q.val < 2 ^ 128 - 1 := fun less => h (Fin.lt_def.mpr less)
  omega

/-- Nothing times a factor is nothing. -/
theorem scale_of_zero (zero : p.val = 0) (finite : m.isFinite = true) (sign : m.negative = false) :
    (p.scale m).val = 0 := by
  have hfinite : (Binary64.ofNat 0).isFinite = true := by decide +kernel
  have hsign : (Binary64.ofNat 0).negative = false := by decide +kernel
  have hunits : (Binary64.ofNat 0).units = 0 := by decide +kernel
  have hproduct : (ofUnits false 0 unitsPerOne).truncate highest.val = 0 := by decide +kernel
  rw [scale, zero, mul_eq_ofUnits hfinite finite hsign sign, hunits, Nat.zero_mul, hproduct]
  rfl

section

variable (finite : m.isFinite = true) (above : 1 < m.value)
include finite above

theorem scale_mono (h : p ≤ q) : p.scale m ≤ q.scale m := by
  have sign := not_negative_of_exceedsOne ((exceedsOne_iff finite).mpr above)
  rcases Nat.eq_zero_or_pos p.val with zero | pos
  · rw [Fin.le_def, scale_of_zero zero finite sign]
    exact Nat.zero_le _
  · refine (le_scale_iff (Nat.lt_of_lt_of_le pos h) finite sign).mpr ?_
    exact ((le_scale_iff pos finite sign).mp (Fin.le_refl _)).trans (roundedProduct_mono h)

theorem scale_le_exact (p : Price) :
    ((p.scale m).val : ℚ) ≤ p.val * m.value * (1 + roundoff) ^ 2 := by
  have sign := not_negative_of_exceedsOne ((exceedsOne_iff finite).mpr above)
  rcases Nat.eq_zero_or_pos p.val with zero | pos
  · rw [scale_of_zero zero finite sign, zero, Nat.cast_zero, zero_mul, zero_mul]
  · have reached : ((p.scale m).val : ℚ) * unitsPerOne ≤ p.roundedProduct m := by
      exact_mod_cast (le_scale_iff pos finite sign).mp (Fin.le_refl _)
    exact le_of_mul_le_mul_right (reached.trans (roundedProduct_near pos finite above).2)
      unitsPerOne_cast_pos

/-- Below the highest price only what stands behind the point is lost. -/
theorem exact_lt_scale (low : p.scale m < highest) :
    (p.val : ℚ) * m.value * (1 - roundoff) ^ 2 < (p.scale m).val + 1 := by
  have sign := not_negative_of_exceedsOne ((exceedsOne_iff finite).mpr above)
  rcases Nat.eq_zero_or_pos p.val with zero | pos
  · rw [scale_of_zero zero finite sign, zero, Nat.cast_zero, zero_mul, zero_mul]
    norm_num
  · have low : (p.scale m).val < priceCount - 1 := Fin.lt_def.mp low
    obtain ⟨next, value⟩ : ∃ next : Price, next.val = (p.scale m).val + 1 :=
      ⟨⟨(p.scale m).val + 1, Nat.add_lt_of_lt_sub low⟩, rfl⟩
    have unreached : ¬ next ≤ p.scale m := by
      rw [Fin.le_def, value]
      exact Nat.not_succ_le_self _
    have below := Nat.lt_of_not_le (mt (le_scale_iff pos finite sign).mpr unreached)
    have below : (p.roundedProduct m : ℚ) < ((p.scale m).val + 1) * unitsPerOne := by
      rw [value] at below
      exact_mod_cast below
    exact lt_of_mul_lt_mul_right ((roundedProduct_near pos finite above).1.trans_lt below)
      unitsPerOne_cast_pos.le

end

end Price

/-- **Scaling is accurate.** Let a price be scaled by a finite factor above one. If their exact
product stays below `2 ^ 128` even when two roundings add to it, then the scaled price is this
product up to two roundings and less than one unit. If the product reaches `2 ^ 128` even when two
roundings take away from it, then the scaled price is the highest one. And a higher price is not
scaled to a lower one. -/
theorem Price.scale_is_accurate {m : Binary64} (finite : m.isFinite = true) (above : 1 < m.value) :
    (∀ p : Price, (p.val : ℚ) * m.value * (1 + Binary64.roundoff) ^ 2 < 2 ^ 128 →
      (p.val : ℚ) * m.value * (1 - Binary64.roundoff) ^ 2 - 1 < (p.scale m).val ∧
      ((p.scale m).val : ℚ) ≤ p.val * m.value * (1 + Binary64.roundoff) ^ 2) ∧
    (∀ p : Price, 2 ^ 128 ≤ (p.val : ℚ) * m.value * (1 - Binary64.roundoff) ^ 2 →
      (p.scale m).val = 2 ^ 128 - 1) ∧
    ∀ p q : Price, p ≤ q → p.scale m ≤ q.scale m := by
  refine ⟨?_, ?_, fun p q => scale_mono finite above⟩
  · intro p below
    refine ⟨?_, scale_le_exact finite above p⟩
    by_cases low : p.scale m < highest
    · linarith [exact_lt_scale finite above low]
    · -- the highest price is one below the bound of the exact product
      have reached : ((p.scale m).val : ℚ) = 2 ^ 128 - 1 := by
        rw [val_eq_of_not_lt_highest low]
        norm_num
      have errors : (1 - Binary64.roundoff) ^ 2 ≤ (1 + Binary64.roundoff) ^ 2 := by
        norm_num [Binary64.roundoff]
      have exact : (0 : ℚ) ≤ p.val * m.value := mul_nonneg (Nat.cast_nonneg _) (by linarith)
      linarith [mul_le_mul_of_nonneg_left errors exact]
  · intro p beyond
    by_contra other
    have low : p.scale m < highest := by
      by_contra high
      exact other (val_eq_of_not_lt_highest high)
    have short : ((p.scale m).val : ℚ) + 1 ≤ 2 ^ 128 := by exact_mod_cast (p.scale m).isLt
    linarith [exact_lt_scale finite above low]

/-- A price of fifty-four bits, which is rounded first, and the highest price, which stays. -/
theorem Price.half_more_is_accurate :
    let m : Binary64 := ⟨0x3ff8000000000000⟩
    let p : Price := ⟨2 ^ 53 + 1, by decide⟩
    (m.isFinite = true ∧ 1 < m.value) ∧
    ((p.val : ℚ) * m.value * (1 + Binary64.roundoff) ^ 2 < 2 ^ 128 ∧
      (p.val : ℚ) * m.value * (1 - Binary64.roundoff) ^ 2 - 1 < (p.scale m).val ∧
      ((p.scale m).val : ℚ) ≤ p.val * m.value * (1 + Binary64.roundoff) ^ 2) ∧
    (2 ^ 128 ≤ (highest.val : ℚ) * m.value * (1 - Binary64.roundoff) ^ 2 ∧
      (highest.scale m).val = 2 ^ 128 - 1) ∧
    p ≤ highest ∧ p.scale m ≤ highest.scale m := by
  intro m p
  have finite : m.isFinite = true := by decide
  have value : m.value = 3 / 2 := by
    have units : m.units * 2 = 3 * Binary64.unitsPerOne := by decide +kernel
    have units : (m.units : ℚ) * 2 = 3 * Binary64.unitsPerOne := by exact_mod_cast units
    have counted := Binary64.value_mul_unitsPerOne (x := m) (by decide)
    refine mul_right_cancel₀ Binary64.unitsPerOne_cast_pos.ne' ?_
    linarith
  have above : 1 < m.value := by
    rw [value]
    norm_num
  have below : (p.val : ℚ) * m.value * (1 + Binary64.roundoff) ^ 2 < 2 ^ 128 := by
    have hp : (p.val : ℚ) = 2 ^ 53 + 1 := by norm_num [p]
    rw [hp, value]
    norm_num [Binary64.roundoff]
  have beyond : 2 ^ 128 ≤ (highest.val : ℚ) * m.value * (1 - Binary64.roundoff) ^ 2 := by
    have top : (highest.val : ℚ) = 2 ^ 128 - 1 := by norm_num [highest]
    rw [top, value]
    norm_num [Binary64.roundoff]
  have order : p ≤ highest := by decide
  obtain ⟨accurate, saturates, monotone⟩ := Price.scale_is_accurate finite above
  exact ⟨⟨finite, above⟩, ⟨below, accurate p below⟩, ⟨beyond, saturates highest beyond⟩, order,
    monotone p highest order⟩

end GasEscalator
