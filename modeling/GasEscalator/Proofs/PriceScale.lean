import GasEscalator.Policy
import GasEscalator.Proofs.Rounding

/-!
# Raised prices

A price that is raised by a factor above one is not lowered by the two roundings on the way. The
least such factor is one and `2 ^ 52` parts of one, and this is enough to make up for what a price
of more than fifty-three bits may lose when it is rounded first.
-/
namespace GasEscalator

namespace Binary64

/-- The shift of the numbers from one up to two. -/
def oneShift : Nat := 1022

theorem unitsPerOne_eq : unitsPerOne = 2 ^ 52 * 2 ^ oneShift := by
  have h : 1074 = 52 + oneShift := rfl
  rw [unitsPerOne, h, Nat.shiftLeft_eq, Nat.one_mul, Nat.pow_add]

theorem unitsPerOne_pos : 0 < unitsPerOne := by
  rw [unitsPerOne_eq]
  exact Nat.mul_pos (Nat.two_pow_pos _) (Nat.two_pow_pos _)

theorem pow_le_unitsPerOne : 2 ^ 53 ≤ unitsPerOne := by
  rw [unitsPerOne_eq, ← Nat.pow_add]
  exact Nat.pow_le_pow_right (by decide) (by decide)

theorem significand_lt (x : Binary64) : x.significand < 2 ^ 53 := by
  have hm : x.magnitude % fractionBound < fractionBound := Nat.mod_lt _ (by decide)
  unfold significand exponentField
  simp only [fractionBound] at hm ⊢
  split <;> omega

/-- A finite number above one is so by at least the weight of its last bit. -/
theorem units_of_exceedsOne {m : Binary64} (finite : m.isFinite = true)
    (above : m.exceedsOne = true) : (2 ^ 52 + 1) * 2 ^ oneShift ≤ m.units := by
  have hlt : unitsPerOne < m.units := by
    simp only [exceedsOne, finite, Bool.not_true, Bool.false_or, Bool.and_eq_true,
      decide_eq_true_eq] at above
    exact above.2
  rw [units, Nat.shiftLeft_eq] at hlt ⊢
  rw [unitsPerOne_eq] at hlt
  have hsig := m.significand_lt
  have hshift : oneShift ≤ m.shift := by
    by_contra hs
    have hpow : 2 ^ (m.shift + 1) ≤ 2 ^ oneShift :=
      Nat.pow_le_pow_right (by decide) (Nat.lt_of_not_le hs)
    have hle : m.significand * 2 ^ m.shift ≤ 2 ^ 52 * 2 ^ oneShift := by
      calc m.significand * 2 ^ m.shift ≤ 2 ^ 53 * 2 ^ m.shift := Nat.mul_le_mul_right _ hsig.le
        _ = 2 ^ 52 * 2 ^ (m.shift + 1) := by ring
        _ ≤ 2 ^ 52 * 2 ^ oneShift := Nat.mul_le_mul_left _ hpow
    exact absurd hlt (Nat.not_lt_of_le hle)
  obtain ⟨i, hi⟩ := Nat.exists_eq_add_of_le hshift
  have hsplit : m.significand * 2 ^ m.shift = m.significand * 2 ^ i * 2 ^ oneShift := by
    rw [hi, Nat.pow_add]
    ring
  rw [hsplit] at hlt ⊢
  exact Nat.mul_le_mul_right _ (Nat.lt_of_mul_lt_mul_right hlt)

theorem mul_eq_ofUnits {x y : Binary64} (hx : x.isFinite = true) (hy : y.isFinite = true)
    (px : x.negative = false) (py : y.negative = false) :
    x * y = ofUnits false (x.units * y.units) unitsPerOne := by
  have nan {z : Binary64} (hz : z.isFinite = true) : z.isNaN = false := by
    have := of_decide_eq_true hz
    exact decide_eq_false (by omega)
  show mul x y = _
  simp only [mul, nan hx, nan hy, hx, hy, px, py, Bool.or_self, Bool.and_self, bne_self_eq_false,
    if_true, Bool.false_eq_true, if_false]

theorem isFinite_ofUnits {n d : Nat} (negative : Bool) :
    (ofUnits negative n d).isFinite = decide (roundMagnitude n d < infiniteMagnitude) := by
  rw [isFinite, ofUnits, magnitude_ofMagnitude negative
    ((roundMagnitude_le n d).trans_lt infiniteMagnitude_lt)]

theorem negative_ofUnits (n d : Nat) : (ofUnits false n d).negative = false :=
  negative_ofMagnitude ((roundMagnitude_le n d).trans_lt infiniteMagnitude_lt)

theorem isNaN_ofUnits (negative : Bool) (n d : Nat) : (ofUnits negative n d).isNaN = false := by
  have hle := roundMagnitude_le n d
  rw [isNaN, ofUnits, magnitude_ofMagnitude negative (hle.trans_lt infiniteMagnitude_lt)]
  exact decide_eq_false (by omega)

/-- The exponent of the least power of two that is beyond every finite number. -/
def rangeExponent : Nat := 1024

/-- What is rounded to an infinity counts no less than what is beyond every finite number. -/
theorem le_roundedUnits_of_infinite {n d : Nat} (hd : 0 < d)
    (infinite : infiniteMagnitude ≤ roundMagnitude n d) :
    2 ^ rangeExponent * unitsPerOne ≤ roundedUnits n d := by
  have hsig := roundedSignificand_le hd (n := n)
  have hmin := le_roundedSignificand hd (n := n)
  have hrange : rangeExponent + oneShift = 2046 := rfl
  have hunits : 2 ^ rangeExponent * unitsPerOne = 2 ^ 52 * 2 ^ (rangeExponent + oneShift) := by
    rw [unitsPerOne_eq, Nat.pow_add]
    ring
  rw [roundMagnitude_eq] at infinite
  simp only [infiniteMagnitude, fractionBound] at infinite
  rw [roundedUnits, hunits]
  rcases Nat.lt_or_ge (leastShift n d) (rangeExponent + oneShift) with less | many
  · -- one place short of that, only a significand that has been rounded up reaches it
    have hcarry : roundedSignificand n d = 2 ^ 53 := by omega
    have hnext : rangeExponent + oneShift = leastShift n d + 1 := by omega
    rw [hcarry, hnext]
    have hplace : 2 ^ 52 * 2 ^ (leastShift n d + 1) = 2 ^ 53 * 2 ^ leastShift n d := by ring
    exact hplace.le
  · exact Nat.mul_le_mul (hmin (by omega)) (Nat.pow_le_pow_right (by decide) many)

/-- A number that is rounded from at least as many units as `p` ones has an integer part of at least
`p`, up to the limit. -/
theorem le_truncate_ofUnits {n d p limit : Nat} (hd : 0 < d) (hlimit : p ≤ limit)
    (h : p * unitsPerOne ≤ roundedUnits n d) : p ≤ (ofUnits false n d).truncate limit := by
  rw [truncate, isNaN_ofUnits, negative_ofUnits]
  simp only [Bool.or_self, Bool.false_eq_true, if_false]
  split
  case isFalse => exact hlimit
  case isTrue finite =>
    rw [isFinite_ofUnits, decide_eq_true_eq] at finite
    rw [units_ofUnits false hd finite]
    have hq : p ≤ roundedUnits n d / unitsPerOne := (Nat.le_div_iff_mul_le unitsPerOne_pos).mpr h
    exact Nat.le_min.mpr ⟨hlimit, hq⟩

/-- It has an integer part of no more ones than it counts. -/
theorem truncate_ofUnits_le {n d limit : Nat} (hd : 0 < d) (hlimit : limit ≤ 2 ^ rangeExponent) :
    (ofUnits false n d).truncate limit * unitsPerOne ≤ roundedUnits n d := by
  rw [truncate, isNaN_ofUnits, negative_ofUnits]
  simp only [Bool.or_self, Bool.false_eq_true, if_false]
  split
  case isTrue finite =>
    rw [isFinite_ofUnits, decide_eq_true_eq] at finite
    rw [units_ofUnits false hd finite]
    exact (Nat.mul_le_mul_right _ (Nat.min_le_right _ _)).trans (Nat.div_mul_le_self _ _)
  case isFalse infinite =>
    rw [isFinite_ofUnits, decide_eq_true_eq] at infinite
    exact (Nat.mul_le_mul_right _ hlimit).trans
      (le_roundedUnits_of_infinite hd (Nat.le_of_not_lt infinite))

/-! ## Prices as numbers -/

theorem leastShift_price {p : Nat} (pos : 0 < p) (small : p < priceCount) :
    0 < leastShift (p * unitsPerOne) 1 ∧ leastShift (p * unitsPerOne) 1 < 52 + oneShift + 128 := by
  have hle := (leastShift_spec Nat.one_pos (n := p * unitsPerOne)).2
  rw [Nat.one_mul] at hle
  have hunits : unitsPerOne = 2 ^ (52 + oneShift) := by rw [unitsPerOne_eq, ← Nat.pow_add]
  have hk : 0 < leastShift (p * unitsPerOne) 1 := by
    refine leastShift_pos Nat.one_pos ?_
    rw [Nat.one_mul]
    exact pow_le_unitsPerOne.trans (Nat.le_mul_of_pos_left _ pos)
  refine ⟨hk, ?_⟩
  have hbound : 2 ^ (leastShift (p * unitsPerOne) 1 + 52) < 2 ^ (128 + (52 + oneShift)) := by
    calc 2 ^ (leastShift (p * unitsPerOne) 1 + 52) ≤ p * unitsPerOne := hle hk
      _ < 2 ^ 128 * unitsPerOne := Nat.mul_lt_mul_of_pos_right small unitsPerOne_pos
      _ = 2 ^ (128 + (52 + oneShift)) := by rw [hunits, ← Nat.pow_add]
  have := (Nat.pow_lt_pow_iff_right (by decide)).mp hbound
  omega

theorem roundMagnitude_price {p : Nat} (pos : 0 < p) (small : p < priceCount) :
    roundMagnitude (p * unitsPerOne) 1 < infiniteMagnitude := by
  have hk := (leastShift_price pos small).2
  have hsig := roundedSignificand_le Nat.one_pos (n := p * unitsPerOne)
  rw [roundMagnitude_eq]
  refine (Nat.min_le_right _ _).trans_lt ?_
  simp only [fractionBound, infiniteMagnitude, oneShift] at hk ⊢
  omega

section Product

variable {p : Nat} {m : Binary64}

theorem next_le_roundedUnits_product (pos : 0 < p) (small : p < priceCount)
    (finite : m.isFinite = true) (above : m.exceedsOne = true) :
    min (roundedSignificand (p * unitsPerOne) 1 + 1) (2 ^ 53) * 2 ^ leastShift (p * unitsPerOne) 1 ≤
      roundedUnits (roundedUnits (p * unitsPerOne) 1 * m.units) unitsPerOne := by
  have hge := le_roundedSignificand Nat.one_pos (leastShift_price pos small).1
  have hm := units_of_exceedsOne finite above
  rw [roundedUnits.eq_def (p * unitsPerOne) 1]
  generalize leastShift (p * unitsPerOne) 1 = k
  generalize roundedSignificand (p * unitsPerOne) 1 = sig at *
  refine le_roundedUnits unitsPerOne_pos (Nat.min_le_right _ _) ?_
  have hstep : (sig + 1) * 2 ^ 52 ≤ sig * (2 ^ 52 + 1) := by omega
  calc min (sig + 1) (2 ^ 53) * 2 ^ k * unitsPerOne ≤ (sig + 1) * 2 ^ k * unitsPerOne :=
        Nat.mul_le_mul_right _ (Nat.mul_le_mul_right _ (Nat.min_le_left _ _))
    _ = (sig + 1) * 2 ^ 52 * (2 ^ k * 2 ^ oneShift) := by
        rw [unitsPerOne_eq]
        ring
    _ ≤ sig * (2 ^ 52 + 1) * (2 ^ k * 2 ^ oneShift) := Nat.mul_le_mul_right _ hstep
    _ = sig * 2 ^ k * ((2 ^ 52 + 1) * 2 ^ oneShift) := by ring
    _ ≤ sig * 2 ^ k * m.units := Nat.mul_le_mul_left _ hm

/-- **The product makes up for both roundings.** Between a price and its product with a factor above
one there is a number of fifty-three bits. -/
theorem le_roundedUnits_product (pos : 0 < p) (small : p < priceCount)
    (finite : m.isFinite = true) (above : m.exceedsOne = true) :
    p * unitsPerOne ≤
      roundedUnits (roundedUnits (p * unitsPerOne) 1 * m.units) unitsPerOne := by
  refine Nat.le_trans ?_ (next_le_roundedUnits_product pos small finite above)
  have hlt := (leastShift_spec Nat.one_pos (n := p * unitsPerOne)).1
  have hquot := (quotient_bounds (p * unitsPerOne) 1).1
  have hpos : 0 < 1 * 2 ^ leastShift (p * unitsPerOne) 1 :=
    Nat.mul_pos Nat.one_pos (Nat.two_pow_pos _)
  have hsucc := (Nat.div_lt_iff_lt_mul hpos).mp (Nat.lt_succ_of_le hquot)
  rw [Nat.one_mul] at hlt hsucc
  generalize leastShift (p * unitsPerOne) 1 = k at *
  generalize roundedSignificand (p * unitsPerOne) 1 = sig at *
  -- the number in between is the next one up, or the rounded price if there is no next one
  rcases Nat.le_total (sig + 1) (2 ^ 53) with h | h
  · rw [Nat.min_eq_left h]
    exact hsucc.le
  · rw [Nat.min_eq_right h, ← Nat.pow_add, Nat.add_comm]
    exact hlt.le

/-- The units of a price of more than fifty-three bits are shifted by more places than the units of
one have. -/
theorem lt_leastShift_price (large : 2 ^ 53 ≤ p) :
    52 + oneShift < leastShift (p * unitsPerOne) 1 := by
  have hlt := (leastShift_spec Nat.one_pos (n := p * unitsPerOne)).1
  have hunits : unitsPerOne = 2 ^ (52 + oneShift) := by rw [unitsPerOne_eq, ← Nat.pow_add]
  rw [Nat.one_mul] at hlt
  have hpow : 2 ^ (53 + (52 + oneShift)) < 2 ^ (leastShift (p * unitsPerOne) 1 + 53) := by
    calc 2 ^ (53 + (52 + oneShift)) = 2 ^ 53 * unitsPerOne := by rw [Nat.pow_add, hunits]
      _ ≤ p * unitsPerOne := Nat.mul_le_mul_right _ large
      _ < 2 ^ (leastShift (p * unitsPerOne) 1 + 53) := hlt
  have := (Nat.pow_lt_pow_iff_right (by decide)).mp hpow
  omega

/-- From `2 ^ 53` on the next number after the rounded price is more than one half of a shifted place
above the price, and that is one at least. -/
theorem succ_le_roundedUnits_product (large : 2 ^ 53 ≤ p) (small : p < priceCount)
    (finite : m.isFinite = true) (above : m.exceedsOne = true) :
    (p + 1) * unitsPerOne ≤
      roundedUnits (roundedUnits (p * unitsPerOne) 1 * m.units) unitsPerOne := by
  have pos : 0 < p := Nat.lt_of_lt_of_le (by decide) large
  refine Nat.le_trans ?_ (next_le_roundedUnits_product pos small finite above)
  obtain ⟨i, hi⟩ := Nat.exists_eq_add_of_lt (lt_leastShift_price large)
  have hunits : 2 ^ leastShift (p * unitsPerOne) 1 = 2 * 2 ^ i * unitsPerOne := by
    rw [hi, unitsPerOne_eq]
    ring
  have hlt := (leastShift_spec Nat.one_pos (n := p * unitsPerOne)).1
  have hnear := two_mul_le_roundHalfEven (n := p * unitsPerOne)
    (Nat.two_pow_pos (leastShift (p * unitsPerOne) 1))
  have hsig : roundHalfEven (p * unitsPerOne) (2 ^ leastShift (p * unitsPerOne) 1) =
      roundedSignificand (p * unitsPerOne) 1 := by
    rw [roundedSignificand, Nat.shiftLeft_eq, Nat.one_mul]
  rw [Nat.one_mul, Nat.pow_add, hunits] at hlt
  rw [hsig, hunits] at hnear
  rw [hunits]
  generalize roundedSignificand (p * unitsPerOne) 1 = sig at *
  have hpos : 1 ≤ 2 ^ i := Nat.one_le_two_pow
  have below : p < 2 * 2 ^ i * 2 ^ 53 := by
    refine Nat.lt_of_mul_lt_mul_right (a := unitsPerOne) (hlt.trans_eq ?_)
    ring
  have near : p ≤ (2 * sig + 1) * 2 ^ i := by
    refine Nat.le_of_mul_le_mul_right (c := 2 * unitsPerOne) ?_ (by have := unitsPerOne_pos; omega)
    calc p * (2 * unitsPerOne) = 2 * (p * unitsPerOne) := by ring
      _ ≤ (2 * sig + 1) * (2 * 2 ^ i * unitsPerOne) := hnear
      _ = (2 * sig + 1) * 2 ^ i * (2 * unitsPerOne) := by ring
  rw [← Nat.mul_assoc]
  refine Nat.mul_le_mul_right _ ?_
  rcases Nat.le_total (sig + 1) (2 ^ 53) with h | h
  · rw [Nat.min_eq_left h]
    calc p + 1 ≤ (2 * sig + 1) * 2 ^ i + 2 ^ i := Nat.add_le_add near hpos
      _ = (sig + 1) * (2 * 2 ^ i) := by ring
  · rw [Nat.min_eq_right h, Nat.mul_comm]
    exact below

/-- Below `2 ^ 53` the price is not rounded, so that a product of one more is not rounded away. -/
theorem succ_le_roundedUnits_of_gain (short : p < 2 ^ 53)
    (gain : (p + 1) * unitsPerOne ≤ p * m.units) :
    (p + 1) * unitsPerOne ≤
      roundedUnits (roundedUnits (p * unitsPerOne) 1 * m.units) unitsPerOne := by
  have hunits : unitsPerOne = 2 ^ (52 + oneShift) := by rw [unitsPerOne_eq, ← Nat.pow_add]
  have exact : p * unitsPerOne ≤ roundedUnits (p * unitsPerOne) 1 := by
    rw [hunits]
    exact le_roundedUnits Nat.one_pos short.le (Nat.mul_one _).le
  conv_lhs => rw [hunits]
  refine le_roundedUnits unitsPerOne_pos short ?_
  calc (p + 1) * 2 ^ (52 + oneShift) * unitsPerOne = (p + 1) * unitsPerOne * unitsPerOne := by
        rw [← hunits]
    _ ≤ p * m.units * unitsPerOne := Nat.mul_le_mul_right _ gain
    _ = p * unitsPerOne * m.units := by ring
    _ ≤ roundedUnits (p * unitsPerOne) 1 * m.units := Nat.mul_le_mul_right _ exact

end Product

end Binary64

theorem Price.scale_eq {m : Binary64} {p : Price} (pos : 0 < p.val) (finite : m.isFinite = true)
    (sign : m.negative = false) :
    p.scale m = saturating ((Binary64.ofUnits false
      (Binary64.roundedUnits (p.val * Binary64.unitsPerOne) 1 * m.units)
      Binary64.unitsPerOne).truncate highest.val) := by
  have hfinite := Binary64.roundMagnitude_price pos p.isLt
  have hunits : (Binary64.ofNat p.val).units =
      Binary64.roundedUnits (p.val * Binary64.unitsPerOne) 1 :=
    Binary64.units_ofUnits false Nat.one_pos hfinite
  have hx : (Binary64.ofNat p.val).isFinite = true :=
    (Binary64.isFinite_ofUnits false).trans (decide_eq_true hfinite)
  rw [scale, Binary64.mul_eq_ofUnits hx finite (Binary64.negative_ofUnits _ _) sign, hunits]

theorem Price.le_scale_of_units {m : Binary64} {p q : Price} (pos : 0 < p.val)
    (finite : m.isFinite = true) (sign : m.negative = false)
    (reached : q.val * Binary64.unitsPerOne ≤ Binary64.roundedUnits
      (Binary64.roundedUnits (p.val * Binary64.unitsPerOne) 1 * m.units) Binary64.unitsPerOne) :
    q ≤ p.scale m := by
  have hlimit : q.val ≤ highest.val := Nat.le_sub_one_of_lt q.isLt
  rw [scale_eq pos finite sign]
  show q.val ≤ min _ highest.val
  exact Nat.le_min.mpr
    ⟨Binary64.le_truncate_ofUnits Binary64.unitsPerOne_pos hlimit reached, hlimit⟩

theorem Price.scale_mul_unitsPerOne_le {m : Binary64} {p : Price} (pos : 0 < p.val)
    (finite : m.isFinite = true) (sign : m.negative = false) :
    (p.scale m).val * Binary64.unitsPerOne ≤ Binary64.roundedUnits
      (Binary64.roundedUnits (p.val * Binary64.unitsPerOne) 1 * m.units) Binary64.unitsPerOne := by
  have hlimit : highest.val ≤ 2 ^ Binary64.rangeExponent := by
    calc highest.val ≤ 2 ^ 128 := Nat.le_of_lt highest.isLt
      _ ≤ 2 ^ Binary64.rangeExponent := Nat.pow_le_pow_right (by decide) (by decide)
  rw [scale_eq pos finite sign]
  refine Nat.le_trans ?_ (Binary64.truncate_ofUnits_le Binary64.unitsPerOne_pos hlimit)
  exact Nat.mul_le_mul_right _ (Nat.min_le_left _ _)

theorem Binary64.not_negative_of_exceedsOne {m : Binary64} (above : m.exceedsOne = true) :
    m.negative = false := by
  simp only [exceedsOne, Bool.and_eq_true, Bool.not_eq_true'] at above
  exact above.1.2

/-- **Scaling never lowers a price**, where the factor is a finite number above one. -/
theorem Price.le_scale {m : Binary64} (finite : m.isFinite = true) (above : m.exceedsOne = true)
    (p : Price) : p ≤ p.scale m := by
  rcases Nat.eq_zero_or_pos p.val with zero | pos
  · show p.val ≤ _
    rw [zero]
    exact Nat.zero_le _
  · exact Price.le_scale_of_units pos finite (Binary64.not_negative_of_exceedsOne above)
      (Binary64.le_roundedUnits_product pos p.isLt finite above)

/-- A policy is usable if its times, its factor and its ceiling are. -/
theorem Policy.validate_eq_ok {p : Policy} : p.validate = .ok () ↔
    (p.timeout.isZero = false ∧ p.checkInterval.isZero = false ∧
      p.increaseInterval.isZero = false) ∧
    (p.priceMultiplier.isFinite = true ∧ p.priceMultiplier.exceedsOne = true) ∧
    p.maxPrice.val ≠ 0 := by
  unfold validate
  grind

/-- A usable policy never lowers a price. -/
theorem Policy.le_raise {policy : Policy} (valid : policy.validate = .ok ()) (p : Price) :
    p ≤ policy.raise p := by
  obtain ⟨-, ⟨finite, above⟩, -⟩ := Policy.validate_eq_ok.mp valid
  exact Price.le_scale finite above p

end GasEscalator
