import GasEscalator.Decimal
import GasEscalator.Proofs.PriceScale

/-!
# Shortest decimals are read back

The ratios that round to a number are those in its rounding interval. The shortest decimal is taken
from this interval, on whichever grid the search ends, so that it is read back as the number.
-/
namespace GasEscalator

namespace Binary64

/-! ## Rounding with a known shift -/

theorem leastShift_unique {n d k : Nat} (hd : 0 < d) (below : n < d * 2 ^ (k + 53))
    (above : 0 < k → d * 2 ^ (k + 52) ≤ n) : leastShift n d = k := by
  obtain ⟨below', above'⟩ := leastShift_spec hd (n := n)
  have atMost := le_of_shifts Nat.le.refl below above'
  have atLeast := le_of_shifts Nat.le.refl below' above
  exact Nat.le_antisymm atMost atLeast

theorem roundMagnitude_of_shift {n d k : Nat} (hd : 0 < d) (below : n < d * 2 ^ (k + 53))
    (above : 0 < k → d * 2 ^ (k + 52) ≤ n) : roundMagnitude n d =
      min infiniteMagnitude (k * fractionBound + roundHalfEven n (d * 2 ^ k)) := by
  rw [roundMagnitude_eq, roundedSignificand, leastShift_unique hd below above, Nat.shiftLeft_eq]

/-- A ratio rounds to an integer that is at most one half away, if the integer is even where it is
just one half. -/
theorem roundHalfEven_eq {n d q : Nat} (hd : 0 < d) (low : 2 * (q * d) ≤ 2 * n + d)
    (high : 2 * n ≤ 2 * (q * d) + d)
    (ties : 2 * (q * d) = 2 * n + d ∨ 2 * n = 2 * (q * d) + d → q % 2 = 0) :
    roundHalfEven n d = q := by
  have split := Nat.div_add_mod n d
  have small := Nat.mod_lt n hd
  have atMost : q ≤ n / d + 1 := by
    by_contra more
    have := Nat.mul_le_mul_right d (Nat.le_of_lt_succ (Nat.lt_succ_of_le (Nat.lt_of_not_le more)))
    rw [Nat.succ_mul, Nat.add_mul, Nat.mul_comm (n / d)] at this
    omega
  have atLeast : n / d ≤ q := by
    by_contra less
    have := Nat.mul_le_mul_right d (Nat.lt_of_not_le less)
    rw [Nat.succ_mul, Nat.mul_comm (n / d)] at this
    omega
  unfold roundHalfEven
  dsimp only
  -- the ratio is rounded down to the integer or up to it
  obtain rfl | rfl : q = n / d ∨ q = n / d + 1 := by omega
  · rw [Nat.mul_comm (n / d)] at low high ties
    split
    · rfl
    · split <;> omega
  · rw [Nat.add_mul, Nat.mul_comm (n / d)] at low high ties
    split
    · omega
    · split <;> omega

/-- A magnitude is the significand above the places that it is shifted up by. -/
theorem magnitude_eq (x : Binary64) : x.magnitude = x.shift * fractionBound + x.significand := by
  unfold shift significand exponentField
  have split := Nat.div_add_mod x.magnitude fractionBound
  split
  case isTrue subnormal => rw [subnormal, Nat.zero_sub, Nat.zero_mul, Nat.zero_add]
  case isFalse normal =>
    obtain ⟨k, hk⟩ := Nat.exists_eq_succ_of_ne_zero normal
    rw [hk] at split ⊢
    rw [Nat.succ_sub_one, ← Nat.add_assoc, ← Nat.succ_mul, Nat.mul_comm]
    exact split.symm

/-- Only a number whose significand has all its bits is shifted. -/
theorem le_significand_of_shift {x : Binary64} (shifted : 0 < x.shift) :
    2 ^ 52 ≤ x.significand := by
  unfold shift at shifted
  rw [significand, if_neg (by omega)]
  exact Nat.le_add_right _ _

theorem ofMagnitude_self (x : Binary64) : ofMagnitude x.negative x.magnitude = x := by
  have bound := x.bits.toNat_lt
  cases x with
  | mk bits =>
    rw [ofMagnitude, Binary64.mk.injEq]
    apply UInt64.toNat.inj
    rw [UInt64.toNat_ofNat']
    unfold negative magnitude at *
    dsimp only at *
    split
    case isTrue sign =>
      have := of_decide_eq_true sign
      omega
    case isFalse sign =>
      have : ¬ 0x8000000000000000 ≤ bits.toNat := fun h => sign (decide_eq_true h)
      omega

end Binary64

namespace Decimal

/-! ## Rounding intervals -/

namespace RoundingInterval

/-- The interval holds `n / d` units. -/
structure Holds (i : RoundingInterval) (n d : Nat) : Prop where
  low : i.low * (d * 2 ^ i.shift) ≤ 4 * n
  high : 4 * n ≤ i.high * (d * 2 ^ i.shift)
  ends : 4 * n = i.low * (d * 2 ^ i.shift) ∨ 4 * n = i.high * (d * 2 ^ i.shift) → i.closed = true

/-- It holds a ratio however it is written. -/
theorem Holds.congr {i : RoundingInterval} {n d n' d' : Nat} (h : i.Holds n d) (hd : 0 < d)
    (hd' : 0 < d') (same : n * d' = n' * d) : i.Holds n' d' := by
  have scaled (a : Nat) : a * (d' * 2 ^ i.shift) * d = a * (d * 2 ^ i.shift) * d' := by ring
  have moved : 4 * n' * d = 4 * n * d' := by
    rw [Nat.mul_assoc, ← same, Nat.mul_assoc]
  refine ⟨?_, ?_, ?_⟩
  · apply Nat.le_of_mul_le_mul_right _ hd
    rw [scaled, moved]
    exact Nat.mul_le_mul_right _ h.low
  · apply Nat.le_of_mul_le_mul_right _ hd
    rw [scaled, moved]
    exact Nat.mul_le_mul_right _ h.high
  · intro atEnd
    have back {a : Nat} (same : 4 * n' = a * (d' * 2 ^ i.shift)) :
        4 * n = a * (d * 2 ^ i.shift) := by
      apply Nat.eq_of_mul_eq_mul_right hd'
      rw [← moved, same, scaled]
    exact h.ends (atEnd.imp back back)

end RoundingInterval

end Decimal

namespace Binary64

open Decimal

theorem significand_pos {x : Binary64} (nonzero : x.magnitude ≠ 0) : 0 < x.significand := by
  have whole := x.magnitude_eq
  by_cases shifted : 0 < x.shift
  · exact Nat.lt_of_lt_of_le (by decide) (le_significand_of_shift shifted)
  · rw [Nat.eq_zero_of_not_pos shifted, Nat.zero_mul, Nat.zero_add] at whole
    omega

section Held

variable {x : Binary64} {n d : Nat}

/-- A ratio in the interval is within one half of the significand. -/
theorem roundHalfEven_of_holds (nonzero : x.magnitude ≠ 0) (hd : 0 < d)
    (h : (RoundingInterval.of x).Holds n d) :
    roundHalfEven n (d * 2 ^ x.shift) = x.significand := by
  have pos := significand_pos nonzero
  obtain ⟨low, high, ends⟩ := h
  simp only [RoundingInterval.of, decide_eq_true_eq] at low high ends
  have hstep : 0 < d * 2 ^ x.shift := Nat.mul_pos hd (Nat.two_pow_pos _)
  generalize d * 2 ^ x.shift = step at low high ends hstep ⊢
  rw [Nat.add_mul, Nat.mul_assoc] at high ends
  by_cases narrow : (decide (x.significand = fractionBound) && decide (0 < x.shift)) = true
  · -- below a power of two the interval ends sooner, and a power of two is even
    rw [if_pos narrow, Nat.sub_mul, Nat.mul_assoc] at low ends
    have even : x.significand % 2 = 0 := by
      rw [of_decide_eq_true (Bool.and_eq_true_iff.mp narrow).1]
      rfl
    apply roundHalfEven_eq hstep <;> omega
  · rw [if_neg narrow, Nat.sub_mul, Nat.mul_assoc] at low ends
    have above : step ≤ x.significand * step := Nat.le_mul_of_pos_left _ pos
    apply roundHalfEven_eq hstep <;> omega

/-- **What a rounding interval holds is rounded to its number.** -/
theorem roundMagnitude_of_holds (finite : x.isFinite = true) (nonzero : x.magnitude ≠ 0)
    (hd : 0 < d) (h : (RoundingInterval.of x).Holds n d) : roundMagnitude n d = x.magnitude := by
  have finite := of_decide_eq_true finite
  have short := x.significand_lt
  have whole := x.magnitude_eq
  have nearest := roundHalfEven_of_holds nonzero hd h
  obtain ⟨low, high, -⟩ := h
  simp only [RoundingInterval.of] at low high
  have hstep : 0 < d * 2 ^ x.shift := Nat.mul_pos hd (Nat.two_pow_pos _)
  have below : n < d * 2 ^ (x.shift + 53) := by
    have : (4 * x.significand + 2) * (d * 2 ^ x.shift) < 4 * 2 ^ 53 * (d * 2 ^ x.shift) :=
      Nat.mul_lt_mul_of_pos_right (by omega) hstep
    have : 4 * 2 ^ 53 * (d * 2 ^ x.shift) = 4 * (d * 2 ^ (x.shift + 53)) := by ring
    omega
  by_cases regular : 0 < x.shift → d * 2 ^ (x.shift + 52) ≤ n
  · rw [roundMagnitude_of_shift hd below regular, nearest, ← whole]
    exact Nat.min_eq_right finite.le
  · -- just below a power of two the significand is rounded up to that of the next shift
    obtain ⟨shifted, less⟩ := Classical.not_imp.mp regular
    obtain ⟨k, hk⟩ : ∃ k, x.shift = k + 1 := ⟨x.shift - 1, by omega⟩
    have atLeast : 2 ^ 52 ≤ x.significand := le_significand_of_shift shifted
    have hstep' : 0 < d * 2 ^ k := Nat.mul_pos hd (Nat.two_pow_pos _)
    rw [hk, show d * 2 ^ (k + 1) = 2 * (d * 2 ^ k) by ring] at low
    rw [hk, show d * 2 ^ (k + 1 + 52) = 2 ^ 53 * (d * 2 ^ k) by ring] at less
    have least : x.significand = 2 ^ 52 := by
      have loose : (4 * x.significand - 2) * (2 * (d * 2 ^ k)) ≤ 4 * n :=
        (Nat.mul_le_mul_right _ (by split <;> omega)).trans low
      by_contra more
      have : (2 ^ 54 + 2) * (2 * (d * 2 ^ k)) ≤ (4 * x.significand - 2) * (2 * (d * 2 ^ k)) :=
        Nat.mul_le_mul_right _ (by omega)
      omega
    rw [least, if_pos (by simp)] at low
    have near : roundHalfEven n (d * 2 ^ k) = 2 ^ 53 := by
      apply roundHalfEven_eq hstep' <;> omega
    have below' : n < d * 2 ^ (k + 53) := by
      rw [show d * 2 ^ (k + 53) = 2 ^ 53 * (d * 2 ^ k) by ring]
      omega
    have above' : d * 2 ^ (k + 52) ≤ n := by
      rw [show d * 2 ^ (k + 52) = 2 ^ 52 * (d * 2 ^ k) by ring]
      omega
    have same : k * fractionBound + 2 ^ 53 = x.magnitude := by
      rw [whole, hk, least, fractionBound]
      omega
    rw [roundMagnitude_of_shift hd below' fun _ => above', near, same]
    exact Nat.min_eq_right finite.le

end Held

end Binary64

namespace Decimal

/-! ## The search -/

/-- The numerator of a decimal in units. -/
def unitNumerator (d : Decimal) : Nat := d.digits * 10 ^ d.exponent.toNat * Binary64.unitsPerOne

/-- The denominator that goes with it. -/
def denominator (d : Decimal) : Nat := 10 ^ (-d.exponent).toNat

theorem denominator_pos (d : Decimal) : 0 < d.denominator := Nat.pow_pos (by decide)

namespace RoundingInterval

variable {i : RoundingInterval} {tie : TieRule} {s : Int} {k : Nat}

theorem quarterNumerator_eq (i : RoundingInterval) (s : Int) :
    i.quarterNumerator s = 10 ^ (-s).toNat * 2 ^ i.shift := Nat.shiftLeft_eq ..

theorem quarterNumerator_pos (i : RoundingInterval) (s : Int) : 0 < i.quarterNumerator s := by
  rw [quarterNumerator_eq]
  exact Nat.mul_pos (Nat.pow_pos (by decide)) (Nat.two_pow_pos _)

theorem mul_quarterDenominator (k : Nat) (s : Int) :
    k * quarterDenominator s = 4 * (Decimal.mk k s).unitNumerator := by
  show k * (4 * Binary64.unitsPerOne * 10 ^ s.toNat) = 4 * (k * 10 ^ s.toNat * Binary64.unitsPerOne)
  ring

theorem holds_of_strict (above : i.low * i.quarterNumerator s < 4 * (Decimal.mk k s).unitNumerator)
    (below : 4 * (Decimal.mk k s).unitNumerator < i.high * i.quarterNumerator s) :
    i.Holds (Decimal.mk k s).unitNumerator (Decimal.mk k s).denominator := by
  rw [quarterNumerator_eq] at above below
  refine ⟨above.le, below.le, ?_⟩
  rintro (atEnd | atEnd)
  · exact absurd atEnd above.ne'
  · exact absurd atEnd below.ne

theorem holds_of_test (h : (if i.closed then
      decide (i.low * i.quarterNumerator s ≤ k * quarterDenominator s) &&
        decide (k * quarterDenominator s ≤ i.high * i.quarterNumerator s)
    else decide (i.low * i.quarterNumerator s < k * quarterDenominator s) &&
      decide (k * quarterDenominator s < i.high * i.quarterNumerator s)) = true) :
    i.Holds (Decimal.mk k s).unitNumerator (Decimal.mk k s).denominator := by
  rw [mul_quarterDenominator] at h
  split at h
  case isTrue closed =>
    rw [Bool.and_eq_true, decide_eq_true_eq, decide_eq_true_eq, quarterNumerator_eq] at h
    exact ⟨h.1, h.2, fun _ => closed⟩
  case isFalse =>
    rw [Bool.and_eq_true, decide_eq_true_eq, decide_eq_true_eq] at h
    exact holds_of_strict h.1 h.2

theorem holds_of_pointOn (h : i.pointOn tie s = some k) :
    i.Holds (Decimal.mk k s).unitNumerator (Decimal.mk k s).denominator := by
  unfold pointOn at h
  dsimp only at h
  split at h
  case h_1 => cases h
  case h_2 below _ =>
    obtain rfl := Option.some.inj h
    exact holds_of_test below
  case h_3 _ above =>
    obtain rfl := Option.some.inj h
    exact holds_of_test above
  case h_4 below above =>
    split at h
    · obtain rfl := Option.some.inj h
      exact holds_of_test above
    · obtain rfl := Option.some.inj h
      exact holds_of_test below

/-- The search ends within the interval, if its middle is a point of the last grid. -/
theorem holds_search (inside : i.low < i.middle ∧ i.middle < i.high) {n : Nat} {s : Int}
    (onGrid : quarterDenominator (s - n) ∣ i.middle * i.quarterNumerator (s - n)) :
    i.Holds (i.search tie n s).unitNumerator (i.search tie n s).denominator := by
  induction n generalizing s with
  | zero =>
    -- on the last grid the middle itself is the answer, and it is not at an end
    rw [Int.natCast_zero, Int.sub_zero] at onGrid
    have exact_ := Nat.div_mul_cancel onGrid
    rw [mul_quarterDenominator] at exact_
    have pos := i.quarterNumerator_pos s
    have above := Nat.mul_lt_mul_of_pos_right inside.1 pos
    have below := Nat.mul_lt_mul_of_pos_right inside.2 pos
    rw [← exact_] at above below
    rw [search]
    exact holds_of_strict above below
  | succ n ih =>
    unfold search
    split
    case h_1 hit => exact holds_of_pointOn hit
    case h_2 =>
      apply ih
      rw [show s - 1 - (n : Int) = s - (n + 1 : Nat) by omega]
      exact onGrid

end RoundingInterval

/-- A finite number is a multiple of the last grid that is tried. -/
theorem middle_onGrid (x : Binary64) {s : Int} (hs : s = min ((x.shift : Int) - 1074) 0) :
    quarterDenominator s ∣ (RoundingInterval.of x).middle *
      (RoundingInterval.of x).quarterNumerator s := by
  have one : Binary64.unitsPerOne = 2 ^ (52 + Binary64.oneShift) := by
    rw [Binary64.unitsPerOne_eq, Nat.pow_add]
  have places : 52 + Binary64.oneShift = 1074 := rfl
  have coarse : s.toNat = 0 := by omega
  obtain ⟨fine, hfine⟩ : ∃ fine, (-s).toNat = fine := ⟨_, rfl⟩
  obtain ⟨spare, hspare⟩ : ∃ spare, fine + x.shift = 52 + Binary64.oneShift + spare :=
    ⟨fine + x.shift - (52 + Binary64.oneShift), by omega⟩
  -- the tens and the shift bring as many twos as one unit has
  have tens : 10 ^ fine * 2 ^ x.shift = 2 ^ (52 + Binary64.oneShift) * (5 ^ fine * 2 ^ spare) := by
    calc 10 ^ fine * 2 ^ x.shift = (5 * 2) ^ fine * 2 ^ x.shift := rfl
      _ = 5 ^ fine * 2 ^ (fine + x.shift) := by rw [Nat.mul_pow, Nat.pow_add, Nat.mul_assoc]
      _ = 2 ^ (52 + Binary64.oneShift) * (5 ^ fine * 2 ^ spare) := by
        rw [hspare, Nat.pow_add 2 (52 + Binary64.oneShift), Nat.mul_left_comm]
  rw [RoundingInterval.quarterNumerator_eq, hfine]
  show 4 * Binary64.unitsPerOne * 10 ^ s.toNat ∣ 4 * x.significand * (10 ^ fine * 2 ^ x.shift)
  rw [coarse, one, tens]
  refine ⟨x.significand * (5 ^ fine * 2 ^ spare), ?_⟩
  generalize 2 ^ (52 + Binary64.oneShift) = u
  ring

/-- The interval around a finite number holds its shortest decimal. -/
theorem holds_shortest {x : Binary64} (nonzero : x.magnitude ≠ 0) (tie : TieRule) :
    (RoundingInterval.of x).Holds (shortest tie x).unitNumerator (shortest tie x).denominator := by
  have pos := Binary64.significand_pos nonzero
  rw [shortest, if_neg nonzero]
  dsimp only
  apply RoundingInterval.holds_search
  · show 4 * x.significand - _ < 4 * x.significand ∧ 4 * x.significand < 4 * x.significand + 2
    constructor
    · split <;> omega
    · omega
  · apply middle_onGrid
    omega

end Decimal

end GasEscalator
