import GasEscalator.Binary64
import Mathlib.Tactic.Ring
import Mathlib.Tactic.SplitIfs

/-!
# Rounding to binary floating-point numbers

A ratio is rounded in two parts, the places by which it is shifted down and the significand that is
left. Together they count the units of the result, a significand of fifty-three bits at a time, so
that a number which needs no more bits than that is never stepped over.
-/
namespace GasEscalator.Binary64

/-! ## The nearest integer -/

theorem roundHalfEven_bounds (n d : Nat) :
    n / d ≤ roundHalfEven n d ∧ roundHalfEven n d ≤ n / d + 1 := by
  have hm : n / d % 2 < 2 := Nat.mod_lt _ (by decide)
  unfold roundHalfEven
  dsimp only
  split
  · omega
  · split <;> omega

/-- The nearest integer is not more than one half below the ratio. -/
theorem two_mul_le_roundHalfEven {n d : Nat} (hd : 0 < d) :
    2 * n ≤ (2 * roundHalfEven n d + 1) * d := by
  have split := Nat.div_add_mod n d
  have small := Nat.mod_lt n hd
  have expand (q : Nat) : (2 * q + 1) * d = 2 * (d * q) + d := by ring
  unfold roundHalfEven
  dsimp only
  split
  · rw [expand]
    omega
  · split
    · rw [expand, Nat.mul_succ]
      omega
    · have up : d * (n / d) ≤ d * (n / d + n / d % 2) := Nat.mul_le_mul_left d (Nat.le_add_right _ _)
      rw [expand]
      omega

/-- Nor is it more than one half above. -/
theorem two_mul_roundHalfEven_le (n d : Nat) : 2 * (roundHalfEven n d * d) ≤ 2 * n + d := by
  have split := Nat.div_add_mod n d
  have up : (n / d + 1) * d = d * (n / d) + d := by ring
  unfold roundHalfEven
  dsimp only
  split
  · rw [Nat.mul_comm (n / d)]
    omega
  · split
    · rw [up]
      omega
    · have half : (n / d + n / d % 2) * d ≤ (n / d + 1) * d := Nat.mul_le_mul_right d (by omega)
      omega

theorem roundHalfEven_mono {n n' : Nat} (d : Nat) (h : n ≤ n') :
    roundHalfEven n d ≤ roundHalfEven n' d := by
  rcases Nat.lt_or_eq_of_le (Nat.div_le_div_right h : n / d ≤ n' / d) with less | same
  · have high := (roundHalfEven_bounds n d).2
    have low := (roundHalfEven_bounds n' d).1
    omega
  · -- of two ratios with the same integer part the remainders decide
    have split := Nat.div_add_mod n d
    have split' := Nat.div_add_mod n' d
    rw [← same] at split'
    unfold roundHalfEven
    dsimp only
    rw [← same]
    split_ifs <;> omega

/-! ## The shift -/

/-- If a ratio has few enough bits when it is shifted down by `i` places, and one that is not above
it needs `j` of them, then `j` is at most `i`. -/
theorem le_of_shifts {n n' d i j : Nat} (h : n ≤ n') (fits : n' < d * 2 ^ (i + 53))
    (needed : 0 < j → d * 2 ^ (j + 52) ≤ n) : j ≤ i := by
  by_contra more
  have hpow : 2 ^ (i + 53) ≤ 2 ^ (j + 52) := Nat.pow_le_pow_right (by decide) (by omega)
  have hn := needed (by omega)
  have hd := Nat.mul_le_mul_left d hpow
  omega

/-- The shift leaves fifty-three bits in front of the point, or all of them when it is zero. -/
theorem leastShift_spec {n d : Nat} (hd : 0 < d) :
    n < d * 2 ^ (leastShift n d + 53) ∧
      (0 < leastShift n d → d * 2 ^ (leastShift n d + 52) ≤ n) := by
  have hlow : 2 ^ d.log2 ≤ d := Nat.log2_self_le hd.ne'
  have hhigh : d < 2 ^ (d.log2 + 1) := Nat.lt_log2_self
  have hn : n < 2 ^ (n.log2 + 1) := Nat.lt_log2_self
  unfold leastShift
  dsimp only
  rw [Nat.shiftLeft_eq]
  split
  case isTrue fits =>
    refine ⟨fits, ?_⟩
    intro hk
    have hne : n ≠ 0 := by
      rintro rfl
      simp at hk
    have hexp : d.log2 + 1 + (n.log2 - d.log2 - 53 + 52) = n.log2 := by omega
    have hself : 2 ^ n.log2 ≤ n := Nat.log2_self_le hne
    rw [← hexp, Nat.pow_add] at hself
    exact (Nat.mul_le_mul_right _ hhigh.le).trans hself
  case isFalse long =>
    have long := Nat.le_of_not_lt long
    constructor
    · calc n < 2 ^ (n.log2 + 1) := hn
        _ ≤ 2 ^ (d.log2 + (n.log2 - d.log2 - 53 + 1 + 53)) :=
          Nat.pow_le_pow_right (by decide) (by omega)
        _ = 2 ^ d.log2 * 2 ^ (n.log2 - d.log2 - 53 + 1 + 53) := Nat.pow_add ..
        _ ≤ d * 2 ^ (n.log2 - d.log2 - 53 + 1 + 53) := Nat.mul_le_mul_right _ hlow
    · intro _
      have hexp : n.log2 - d.log2 - 53 + 1 + 52 = n.log2 - d.log2 - 53 + 53 := by omega
      rw [hexp]
      exact long

theorem leastShift_mono {n n' d : Nat} (hd : 0 < d) (h : n ≤ n') :
    leastShift n d ≤ leastShift n' d :=
  le_of_shifts h (leastShift_spec hd).1 (leastShift_spec hd).2

/-- A ratio of more than fifty-three bits is shifted. -/
theorem leastShift_pos {n d : Nat} (hd : 0 < d) (h : d * 2 ^ 53 ≤ n) : 0 < leastShift n d := by
  by_contra hk
  have hlt := (leastShift_spec hd (n := n)).1
  rw [Nat.eq_zero_of_not_pos hk, Nat.zero_add] at hlt
  omega

/-! ## The significand -/

/-- The significand of a ratio once it has been shifted down. -/
def roundedSignificand (n d : Nat) : Nat := roundHalfEven n (d <<< leastShift n d)

theorem roundMagnitude_eq (n d : Nat) :
    roundMagnitude n d =
      min infiniteMagnitude (leastShift n d * fractionBound + roundedSignificand n d) := rfl

/-- The units that a ratio is rounded to, where they are not too many. -/
def roundedUnits (n d : Nat) : Nat := roundedSignificand n d * 2 ^ leastShift n d

theorem quotient_bounds (n d : Nat) :
    n / (d * 2 ^ leastShift n d) ≤ roundedSignificand n d ∧
      roundedSignificand n d ≤ n / (d * 2 ^ leastShift n d) + 1 := by
  rw [roundedSignificand, Nat.shiftLeft_eq]
  exact roundHalfEven_bounds n _

theorem roundedSignificand_le {n d : Nat} (hd : 0 < d) : roundedSignificand n d ≤ 2 ^ 53 := by
  have hlt := (leastShift_spec hd (n := n)).1
  have hq : n / (d * 2 ^ leastShift n d) < 2 ^ 53 := by
    apply Nat.div_lt_of_lt_mul
    rwa [Nat.mul_assoc, ← Nat.pow_add]
  have := (quotient_bounds n d).2
  omega

theorem le_roundedSignificand {n d : Nat} (hd : 0 < d) (hk : 0 < leastShift n d) :
    2 ^ 52 ≤ roundedSignificand n d := by
  have hle := (leastShift_spec hd).2 hk
  have hpos : 0 < d * 2 ^ leastShift n d := Nat.mul_pos hd (Nat.two_pow_pos _)
  have hq : 2 ^ 52 ≤ n / (d * 2 ^ leastShift n d) := by
    rw [Nat.le_div_iff_mul_le hpos]
    calc 2 ^ 52 * (d * 2 ^ leastShift n d) = d * 2 ^ (leastShift n d + 52) := by ring
      _ ≤ n := hle
  exact hq.trans (quotient_bounds n d).1

/-- **Rounding steps over no short number.** A ratio that is at least `s * 2 ^ j`, where `s` has
fifty-three bits, is rounded to no less. -/
theorem le_roundedUnits {n d s j : Nat} (hd : 0 < d) (hs : s ≤ 2 ^ 53) (h : s * 2 ^ j * d ≤ n) :
    s * 2 ^ j ≤ roundedUnits n d := by
  unfold roundedUnits
  by_cases hj : leastShift n d ≤ j
  · -- no place of the short number is lost by the shift
    obtain ⟨i, rfl⟩ := Nat.exists_eq_add_of_le hj
    have hpos : 0 < d * 2 ^ leastShift n d := Nat.mul_pos hd (Nat.two_pow_pos _)
    have hq : s * 2 ^ i ≤ n / (d * 2 ^ leastShift n d) := by
      rw [Nat.le_div_iff_mul_le hpos]
      calc s * 2 ^ i * (d * 2 ^ leastShift n d) = s * 2 ^ (leastShift n d + i) * d := by ring
        _ ≤ n := h
    calc s * 2 ^ (leastShift n d + i) = s * 2 ^ i * 2 ^ leastShift n d := by ring
      _ ≤ roundedSignificand n d * 2 ^ leastShift n d :=
        Nat.mul_le_mul_right _ (hq.trans (quotient_bounds n d).1)
  · -- the short number is below every significand that is left after the shift
    obtain ⟨k, hk⟩ : ∃ k, leastShift n d = k + 1 := ⟨leastShift n d - 1, by omega⟩
    have hsig := le_roundedSignificand hd (n := n) (by omega)
    have hpow : 2 ^ j ≤ 2 ^ k := Nat.pow_le_pow_right (by decide) (by omega)
    rw [hk]
    calc s * 2 ^ j ≤ 2 ^ 53 * 2 ^ k := Nat.mul_le_mul hs hpow
      _ = 2 ^ 52 * 2 ^ (k + 1) := by ring
      _ ≤ roundedSignificand n d * 2 ^ (k + 1) := Nat.mul_le_mul_right _ hsig

theorem roundedUnits_mono {n n' d : Nat} (hd : 0 < d) (h : n ≤ n') :
    roundedUnits n d ≤ roundedUnits n' d := by
  unfold roundedUnits
  rcases Nat.lt_or_eq_of_le (leastShift_mono hd h) with less | same
  · -- the larger ratio is in a higher binade, or at its lower end
    obtain ⟨i, hi⟩ := Nat.exists_eq_add_of_lt less
    have hsig := le_roundedSignificand hd (n := n') (by omega)
    rw [hi]
    calc roundedSignificand n d * 2 ^ leastShift n d ≤ 2 ^ 53 * 2 ^ leastShift n d :=
          Nat.mul_le_mul_right _ (roundedSignificand_le hd)
      _ = 2 ^ 52 * 2 ^ (leastShift n d + 1) := by ring
      _ ≤ roundedSignificand n' d * 2 ^ (leastShift n d + i + 1) :=
          Nat.mul_le_mul hsig (Nat.pow_le_pow_right (by decide) (by omega))
  · rw [roundedSignificand, roundedSignificand, same]
    exact Nat.mul_le_mul_right _ (roundHalfEven_mono _ h)

/-- **One rounding costs little.** Where the significand has all its bits, a ratio is rounded by at
most one part in `2 ^ 53`. -/
theorem roundedUnits_bounds {n d : Nat} (hd : 0 < d) (hk : 0 < leastShift n d) :
    2 ^ 53 * n ≤ 2 ^ 53 * (roundedUnits n d * d) + n ∧
      2 ^ 53 * (roundedUnits n d * d) ≤ 2 ^ 53 * n + n := by
  have hle := (leastShift_spec hd).2 hk
  have low := two_mul_le_roundHalfEven (n := n) (Nat.mul_pos hd (Nat.two_pow_pos (leastShift n d)))
  have high := two_mul_roundHalfEven_le n (d * 2 ^ leastShift n d)
  have hunits : roundedUnits n d * d =
      roundHalfEven n (d * 2 ^ leastShift n d) * (d * 2 ^ leastShift n d) := by
    rw [roundedUnits, roundedSignificand, Nat.shiftLeft_eq]
    ring
  have hplace : d * 2 ^ (leastShift n d + 52) = 2 ^ 52 * (d * 2 ^ leastShift n d) := by ring
  have hodd (s place : Nat) : (2 * s + 1) * place = 2 * (s * place) + place := by ring
  rw [hunits]
  rw [hplace] at hle
  rw [hodd] at low
  omega

/-! ## The number -/

theorem magnitude_ofMagnitude {magnitude : Nat} (negative : Bool)
    (h : magnitude < 0x8000000000000000) :
    (ofMagnitude negative magnitude).magnitude = magnitude := by
  rw [Binary64.magnitude, ofMagnitude]
  dsimp only
  rw [UInt64.toNat_ofNat']
  cases negative <;> simp <;> omega

theorem negative_ofMagnitude {magnitude : Nat} (h : magnitude < 0x8000000000000000) :
    (ofMagnitude false magnitude).negative = false := by
  rw [Binary64.negative, ofMagnitude]
  dsimp only
  rw [UInt64.toNat_ofNat']
  simp
  omega

theorem roundMagnitude_le (n d : Nat) : roundMagnitude n d ≤ infiniteMagnitude := by
  rw [roundMagnitude_eq]
  exact Nat.min_le_left _ _

theorem infiniteMagnitude_lt : infiniteMagnitude < 0x8000000000000000 := by decide

/-- A magnitude is a significand above the places that it is shifted up by. A significand that has
been rounded up to `2 ^ 53` is the least one of the next exponent. -/
theorem units_of_magnitude {x : Binary64} {k significand : Nat}
    (hx : x.magnitude = k * fractionBound + significand) (hle : significand ≤ 2 ^ 53)
    (hge : 0 < k → 2 ^ 52 ≤ significand) : x.units = significand * 2 ^ k := by
  rw [units, Nat.shiftLeft_eq, shift, Binary64.significand, exponentField, hx]
  simp only [fractionBound]
  by_cases hsub : significand < 2 ^ 52
  · obtain rfl : k = 0 := by
      by_contra hk
      have := hge (Nat.pos_of_ne_zero hk)
      omega
    have he : (0 * 0x10000000000000 + significand) / 0x10000000000000 = 0 := by omega
    rw [he, if_pos rfl, Nat.zero_mul, Nat.zero_add]
  · by_cases hcarry : significand = 2 ^ 53
    · have he : (k * 0x10000000000000 + significand) / 0x10000000000000 = k + 2 := by omega
      have hf : (k * 0x10000000000000 + significand) % 0x10000000000000 = 0 := by omega
      rw [he, hf, if_neg (by omega), hcarry]
      show 0x10000000000000 * 2 ^ (k + 1) = 2 ^ 53 * 2 ^ k
      ring
    · have he : (k * 0x10000000000000 + significand) / 0x10000000000000 = k + 1 := by omega
      have hf : 0x10000000000000 + (k * 0x10000000000000 + significand) % 0x10000000000000 =
          significand := by omega
      rw [he, hf, if_neg (by omega)]
      rfl

/-- A rounded number that is not infinite counts the units it was rounded to. -/
theorem units_ofUnits {n d : Nat} (negative : Bool) (hd : 0 < d)
    (finite : roundMagnitude n d < infiniteMagnitude) :
    (ofUnits negative n d).units = roundedUnits n d := by
  refine units_of_magnitude ?_ (roundedSignificand_le hd) (le_roundedSignificand hd)
  rw [ofUnits, magnitude_ofMagnitude negative (finite.trans infiniteMagnitude_lt)]
  rw [roundMagnitude_eq] at finite ⊢
  omega

end GasEscalator.Binary64
