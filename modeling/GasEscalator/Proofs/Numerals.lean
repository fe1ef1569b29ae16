import GasEscalator.Json.Number
import GasEscalator.Proofs.Digits
import GasEscalator.Proofs.ShortestDecimal

/-!
# Numerals of binary numbers

A finite number is read back from the numeral that it is written with. Written out or with a power
of ten, the numeral denotes the shortest decimal, which the number's rounding interval holds; and no
decimal in such an interval is so large or so small that it would be settled by its digits alone.
-/
namespace GasEscalator

open Decimal

/-! ## The range of finite numbers -/

namespace Binary64

theorem shift_le {x : Binary64} (finite : x.isFinite = true) : x.shift ≤ 2045 := by
  have finite := of_decide_eq_true finite
  unfold shift exponentField
  unfold infiniteMagnitude at finite
  simp only [fractionBound]
  omega

theorem low_pos {x : Binary64} (nonzero : x.magnitude ≠ 0) : 2 ≤ (RoundingInterval.of x).low := by
  have pos := significand_pos nonzero
  show 2 ≤ 4 * x.significand - _
  split <;> omega

theorem high_le (x : Binary64) : (RoundingInterval.of x).high ≤ 4 * 2 ^ 53 := by
  have short := x.significand_lt
  show 4 * x.significand + 2 ≤ _
  omega

section Range

variable {x : Binary64} {d : Decimal}

/-- Ten to this power is beyond the largest number. -/
def decadesAbove : Nat := 309

/-- One over ten to this power is below half of the least number. -/
def decadesBelow : Nat := 324

theorem decades : 2 ^ (2 + oneShift) < 10 ^ decadesAbove ∧
    2 ^ (53 + oneShift) < 10 ^ decadesBelow := by decide +kernel

/-- A decimal that rounds to a finite number has its first digit at most so far in front of the
point. -/
theorem pointPosition_le (finite : x.isFinite = true)
    (h : (RoundingInterval.of x).Holds d.unitNumerator d.denominator) (pos : 0 < d.digits) :
    d.pointPosition ≤ decadesAbove := by
  have atLeast := Json.pow_length_le pos
  have shift : 2 ^ x.shift ≤ 2 ^ (1 + 2 * oneShift) :=
    Nat.pow_le_pow_right (by decide) (shift_le finite)
  -- both sides are exponents of ten, and the powers are compared in four units and more
  have ends : (toString d.digits).length - 1 + d.exponent.toNat <
      decadesAbove + (-d.exponent).toNat := by
    apply (Nat.pow_lt_pow_iff_right (a := 10) (by decide)).mp
    have pos : 0 < 2 ^ (52 + oneShift) := Nat.two_pow_pos _
    apply Nat.lt_of_mul_lt_mul_left (a := 4 * 2 ^ (52 + oneShift))
    calc 4 * 2 ^ (52 + oneShift) * 10 ^ ((toString d.digits).length - 1 + d.exponent.toNat)
        = 4 * (10 ^ ((toString d.digits).length - 1) * 10 ^ d.exponent.toNat * unitsPerOne) := by
          rw [unitsPerOne_eq, Nat.pow_add 10, Nat.pow_add 2]
          ring
      _ ≤ 4 * d.unitNumerator := by
          exact Nat.mul_le_mul_left _ (Nat.mul_le_mul_right _ (Nat.mul_le_mul_right _ atLeast))
      _ ≤ (RoundingInterval.of x).high * (d.denominator * 2 ^ x.shift) := h.high
      _ ≤ 4 * 2 ^ 53 * (d.denominator * 2 ^ (1 + 2 * oneShift)) :=
          Nat.mul_le_mul (high_le x) (Nat.mul_le_mul_left _ shift)
      _ = 4 * 2 ^ (52 + oneShift) * (2 ^ (2 + oneShift) * 10 ^ (-d.exponent).toNat) := by
          rw [denominator]
          ring
      _ < 4 * 2 ^ (52 + oneShift) * 10 ^ (decadesAbove + (-d.exponent).toNat) := by
          rw [Nat.pow_add 10]
          exact Nat.mul_lt_mul_of_pos_left
            (Nat.mul_lt_mul_of_pos_right decades.1 (Nat.pow_pos (by decide))) (by omega)
  have single := Json.length_toString_pos d.digits
  rw [pointPosition, digitChars, String.length_toList]
  omega

/-- It has its first digit at most so far behind the point. -/
theorem le_pointPosition (nonzero : x.magnitude ≠ 0)
    (h : (RoundingInterval.of x).Holds d.unitNumerator d.denominator) :
    -(decadesBelow : Int) ≤ d.pointPosition := by
  have atMost := Json.lt_pow_length d.digits
  have ends : (-d.exponent).toNat <
      decadesBelow + (toString d.digits).length + d.exponent.toNat := by
    apply (Nat.pow_lt_pow_iff_right (a := 10) (by decide)).mp
    apply Nat.lt_of_mul_lt_mul_left (a := 2)
    have pos : 0 < 10 ^ d.exponent.toNat * unitsPerOne :=
      Nat.mul_pos (Nat.pow_pos (by decide)) unitsPerOne_pos
    calc 2 * 10 ^ (-d.exponent).toNat
        ≤ (RoundingInterval.of x).low * (d.denominator * 2 ^ x.shift) :=
          Nat.mul_le_mul (low_pos nonzero) (Nat.le_mul_of_pos_right _ (Nat.two_pow_pos _))
      _ ≤ 4 * d.unitNumerator := h.low
      _ < 4 * (10 ^ (toString d.digits).length * (10 ^ d.exponent.toNat * unitsPerOne)) := by
          rw [unitNumerator, Nat.mul_assoc d.digits]
          exact Nat.mul_lt_mul_of_pos_left (Nat.mul_lt_mul_of_pos_right atMost pos) (by decide)
      _ = 2 * (2 ^ (53 + oneShift) * 10 ^ ((toString d.digits).length + d.exponent.toNat)) := by
          rw [unitsPerOne_eq]
          ring
      _ ≤ 2 * 10 ^ (decadesBelow + (toString d.digits).length + d.exponent.toNat) := by
          rw [Nat.add_assoc decadesBelow, Nat.pow_add 10 decadesBelow]
          exact Nat.mul_le_mul_left _ (Nat.mul_le_mul_right _ decades.2.le)
  rw [pointPosition, digitChars, String.length_toList]
  omega

theorem digits_pos_of_holds (nonzero : x.magnitude ≠ 0)
    (h : (RoundingInterval.of x).Holds d.unitNumerator d.denominator) : 0 < d.digits := by
  by_contra zero
  have low := h.low
  rw [unitNumerator, Nat.eq_zero_of_not_pos zero, Nat.zero_mul, Nat.zero_mul, Nat.mul_zero] at low
  have step : 0 < d.denominator * 2 ^ (RoundingInterval.of x).shift :=
    Nat.mul_pos d.denominator_pos (Nat.two_pow_pos _)
  have := Nat.mul_pos (Nat.lt_of_lt_of_le (by decide) (low_pos nonzero)) step
  omega

end Range

/-- A ratio in the interval of a number is read as the number. -/
theorem ofRatio_of_holds {x : Binary64} {n d : Nat} (finite : x.isFinite = true)
    (nonzero : x.magnitude ≠ 0) (hd : 0 < d)
    (h : (RoundingInterval.of x).Holds (n * unitsPerOne) d) : ofRatio x.negative n d = x := by
  rw [ofRatio, ofUnits, roundMagnitude_of_holds finite nonzero hd h, ofMagnitude_self]

end Binary64

/-! ## Reading a numeral -/

namespace Numeral

def decimal (n : Numeral) : Decimal := ⟨n.allDigits, n.scale⟩

theorem binary64?_of_holds {x : Binary64} {n : Numeral} (finite : x.isFinite = true)
    (nonzero : x.magnitude ≠ 0) (sign : n.negative = x.negative)
    (h : (RoundingInterval.of x).Holds n.decimal.unitNumerator n.decimal.denominator) :
    n.binary64? = some x := by
  have pos := Binary64.digits_pos_of_holds nonzero h
  have high := Binary64.pointPosition_le finite h pos
  have low := Binary64.le_pointPosition nonzero h
  have count : n.decimal.pointPosition = ((toString n.allDigits).length : Int) + n.scale := by
    rw [pointPosition, digitChars, String.length_toList]
    rfl
  rw [count] at high low
  rw [Binary64.decadesAbove] at high
  rw [Binary64.decadesBelow] at low
  -- the digits are not zero and the point is in range, so that the ratio decides
  have read : Binary64.ofRatio n.negative (n.allDigits * Nat.pow 10 n.scale.toNat)
      (Nat.pow 10 (-n.scale).toNat) = x := by
    rw [sign]
    exact Binary64.ofRatio_of_holds finite nonzero n.decimal.denominator_pos h
  unfold binary64?
  dsimp only
  rw [if_neg (c := n.allDigits = 0) (Nat.pos_iff_ne_zero.mp pos), if_neg (by omega),
    if_neg (by omega), read, if_pos finite]

/-! ## The two forms -/

/-- A numeral denotes a decimal, perhaps with zeros behind its digits. -/
def Denotes (n : Numeral) (d : Decimal) : Prop :=
  ∃ zeros : Nat, n.allDigits = d.digits * 10 ^ zeros ∧ n.scale = d.exponent - zeros

variable {n : Numeral} {d : Decimal}

theorem Denotes.holds (h : n.Denotes d) {i : RoundingInterval}
    (held : i.Holds d.unitNumerator d.denominator) :
    i.Holds n.decimal.unitNumerator n.decimal.denominator := by
  obtain ⟨zeros, digits, scale⟩ := h
  refine held.congr d.denominator_pos n.decimal.denominator_pos ?_
  have powers : zeros + (d.exponent - zeros).toNat + (-d.exponent).toNat =
      d.exponent.toNat + (-(d.exponent - zeros)).toNat := by omega
  have tens := congrArg (10 ^ ·) powers
  simp only [Nat.pow_add] at tens
  simp only [unitNumerator, denominator, decimal, digits, scale]
  calc d.digits * 10 ^ d.exponent.toNat * Binary64.unitsPerOne *
        10 ^ (-(d.exponent - zeros)).toNat
      = d.digits * Binary64.unitsPerOne *
        (10 ^ d.exponent.toNat * 10 ^ (-(d.exponent - zeros)).toNat) := by ring
    _ = d.digits * 10 ^ zeros * 10 ^ (d.exponent - zeros).toNat * Binary64.unitsPerOne *
        10 ^ (-d.exponent).toNat := by
      rw [← tens]
      ring

theorem digitChars_ne_nil (d : Decimal) : d.digitChars ≠ [] := Json.toString_ne_nil _

/-- With a power of ten. -/
theorem denotes_ofScientific (negative : Bool) (d : Decimal) :
    (ofScientific negative d).Denotes d := by
  have pos := List.length_pos_iff.mpr (digitChars_ne_nil d)
  refine ⟨0, ?_, ?_⟩
  · show Json.digitsValue (d.digitChars.take 1 ++ d.digitChars.drop 1) = _
    rw [List.take_append_drop, digitChars, Json.digitsValue_toString, Nat.pow_zero, Nat.mul_one]
  · show d.pointPosition - 1 - ((d.digitChars.drop 1).length : Int) = _
    rw [pointPosition, List.length_drop]
    omega

section Positional

variable {negative : Bool}

/-- Written out, with all digits behind the point. -/
theorem ofPositional_small (small : d.pointPosition ≤ 0) : ofPositional negative d =
    ⟨negative, ['0'], List.replicate (-d.pointPosition).toNat '0' ++ d.digitChars, none⟩ := by
  have same : d.pointPosition.toNat = 0 := by omega
  unfold ofPositional wholeDigits fractionDigits
  rw [if_pos small, same, List.drop_zero]
  dsimp only
  rw [if_neg]
  simp [digitChars_ne_nil d]

/-- Written out, with the point among the digits. -/
theorem ofPositional_split (large : 0 < d.pointPosition) (fractional : d.exponent < 0) :
    ofPositional negative d = ⟨negative, d.digitChars.take d.pointPosition.toNat,
      d.digitChars.drop d.pointPosition.toNat, none⟩ := by
  have count : d.pointPosition = (d.digitChars.length : Int) + d.exponent := rfl
  have whole : d.exponent.toNat = 0 := by omega
  have front : (-d.pointPosition).toNat = 0 := by omega
  have behind : ¬ (d.digitChars.drop d.pointPosition.toNat).isEmpty = true := by
    rw [List.isEmpty_iff, List.drop_eq_nil_iff]
    omega
  unfold ofPositional wholeDigits fractionDigits
  rw [if_neg (by omega), whole, front, List.replicate_zero, List.append_nil, List.nil_append]
  dsimp only
  rw [if_neg behind]

/-- Written out, with zeros behind all digits. -/
theorem ofPositional_whole (whole : 0 ≤ d.exponent) : ofPositional negative d =
    ⟨negative, d.digitChars ++ List.replicate d.exponent.toNat '0', ['0'], none⟩ := by
  have pos := List.length_pos_iff.mpr (digitChars_ne_nil d)
  have all : d.digitChars.length ≤ d.pointPosition.toNat := by
    rw [pointPosition]
    omega
  have large : ¬ d.pointPosition ≤ 0 := by omega
  have front : (-d.pointPosition).toNat = 0 := by omega
  unfold ofPositional wholeDigits fractionDigits
  rw [if_neg large, front, List.replicate_zero, List.nil_append, List.take_of_length_le all,
    List.drop_of_length_le all]
  rfl

/-- The three ways in which a decimal is written out. -/
theorem ofPositional_cases {P : Numeral → Prop}
    (small : d.pointPosition ≤ 0 →
      P ⟨negative, ['0'], List.replicate (-d.pointPosition).toNat '0' ++ d.digitChars, none⟩)
    (split : 0 < d.pointPosition → d.exponent < 0 →
      P ⟨negative, d.digitChars.take d.pointPosition.toNat,
        d.digitChars.drop d.pointPosition.toNat, none⟩)
    (whole : 0 ≤ d.exponent →
      P ⟨negative, d.digitChars ++ List.replicate d.exponent.toNat '0', ['0'], none⟩) :
    P (ofPositional negative d) := by
  by_cases h : 0 ≤ d.exponent
  · rw [ofPositional_whole h]
    exact whole h
  · by_cases h' : d.pointPosition ≤ 0
    · rw [ofPositional_small h']
      exact small h'
    · rw [ofPositional_split (by omega) (by omega)]
      exact split (by omega) (by omega)

end Positional

/-- Written out. -/
theorem denotes_ofPositional (negative : Bool) (d : Decimal) :
    (ofPositional negative d).Denotes d := by
  have value : Json.digitsValue d.digitChars = d.digits := Json.digitsValue_toString _
  have count : d.pointPosition = (d.digitChars.length : Int) + d.exponent := rfl
  apply ofPositional_cases (P := fun n => n.Denotes d)
  case small =>
    intro small
    refine ⟨0, ?_, ?_⟩
    · show Json.digitsValue (List.replicate 1 '0' ++ _) = _
      rw [Json.digitsValue_append, Json.digitsValue_append, Json.digitsValue_zeros,
        Json.digitsValue_zeros, value]
      simp
    · show (0 : Int) - ((List.replicate _ '0' ++ d.digitChars).length : Int) = _
      rw [List.length_append, List.length_replicate]
      omega
  case split =>
    intro large fractional
    refine ⟨0, ?_, ?_⟩
    · show Json.digitsValue (d.digitChars.take _ ++ d.digitChars.drop _) = _
      rw [List.take_append_drop, value, Nat.pow_zero, Nat.mul_one]
    · show (0 : Int) - ((d.digitChars.drop _).length : Int) = _
      rw [List.length_drop]
      omega
  case whole =>
    intro whole
    -- the zero behind the point is one more digit
    refine ⟨d.exponent.toNat + 1, ?_, ?_⟩
    · show Json.digitsValue (d.digitChars ++ List.replicate d.exponent.toNat '0' ++
        List.replicate 1 '0') = _
      rw [Json.digitsValue_append, Json.digitsValue_append, Json.digitsValue_zeros,
        Json.digitsValue_zeros, value]
      simp only [List.length_replicate, Nat.pow_succ, Nat.pow_zero, Nat.one_mul, Nat.add_zero,
        Nat.mul_assoc]
    · show (0 : Int) - 1 = _
      omega

theorem isDigit_of_mem_digitChars {c : Char} (h : c ∈ d.digitChars) : c.isDigit = true :=
  Json.isDigit_of_mem_toString h

theorem isDigit_of_mem_zeros {c : Char} {k : Nat} (h : c ∈ List.replicate k '0') :
    c.isDigit = true := by
  rw [List.eq_of_mem_replicate h]
  rfl

theorem isDigit_of_mem_zero {c : Char} (h : c ∈ ['0']) : c.isDigit = true :=
  isDigit_of_mem_zeros (k := 1) h

/-- The first digits of a positive number are not led by a zero. -/
theorem head?_take_append (pos : 0 < d.digits) {k : Nat} (some_ : 0 < k) (zeros : List Char) :
    (d.digitChars.take k ++ zeros).head? ≠ some '0' := by
  have lead := Json.head?_toString pos
  have nonempty := digitChars_ne_nil d
  rw [← digitChars] at lead
  cases digits : d.digitChars with
  | nil => exact absurd digits nonempty
  | cons c rest =>
    obtain ⟨k, rfl⟩ := Nat.exists_eq_succ_of_ne_zero some_.ne'
    rw [digits] at lead
    exact lead

theorem wellFormed_ofPositional (negative : Bool) (pos : 0 < d.digits) :
    (ofPositional negative d).WellFormed := by
  have nonempty := digitChars_ne_nil d
  have length := List.length_pos_iff.mpr nonempty
  apply ofPositional_cases
  case small =>
    intro small
    refine ⟨fun _ h => isDigit_of_mem_zero h, ?_, nofun, fun _ => rfl⟩
    intro c hc
    exact (List.mem_append.mp hc).elim isDigit_of_mem_zeros isDigit_of_mem_digitChars
  case split =>
    intro large fractional
    have lead := head?_take_append pos (k := d.pointPosition.toNat) (by omega) []
    rw [List.append_nil] at lead
    refine ⟨?_, ?_, ?_, fun zero => absurd zero lead⟩
    · exact fun c hc => isDigit_of_mem_digitChars (List.mem_of_mem_take hc)
    · exact fun c hc => isDigit_of_mem_digitChars (List.mem_of_mem_drop hc)
    · rw [Ne, List.take_eq_nil_iff]
      rintro (none | empty)
      · omega
      · exact nonempty empty
  case whole =>
    intro whole
    have lead := head?_take_append pos length (List.replicate d.exponent.toNat '0')
    rw [List.take_length] at lead
    refine ⟨?_, fun _ h => isDigit_of_mem_zero h, by simp [nonempty],
      fun zero => absurd zero lead⟩
    intro c hc
    exact (List.mem_append.mp hc).elim isDigit_of_mem_digitChars isDigit_of_mem_zeros

theorem wellFormed_ofScientific (negative : Bool) (pos : 0 < d.digits) :
    (ofScientific negative d).WellFormed := by
  have lead := head?_take_append pos (k := 1) Nat.one_pos []
  rw [List.append_nil] at lead
  refine ⟨?_, ?_, ?_, fun zero => absurd zero lead⟩
  · exact fun c hc => isDigit_of_mem_digitChars (List.mem_of_mem_take hc)
  · exact fun c hc => isDigit_of_mem_digitChars (List.mem_of_mem_drop hc)
  · exact fun h => (List.take_eq_nil_iff.mp h).elim nofun (digitChars_ne_nil d)

/-! ## Round trips -/

theorem ofBinary64_zero {x : Binary64} (zero : x.magnitude = 0) :
    ofBinary64 x = ⟨x.negative, ['0'], ['0'], none⟩ := by
  have digits : Decimal.shortest .toEven x = ⟨0, 0⟩ := if_pos zero
  have one : (Decimal.mk 0 0).digitChars = ['0'] := Json.toString_zero
  have position : (Decimal.mk 0 0).pointPosition = 1 := by
    rw [pointPosition, one]
    rfl
  unfold ofBinary64
  rw [digits]
  dsimp only
  rw [position, if_pos (by decide), ofPositional_whole (Int.le_refl 0), one]
  rfl

theorem digits_shortest_pos {x : Binary64} (nonzero : x.magnitude ≠ 0) (tie : TieRule) :
    0 < (Decimal.shortest tie x).digits :=
  Binary64.digits_pos_of_holds nonzero (holds_shortest nonzero tie)

/-- The numeral of a finite number can be written. -/
theorem wellFormed_ofBinary64 (x : Binary64) : (ofBinary64 x).WellFormed := by
  by_cases zero : x.magnitude = 0
  · rw [ofBinary64_zero zero]
    exact ⟨fun _ h => isDigit_of_mem_zero h, fun _ h => isDigit_of_mem_zero h, nofun, fun _ => rfl⟩
  · have pos := digits_shortest_pos zero .toEven
    unfold ofBinary64
    dsimp only
    split
    · exact wellFormed_ofPositional _ pos
    · exact wellFormed_ofScientific _ pos

/-- **A finite number is read back from its numeral.** -/
theorem binary64?_ofBinary64 {x : Binary64} (finite : x.isFinite = true) :
    (ofBinary64 x).binary64? = some x := by
  by_cases zero : x.magnitude = 0
  · rw [ofBinary64_zero zero]
    show some (Binary64.ofMagnitude x.negative 0) = some x
    rw [← zero, Binary64.ofMagnitude_self]
  · have held := holds_shortest zero .toEven
    unfold ofBinary64
    dsimp only
    split
    · exact binary64?_of_holds finite zero rfl ((denotes_ofPositional _ _).holds held)
    · exact binary64?_of_holds finite zero rfl ((denotes_ofScientific _ _).holds held)

end Numeral

end GasEscalator
