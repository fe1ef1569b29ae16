/-!
# Binary floating-point numbers of 64 bits

A number is its bit pattern: a sign, eleven bits of exponent and fifty-two of fraction. Every finite
number is a whole multiple of the least positive one, so that its size is a natural number of such
units. Every operation rounds one exact ratio to the nearest number, and of two equally near ones to
the one with an even last bit; all arithmetic is on natural numbers.
-/
namespace GasEscalator

/-- A number, as its bit pattern. -/
structure Binary64 where
  bits : UInt64
deriving DecidableEq

namespace Binary64

/-! ## Parts of a number -/

/-- One more than the largest fraction: the weight of the exponent's last bit in a pattern, and of
the leading bit in a significand. -/
abbrev fractionBound : Nat := 0x10000000000000

def negative (x : Binary64) : Bool := decide (0x8000000000000000 ≤ x.bits.toNat)

/-- The pattern without its sign bit. Among numbers that are not NaN it orders the magnitudes. -/
def magnitude (x : Binary64) : Nat := x.bits.toNat % 0x8000000000000000

/-- The magnitude of an infinity; those above it are NaN. -/
def infiniteMagnitude : Nat := 0x7ff0000000000000

def isNaN (x : Binary64) : Bool := decide (infiniteMagnitude < x.magnitude)

def isFinite (x : Binary64) : Bool := decide (x.magnitude < infiniteMagnitude)

def exponentField (x : Binary64) : Nat := x.magnitude / fractionBound

/-- The fraction, with the leading bit that is not stored for normal numbers. -/
def significand (x : Binary64) : Nat :=
  if x.exponentField = 0 then x.magnitude else fractionBound + x.magnitude % fractionBound

/-- By how many places the significand is shifted up to count units. -/
def shift (x : Binary64) : Nat := x.exponentField - 1

/-- The exact value of a finite number in units, its sign left out. -/
def units (x : Binary64) : Nat := x.significand <<< x.shift

/-- How many units make one. -/
def unitsPerOne : Nat := 1 <<< 1074

def ofMagnitude (negative : Bool) (magnitude : Nat) : Binary64 :=
  ⟨UInt64.ofNat (magnitude + if negative then 0x8000000000000000 else 0)⟩

/-- The one NaN that operations answer. -/
def nan : Binary64 := ⟨0x7ff8000000000000⟩

/-! ## Rounding -/

/-- The integer nearest to `n / d`, the even one if two are equally near. -/
def roundHalfEven (n d : Nat) : Nat :=
  let q := n / d
  let twice := 2 * (n % d)
  if twice < d then q else if d < twice then q + 1 else q + q % 2

/-- The least number of places by which `n / d` has to be shifted down to have no more than
fifty-three bits in front of its point. -/
def leastShift (n d : Nat) : Nat :=
  let k := n.log2 - d.log2 - 53
  if n < d <<< (k + 53) then k else k + 1

/-- The magnitude of the number nearest to `n / d` units; a ratio beyond the largest number gives
that of an infinity. Adding the rounded significand to the exponent's bits lets a carry move on into
them. -/
def roundMagnitude (n d : Nat) : Nat :=
  let k := leastShift n d
  min infiniteMagnitude (k * fractionBound + roundHalfEven n (d <<< k))

/-- The number nearest to `n / d` units with the given sign. -/
def ofUnits (negative : Bool) (n d : Nat) : Binary64 := ofMagnitude negative (roundMagnitude n d)

/-- The number nearest to `n / d` with the given sign. -/
def ofRatio (negative : Bool) (n d : Nat) : Binary64 := ofUnits negative (n * unitsPerOne) d

def ofNat (n : Nat) : Binary64 := ofRatio false n 1

/-! ## Operations -/

/-- The product, rounded once. -/
def mul (x y : Binary64) : Binary64 :=
  let negative := x.negative != y.negative
  if x.isNaN || y.isNaN then nan
  else if x.isFinite && y.isFinite then
    ofUnits negative (x.units * y.units) unitsPerOne
  else if x.magnitude = 0 || y.magnitude = 0 then nan
  else ofMagnitude negative infiniteMagnitude

instance : Mul Binary64 := ⟨mul⟩

/-- Whether a number is greater than one; NaN is not. -/
def exceedsOne (x : Binary64) : Bool :=
  !x.isNaN && !x.negative && (!x.isFinite || decide (unitsPerOne < x.units))

/-- The integer part, at most `limit`; nothing is below zero, and NaN counts as zero. -/
def truncate (limit : Nat) (x : Binary64) : Nat :=
  if x.isNaN || x.negative then 0
  else if x.isFinite then min limit (x.units / unitsPerOne)
  else limit

end Binary64

end GasEscalator
