import GasEscalator.Binary64

/-!
# Shortest decimal digits of a binary number

A finite number is written with the fewest digits that read back as the same number. The reals that
round to it form an interval around it, which holds its ends exactly when the significand is even.
The digits are the point of the interval on the coarsest grid of multiples of a power of ten that
has one there, and of two such points the one nearer to the number.
-/
namespace GasEscalator

/-- The decimal number `digits * 10 ^ exponent`. -/
structure Decimal where
  digits : Nat
  exponent : Int
deriving DecidableEq

/-- Which of two equally near points is taken. -/
inductive TieRule
  | upward
  | toEven
deriving DecidableEq

namespace Decimal

/-- The reals that round to one number: `low / 4`, `middle / 4` and `high / 4` times `2 ^ shift`
units. -/
structure RoundingInterval where
  low : Nat
  middle : Nat
  high : Nat
  shift : Nat
  /-- Whether the ends belong to it. -/
  closed : Bool

/-- The interval of a finite number that is not zero. Below a power of two the numbers are twice
as dense as above it. -/
def RoundingInterval.of (x : Binary64) : RoundingInterval :=
  let m := x.significand
  let narrow := m = Binary64.fractionBound && 0 < x.shift
  { low := 4 * m - if narrow then 1 else 2
    middle := 4 * m
    high := 4 * m + 2
    shift := x.shift
    closed := m % 2 = 0 }

/-- The numerator of one quarter of `2 ^ shift` units, counted in steps of the grid of multiples of
`10 ^ s`. -/
def RoundingInterval.quarterNumerator (i : RoundingInterval) (s : Int) : Nat :=
  Nat.pow 10 (-s).toNat <<< i.shift

/-- The denominator that goes with it. -/
def quarterDenominator (s : Int) : Nat := 4 * Binary64.unitsPerOne * Nat.pow 10 s.toNat

/-- The point of the interval on the grid of multiples of `10 ^ s` that is nearest to the middle. -/
def RoundingInterval.pointOn (i : RoundingInterval) (tie : TieRule) (s : Int) : Option Nat :=
  let a := i.quarterNumerator s
  let b := quarterDenominator s
  let holds (k : Nat) : Bool :=
    if i.closed then i.low * a ≤ k * b && k * b ≤ i.high * a
    else i.low * a < k * b && k * b < i.high * a
  let below := i.middle * a / b
  let twice := 2 * (i.middle * a % b)
  match holds below, holds (below + 1) with
  | false, false => none
  | true, false => some below
  | false, true => some (below + 1)
  | true, true =>
    if b < twice || (twice = b && (tie = .upward || below % 2 = 1)) then some (below + 1)
    else some below

/-- The first hit on the `n + 1` grids from `10 ^ s` downward; on the last grid the number itself
is the answer. -/
def RoundingInterval.search (i : RoundingInterval) (tie : TieRule) : (n : Nat) → (s : Int) → Decimal
  | 0, s => ⟨i.middle * i.quarterNumerator s / quarterDenominator s, s⟩
  | n + 1, s =>
    match i.pointOn tie s with
    | some k => ⟨k, s⟩
    | none => i.search tie n (s - 1)

/-- The shortest decimal of a finite number, its sign left out. A finite number is a multiple of
`2 ^ e` for some `e`, and so of the finest grid tried, that of `10 ^ min e 0`. -/
def shortest (tie : TieRule) (x : Binary64) : Decimal :=
  if x.magnitude = 0 then ⟨0, 0⟩ else
    let e : Int := x.shift - 1074
    let coarsest := ((x.significand.log2 : Int) + e + 1) * 3 / 10 + 2
    let finest := min e 0
    (RoundingInterval.of x).search tie (coarsest - finest).toNat coarsest

def digitChars (d : Decimal) : List Char := (toString d.digits).toList

/-- How many of the digits stand in front of the point; negative when zeros follow the point. -/
def pointPosition (d : Decimal) : Int := d.digitChars.length + d.exponent

def wholeDigits (d : Decimal) : List Char :=
  if d.pointPosition ≤ 0 then ['0']
  else d.digitChars.take d.pointPosition.toNat ++ List.replicate d.exponent.toNat '0'

def fractionDigits (d : Decimal) : List Char :=
  List.replicate (-d.pointPosition).toNat '0' ++ d.digitChars.drop d.pointPosition.toNat

/-- The decimal with all its digits written out, and a point only in front of a fraction. -/
def positionalText (d : Decimal) : String :=
  let fraction := d.fractionDigits
  String.ofList (d.wholeDigits ++ if fraction.isEmpty then [] else '.' :: fraction)

end Decimal

/-- A number as messages show it: shortest digits, never an exponent, and the usual words for what
is not finite. -/
def Binary64.messageText (x : Binary64) : String :=
  if x.isNaN then "NaN"
  else
    (if x.negative then "-" else "") ++
      if x.isFinite then (Decimal.shortest .upward x).positionalText else "inf"

end GasEscalator
