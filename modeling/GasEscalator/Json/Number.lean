import GasEscalator.Json
import GasEscalator.Decimal

/-!
# Binary numbers in JSON

A number is written with its shortest digits and at least one digit behind the point, or with a
power of ten when it is below `10 ^ -5` or not below `10 ^ 16`. What is not finite has no numeral
and is written as null. Reading rounds the written value once; a value beyond the largest number is
refused.
-/
namespace GasEscalator

namespace Numeral

def allDigits (n : Numeral) : Nat := Json.digitsValue (n.whole ++ n.fraction)

/-- The power of ten that scales `allDigits`. -/
def scale (n : Numeral) : Int := n.exponent.getD 0 - n.fraction.length

/-- The nearest number; nothing if it is not finite. A value far outside the range is settled by
its count of digits, so that no large power is computed. -/
def binary64? (n : Numeral) : Option Binary64 :=
  let m := n.allDigits
  let count : Int := (toString m).length
  if m = 0 then some (.ofMagnitude n.negative 0)
  else if count + n.scale < -330 then some (.ofMagnitude n.negative 0)
  else if 330 < count + n.scale then none
  else
    let x := Binary64.ofRatio n.negative (m * Nat.pow 10 n.scale.toNat) (Nat.pow 10 (-n.scale).toNat)
    if x.isFinite then some x else none

/-- A decimal written out, with at least one digit behind the point. -/
def ofPositional (negative : Bool) (d : Decimal) : Numeral :=
  let fraction := d.fractionDigits
  ⟨negative, d.wholeDigits, if fraction.isEmpty then ['0'] else fraction, none⟩

/-- A decimal with one digit in front of the point and a power of ten. -/
def ofScientific (negative : Bool) (d : Decimal) : Numeral :=
  ⟨negative, d.digitChars.take 1, d.digitChars.drop 1, some (d.pointPosition - 1)⟩

def ofBinary64 (x : Binary64) : Numeral :=
  let d := Decimal.shortest .toEven x
  if -5 < d.pointPosition ∧ d.pointPosition ≤ 16 then ofPositional x.negative d
  else ofScientific x.negative d

end Numeral

namespace Json

def ofBinary64 (x : Binary64) : Json :=
  if x.isFinite then .number (.ofBinary64 x) else .null

/-- A finite binary number, from a numeral of any form. -/
def binary64? : Json → Option Binary64
  | .number n => n.binary64?
  | _ => none

end Json

end GasEscalator
